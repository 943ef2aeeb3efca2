import YieldVault.Proofs.Session.Segment

/-!
# Effects on the state

All that one operation or segment can do to the state of a session, whatever the wallet and the chain
answer. A form is typed into or judged, a quote is taken, a slot turns or an action settles; all else has to
do with the connection. What each of these keeps, every run of a session keeps.
-/

namespace YieldVault

/-- The ways in which a slot turns, settling apart. -/
inductive Slot.Turn (s : Slot) : Slot → Prop
  | begin (h : s.phase.inFlight = false) (r : Request) (t : Token) :
      Turn s { s with phase := .awaitingSignature, request := some r, token := some t }
  | sign (h : s.phase = .awaitingSignature) (reference : String) :
      Turn s { s with phase := .submitted reference }
  | reject (h : s.phase.inFlight = true) (reason : Rejection) :
      Turn s { s with phase := .rejected reason, token := none }
  | release (h : s.phase.inFlight = false) : Turn s { s with phase := .idle, request := none }

theorem Slot.Turn.phase_ne_settled {s s' : Slot} (h : s.Turn s') (r : Receipt) : s'.phase ≠ .settled r := by
  cases h <;> simp

namespace Connection

theorem step_request {c c' : Connection} (h : c.step .request = .ok c') :
    c ≠ .connecting ∧ c' = .connecting := by
  cases c with
  | disconnected => cases h; simp
  | failed reason => cases h; simp
  | connecting => cases h
  | connected address => cases h

theorem step_let_go {c c' : Connection} {m : Move} (hm : m = .acknowledge ∨ m = .disconnect)
    (h : c.step m = .ok c') :
    c ≠ .connecting ∧ c' = .disconnected := by
  rcases hm with rfl | rfl
  · cases c with
    | failed reason => cases h; simp
    | _ => cases h
  · cases c with
    | connected address => cases h; simp
    | _ => cases h

theorem ofAccount_ne_connecting (address : String) : ofAccount address ≠ .connecting := by
  unfold ofAccount
  split <;> simp

/-- A connected account has an address that is not blank. -/
def Named (c : Connection) : Prop := ∀ address, c = .connected address → Text.trimChars address.toList ≠ []

theorem step_named {c c' : Connection} {m : Move} (h : c.step m = .ok c') : c'.Named := by
  intro address ha
  subst ha
  unfold step at h
  split at h <;> simp only [Except.ok.injEq, reduceCtorEq] at h
  unfold ofAccount at h
  split at h
  · cases h
  · rename_i hb
    cases h
    simpa using hb

/-- What the wallet's part of an attempt ends with. -/
def Move.IsEntry (m : Move) : Prop := (∃ address, m = .authorized address) ∨ ∃ reason, m = .rejected reason

theorem step_entry_connecting {m : Move} (hm : m.IsEntry) :
    ∃ c, step .connecting m = .ok c ∧ c ≠ .connecting := by
  rcases hm with ⟨address, rfl⟩ | ⟨reason, rfl⟩
  · exact ⟨_, rfl, ofAccount_ne_connecting address⟩
  · exact ⟨_, rfl, by simp⟩

theorem step_entry_of_ne {c : Connection} {m : Move} (hm : m.IsEntry) (h : c ≠ .connecting) :
    c.step m = .error ⟨m, c⟩ := by
  rcases hm with ⟨address, rfl⟩ | ⟨reason, rfl⟩
  · cases c <;> simp_all [step]
  · cases c <;> simp_all [step]

end Connection

namespace State

def judge (s : State) (kind : Kind) : State :=
  s.withForm kind { s.form kind with verdict := s.verdictFor kind (s.form kind).input }

/-- The position is replaced, and the figures with it, and both forms are judged. -/
def requote (s : State) (p : Position) (stats : Stats) : State :=
  { { s with position := some p }.revalidateAll.1 with stats := stats }

def settledWith (s : State) (kind : Kind) (receipt : Receipt) (p : Position) : State :=
  (({ s with position := some p }.withSlot kind
    { (s.form kind).slot with phase := .settled receipt, token := none }).cleared kind).1

inductive Work (s : State) : State → Prop
  | still : Work s s
  | judged (kind : Kind) : Work s (s.judge kind)
  | typed (kind : Kind) (raw : String) : Work s ((s.beginInput kind raw).1.judge kind)
  | requoted (p : Position) (stats : Stats) : Work s (s.requote p stats)
  | turned {kind : Kind} {slot : Slot} (turn : (s.form kind).slot.Turn slot) : Work s (s.withSlot kind slot)
  | settled {kind : Kind} (receipt : Receipt) (p : Position) (h : Slot.isSubmitted (s.phase kind) = true) :
      Work s (s.settledWith kind receipt p)

/-- What one step can do to the state, apart from the start of an input. An attempt that is no longer
asked for drops its token. -/
inductive Effect (s : State) : State → Prop
  | worked {s' : State} (h : s.Work s') : Effect s s'
  | requested (h : s.connection ≠ .connecting) (t : Token) :
      Effect s { s with connection := .connecting, connectToken := some t }
  | entered {c : Connection} (h : s.connection = .connecting) (hc : c ≠ .connecting) (hn : c.Named) :
      Effect s { s with connection := c, connectToken := none }
  | dropped (h : s.connection ≠ .connecting) : Effect s { s with connectToken := none }
  | left (h : s.connection ≠ .connecting) : Effect s { s with connection := .disconnected }

/-! ## Slots -/

theorem slot_judge (s : State) (kind k : Kind) : ((s.judge kind).form k).slot = (s.form k).slot :=
  slot_withForm s (by rfl) k

theorem slot_requote (s : State) (p : Position) (stats : Stats) (k : Kind) :
    ((s.requote p stats).form k).slot = (s.form k).slot := by
  have h := revalidateAll_slot { s with position := some p } k
  cases k <;> exact h

theorem slot_settledWith (s : State) (kind : Kind) (receipt : Receipt) (p : Position) :
    ((s.settledWith kind receipt p).form kind).slot =
      { (s.form kind).slot with phase := .settled receipt, token := none } := by
  unfold settledWith
  rw [cleared_slot, slot_withSlot]

theorem slot_settledWith_of_ne (s : State) {kind k : Kind} (h : k ≠ kind) (receipt : Receipt) (p : Position) :
    ((s.settledWith kind receipt p).form k).slot = (s.form k).slot := by
  unfold settledWith
  rw [cleared_slot, slot_withSlot_of_ne _ h]
  cases k <;> rfl

/-- Only a settlement settles a slot; otherwise it stays or turns. -/
theorem Work.slot_or_settled {s s' : State} (h : s.Work s') :
    (∀ k, (s'.form k).slot = (s.form k).slot ∨ (s.form k).slot.Turn (s'.form k).slot) ∨
      ∃ kind receipt p, s' = s.settledWith kind receipt p := by
  cases h with
  | still => exact .inl fun k => .inl rfl
  | judged kind => exact .inl fun k => .inl (slot_judge s kind k)
  | typed kind raw =>
    left
    intro k
    rw [slot_judge]
    exact .inl (slot_withForm s (by rfl) k)
  | requoted p stats => exact .inl fun k => .inl (slot_requote s p stats k)
  | @turned kind slot turn =>
    left
    intro k
    by_cases hk : k = kind
    · subst hk
      rw [slot_withSlot]
      exact .inr turn
    · exact .inl (slot_withSlot_of_ne s hk slot)
  | settled receipt p h => exact .inr ⟨_, receipt, p, rfl⟩

/-! ## Results of operations -/

theorem completeInput_eq {s s' : State} {t : Ticket} {v : Verdict} (h : s.completeInput t = some (s', v)) :
    s' = s.judge t.kind := by
  simp only [completeInput] at h
  split at h
  · cases h
    rfl
  · cases h

theorem replaceQuote_eq {s s' : State} {q : Quote} {es : List Event} (h : s.replaceQuote q = .ok (s', es)) :
    ∃ p stats, s' = s.requote p stats := by
  unfold replaceQuote at h
  cases hp : Position.ofQuote q with
  | error e => simp [hp, bind, Except.bind] at h
  | ok p =>
    simp only [hp, bind, Except.bind, pure, Except.pure, Except.ok.injEq, Prod.mk.injEq] at h
    exact ⟨p, _, h.1.symm⟩

theorem applySnapshot_eq {s s' : State} {snapshot : Snapshot} {es : List Event}
    (h : s.applySnapshot snapshot = .ok (s', es)) : ∃ p stats, s' = s.requote p stats := by
  unfold applySnapshot at h
  cases hq : s.replaceQuote snapshot.quote with
  | error e => simp [hq, bind, Except.bind] at h
  | ok x =>
    obtain ⟨p, stats, hx⟩ := replaceQuote_eq hq
    simp only [hq, bind, Except.bind, pure, Except.pure] at h
    split at h
    · cases h
      exact ⟨p, stats, hx⟩
    · cases h
      exact ⟨p, snapshot.stats, by rw [hx]; rfl⟩

theorem settle_work {s s' : State} {signed : Signed} {now : Moment} {es : List Event}
    (h : s.settle signed now = .settled s' es) : s.Work s' := by
  by_cases ha : s.Awaits signed
  · have hp : Slot.isSubmitted (s.form signed.request.kind).slot.phase = true := ha.2
    cases hf : s.fold signed now with
    | error reason => simp [settle, ha.1, hp, hf] at h
    | ok x =>
      rw [settle_eq_of_fold ha hf (Slot.settle_eq_ok_iff.mpr ⟨ha.1, hp, rfl⟩)] at h
      cases h
      exact .settled x.1 x.2 ha.2
  · have hs := settle_settling s signed now
    rw [h] at hs
    cases hs with
    | settled hs => exact absurd hs ha

end State

namespace Session

theorem attempt_state {ρ : Type} (s : Session) (toFault : ρ → Fault) (r : Except ρ (State × List Event)) :
    (s.attempt toFault r).1.state = s.state ∨ ∃ st es, r = .ok (st, es) ∧
      (s.attempt toFault r).1.state = st := by
  cases r with
  | error e => exact .inl rfl
  | ok x =>
    obtain ⟨st, es⟩ := x
    exact .inr ⟨st, es, rfl, commit_state s st es⟩

/-! ## Operations that end at once -/

theorem refreshQuote_work (s : Session) (q : Quote) : s.state.Work (s.refreshQuote q).1.state := by
  rcases s.attempt_state Position.Refusal.toFault (s.state.replaceQuote q) with he | ⟨st, es, hr, he⟩
  · unfold refreshQuote
    rw [he]
    exact .still
  · obtain ⟨p, stats, rfl⟩ := State.replaceQuote_eq hr
    unfold refreshQuote
    rw [he]
    exact .requoted p stats

theorem completeInput_work (s : Session) (t : Ticket) : s.state.Work (s.completeInput t).1.state := by
  unfold completeInput
  cases h : s.state.completeInput t with
  | none => exact .still
  | some x =>
    show s.state.Work (s.commit x.1 [.verdict t.kind x.2]).state
    rw [commit_state, State.completeInput_eq h]
    exact .judged t.kind

theorem setInput_state (s : Session) (kind : Kind) (raw : String) :
    (s.setInput kind raw).1.state = (s.state.beginInput kind raw).1.judge kind := by
  have h := State.completeInput_beginInput s.state kind raw
  simp only [setInput, beginInput, completeInput, h, commit_state]
  unfold State.judge
  simp [State.beginInput]

theorem acknowledge_work (s : Session) (kind : Kind) : s.state.Work (s.acknowledge kind).1.state := by
  unfold acknowledge
  cases ha : (s.state.form kind).slot.acknowledge with
  | error e =>
    simp only [ha, attempt, bind, Except.bind]
    exact .still
  | ok slot =>
    obtain ⟨hf, rfl⟩ := Slot.acknowledge_eq_ok_iff.mp ha
    simp only [ha, attempt, bind, Except.bind, pure, Except.pure, commit_state]
    exact .turned (.release hf)

theorem moveConnection_effect (s : Session) {m : Connection.Move} (hm : m = .acknowledge ∨ m = .disconnect) :
    s.state.Effect (s.moveConnection m).1.state := by
  unfold moveConnection
  cases hc : s.state.connection.step m with
  | error e => exact .worked .still
  | ok c =>
    show s.state.Effect (s.commit { s.state with connection := c } _).state
    rw [commit_state]
    obtain ⟨hn, rfl⟩ := Connection.step_let_go hm hc
    exact .left hn

theorem disconnect_effect (s : Session) : s.state.Effect s.disconnect.1.state := by
  have h := s.moveConnection_effect (.inr rfl)
  rw [disconnect_eq]
  split
  · exact h
  · exact h

theorem act_effect (s : Session) (a : Action) :
    (∃ kind raw, a = .beginInput kind raw) ∨ s.state.Effect (s.act a).1.state := by
  cases a with
  | beginInput kind raw => exact .inl ⟨kind, raw, rfl⟩
  | cancelConnect =>
    right
    simp only [act, cancelConnect, Prod.map_fst, id]
    split <;> exact .worked .still
  | acknowledgeConnection => exact .inr (s.moveConnection_effect (.inl rfl))
  | disconnect => exact .inr s.disconnect_effect
  | refreshQuote q => exact .inr (.worked (s.refreshQuote_work q))
  | setInput kind raw => exact .inr (.worked (s.setInput_state kind raw ▸ .typed kind raw))
  | completeInput t => exact .inr (.worked (s.completeInput_work t))
  | fillMax kind => exact .inr (.worked (s.setInput_state kind _ ▸ .typed kind _))
  | cancel kind => exact .inr (.worked .still)
  | acknowledge kind => exact .inr (.worked (s.acknowledge_work kind))

/-! ## Flows -/

theorem submit_work (s : Session) (kind : Kind) : s.state.Work (s.submit kind).1.state := by
  unfold submit
  by_cases hf : (s.state.form kind).slot.phase.inFlight = true
  · simp only [if_pos hf]
    exact .still
  · have hb := Slot.begin_of_not_inFlight (Bool.not_eq_true _ ▸ hf) (s.request kind) s.tokens
    simp only [request] at hb
    simp only [if_neg hf, hb]
    split
    · exact .still
    · split
      · exact .still
      · rw [commit_state]
        exact .turned (.begin (Bool.not_eq_true _ ▸ hf) _ _)

theorem takeSnapshot_work (s : Session) (account : String) (result : Except Fault Snapshot) :
    s.state.Work (s.takeSnapshot account result).1.state := by
  unfold takeSnapshot
  split
  · exact .still
  · split
    · rename_i snapshot _
      rcases s.attempt_state Position.Refusal.toFault
        (s.state.applySnapshot snapshot) with he | ⟨st, es, hr, he⟩
      · rw [he]
        exact .still
      · obtain ⟨p, stats, rfl⟩ := State.applySnapshot_eq hr
        rw [he]
        exact .requoted p stats
    · exact .still

theorem rejectAction_work (s : Session) (r : Request) (reason : Rejection) :
    s.state.Work (s.rejectAction r reason).1.state := by
  simp only [rejectAction]
  cases h : (s.state.form r.kind).slot.reject r.trace reason with
  | error e => exact .still
  | ok slot =>
    obtain ⟨_, hf, rfl⟩ := Slot.reject_eq_ok_iff.mp h
    simp only [finish, commit_state]
    exact .turned (.reject hf reason)

theorem rejectAction_position (s : Session) (r : Request) (reason : Rejection) :
    (s.rejectAction r reason).1.state.position = s.state.position := by
  simp only [rejectAction]
  split
  · simp only [finish, commit_state]
    exact State.withSlot_position ..
  · rfl

theorem signAction_work (s : Session) (r : Request) (signed : Signed) (t : Token) :
    s.state.Work (s.signAction r signed t).1.state := by
  simp only [signAction]
  cases h : (s.state.form r.kind).slot.sign r.trace signed.reference with
  | error e => exact .still
  | ok slot =>
    obtain ⟨_, hf, rfl⟩ := Slot.sign_eq_ok_iff.mp h
    simp only [commit_state]
    exact .turned (.sign hf signed.reference)

theorem settleAction_work (s : Session) (signed : Signed) (now : Moment) :
    s.state.Work (s.settleAction signed now).1.state := by
  unfold settleAction
  cases h : s.state.settle signed now with
  | stale st =>
    have hs := s.state.settle_settling signed now
    rw [h] at hs
    cases hs with
    | stale _ => exact .still
  | refused reason => exact s.rejectAction_work _ _
  | settled st es =>
    simp only [finish, commit_state]
    exact State.settle_work h

/-- All that a segment of an action can come to, whether or not the action holds its slot. -/
inductive Acting (s : Session) : Session × Progress → Prop
  | unmoved : Acting s (s, .unmoved)
  | rejects (r : Request) (reason : Rejection) : Acting s (s.rejectAction r reason)
  | signs (r : Request) (signed : Signed) (t : Token) : Acting s (s.signAction r signed t)
  | settles (signed : Signed) (now : Moment) : Acting s (s.settleAction signed now)

theorem resume_acting (s : Session) {f : Flow} {x : Request × Token} (ha : f.action? = some x)
    (signal : Signal) (now : Moment) : s.Acting (s.resume f signal now) := by
  cases f with
  | connecting _ _ => cases ha
  | reading _ => cases ha
  | refreshing _ => cases ha
  | signing r t =>
    simp only [resume, resumeSigning]
    split
    · exact .rejects _ _
    · split
      · exact .rejects _ _
      · exact .signs _ _ _
      · exact .rejects _ _
      · exact .unmoved
  | confirming r signed t =>
    simp only [resume, resumeConfirming]
    split
    · exact .rejects _ _
    · split
      · exact .rejects _ _
      · exact .settles _ _
      · exact .rejects _ _
      · exact .unmoved

theorem Acting.work {s : Session} {x : Session × Progress} (h : s.Acting x) : s.state.Work x.1.state := by
  cases h with
  | unmoved => exact .still
  | rejects r reason => exact s.rejectAction_work r reason
  | signs r signed t => exact s.signAction_work r signed t
  | settles signed now => exact s.settleAction_work signed now

/-- Where a segment leaves the flow of an action. -/
inductive OfAction : Progress → Prop
  | unmoved : OfAction .unmoved
  | confirming (r : Request) (signed : Signed) (t : Token) : OfAction (.waiting (.confirming r signed t))
  | finished (p : Phase) : OfAction (.finished p)

theorem rejectAction_ofAction (s : Session) (r : Request) (reason : Rejection) :
    OfAction (s.rejectAction r reason).2 := by
  unfold rejectAction
  dsimp only
  split <;> exact .finished _

theorem Acting.ofAction {s : Session} {x : Session × Progress} (h : s.Acting x) : OfAction x.2 := by
  cases h with
  | unmoved => exact .unmoved
  | rejects r reason => exact s.rejectAction_ofAction r reason
  | signs r signed t =>
    unfold signAction
    dsimp only
    split
    · exact .confirming _ _ _
    · exact .finished _
  | settles signed now =>
    unfold settleAction
    split
    · exact .finished _
    · exact s.rejectAction_ofAction _ _
    · exact .finished _

/-- Whatever a flow does that is not a connection attempt, it does not touch the connection. -/
theorem resume_work (s : Session) {f : Flow} (hf : ∀ stage t, f ≠ .connecting stage t) (signal : Signal)
    (now : Moment) : s.state.Work (s.resume f signal now).1.state := by
  cases f with
  | connecting stage t => exact absurd rfl (hf stage t)
  | reading account =>
    cases signal with
    | reply r =>
      cases r with
      | snapshot result => exact s.takeSnapshot_work account result
      | _ => exact .still
    | _ => exact .still
  | refreshing account =>
    cases signal with
    | reply r =>
      cases r with
      | snapshot result => exact s.takeSnapshot_work account result
      | _ => exact .still
    | _ => exact .still
  | signing r t => exact (s.resume_acting rfl signal now).work
  | confirming r signed t => exact (s.resume_acting rfl signal now).work

/-! ## Connection attempts -/

theorem connect_effect (s : Session) : s.state.Effect s.connect.1.state := by
  unfold connect
  cases hc : s.state.connection.step .request with
  | error e => exact .worked .still
  | ok c =>
    obtain ⟨hn, rfl⟩ := Connection.step_request hc
    simp only [commit_state]
    exact .requested hn _

theorem enter_effect (s : Session) {m : Connection.Move} (hm : m.IsEntry) :
    s.state.Effect (s.enter m).1.state := by
  unfold enter
  by_cases hc : s.state.connection = .connecting
  · obtain ⟨c, he, hne⟩ := Connection.step_entry_connecting hm
    simp only [hc, he]
    split <;> simp only [commit_state] <;> exact .entered hc hne (Connection.step_named he)
  · simp only [Connection.step_entry_of_ne hm hc]
    exact .dropped hc

theorem start_effect (s : Session) (e : Errand) : s.state.Effect (s.start e).1.state := by
  cases e with
  | connect => exact s.connect_effect
  | submit kind => exact .worked (s.submit_work kind)
  | refresh =>
    simp only [start, refresh]
    split <;> exact .worked .still

inductive Attempt (s : Session) (t : Token) : Session × Progress → Prop
  | unmoved : Attempt s t (s, .unmoved)
  | asks (stage : Authorization) : Attempt s t (s, .waiting (.connecting stage t))
  | enters {m : Connection.Move} (hm : m.IsEntry) : Attempt s t (s.enter m)

theorem resumeConnecting_attempt (s : Session) (stage : Authorization) (t : Token) (signal : Signal) :
    Attempt s t (s.resumeConnecting stage t signal) := by
  unfold resumeConnecting
  split
  · exact .enters (.inr ⟨_, rfl⟩)
  · split
    · exact .enters (.inr ⟨_, rfl⟩)
    · split
      · exact .asks _
      · exact .enters (.inl ⟨_, rfl⟩)
      · exact .enters (.inr ⟨_, rfl⟩)
      · exact .unmoved
    · exact .unmoved

theorem resume_effect (s : Session) (f : Flow) (signal : Signal) (now : Moment) :
    s.state.Effect (s.resume f signal now).1.state := by
  by_cases hf : ∃ stage t, f = .connecting stage t
  · obtain ⟨stage, t, rfl⟩ := hf
    have ha := s.resumeConnecting_attempt stage t signal
    show s.state.Effect (s.resumeConnecting stage t signal).1.state
    revert ha
    generalize s.resumeConnecting stage t signal = x
    intro ha
    cases ha with
    | unmoved => exact .worked .still
    | asks _ => exact .worked .still
    | enters hm => exact s.enter_effect hm
  · exact .worked (s.resume_work (fun stage t he => hf ⟨stage, t, he⟩) signal now)

end Session

end YieldVault
