import YieldVault.Proofs.Session.Operation

/-!
# Segments of flows

What each segment of a flow can come to. A segment of a connection attempt or of a reading of the
chain has to do with no action; a segment of an action that holds its slot turns that slot alone.
-/

namespace YieldVault

/-- The action that a flow drives, with the token that cancels it. -/
def Flow.action? : Flow → Option (Request × Token)
  | signing request t => some (request, t)
  | confirming request _ t => some (request, t)
  | _ => none

/-- The phase of an action whose flow is here. -/
def Flow.phase : Flow → Phase
  | signing .. => .awaitingSignature
  | confirming _ signed _ => .submitted signed.reference
  | _ => .idle

/-- The account that a flow reads from the chain. -/
def Flow.account? : Flow → Option String
  | reading account => some account
  | refreshing account => some account
  | _ => none

/-- Where a segment leaves a flow that drives no action. -/
def Progress.IsPlain : Progress → Prop
  | waiting f => f.action? = none
  | ended (.submitted (.ok (.finished _))) => False
  | _ => True

/-- The end of an action's flow. -/
def Progress.finished (p : Phase) : Progress := .ended (.submitted (.ok (.finished p)))

/-- The signal brings what the flow reads from the chain, or it does not. -/
theorem Flow.reads_or_not (f : Flow) (signal : Signal) :
    (∃ snapshot account, signal = .reply (.snapshot (.ok snapshot)) ∧ f.account? = some account) ∨
      ∀ snapshot, signal = .reply (.snapshot (.ok snapshot)) → f.account? = none := by
  cases ha : f.account? with
  | none => exact .inr fun _ _ => rfl
  | some account =>
    by_cases hs : ∃ snapshot, signal = .reply (.snapshot (.ok snapshot))
    · obtain ⟨snapshot, hs⟩ := hs
      exact .inl ⟨snapshot, account, hs, rfl⟩
    · exact .inr fun snapshot he => absurd ⟨snapshot, he⟩ hs

theorem Flow.inFlight_phase {f : Flow} {r : Request} {t : Token} (h : f.action? = some (r, t)) :
    f.phase.inFlight = true := by
  cases f with
  | connecting _ _ => cases h
  | reading _ => cases h
  | refreshing _ => cases h
  | signing _ _ => rfl
  | confirming _ _ _ => rfl

namespace Session

/-! ## Flows without an action -/

/-- A segment of a flow that drives no action and reads nothing. -/
structure Passes (s : Session) (x : Session × Progress) : Prop where
  evolves : ∃ es, s.Evolves es x.1
  quiet : s.Quiet x.1
  plain : x.2.IsPlain

theorem Passes.still (s : Session) {progress : Progress} (h : progress.IsPlain) : s.Passes (s, progress) :=
  ⟨⟨[], .still rfl rfl⟩, .refl s, h⟩

theorem Passes.connection (s : Session) (c : Connection) (t : Option Token) (tokens : Tokens)
    (ht : ∀ u, s.tokens.isCancelled u = true → tokens.isCancelled u = true) {progress : Progress}
    (h : progress.IsPlain) :
    s.Passes ({ s with tokens := tokens }.commit
      { s.state with connection := c, connectToken := t } [.connection c], progress) := by
  have hc := (State.Change.connection s.state c t).single
  have he := Evolves.commit (s := { s with tokens := tokens }) hc
  refine ⟨⟨_, ⟨he.changes, he.bus⟩⟩, ⟨fun k => ?_, ?_, ?_, fun u hu => ?_⟩, h⟩
  · rw [commit_slot]; cases k <;> rfl
  · rw [commit_state]
  · rw [commit_traces]
  · rw [commit_tokens]; exact ht u hu

theorem connect_passes (s : Session) : s.Passes s.connect := by
  unfold connect
  split
  · exact .still s trivial
  · refine .connection s _ (some s.tokens.issue.1) s.tokens.issue.2 (fun _ h => h) ?_
    rfl

theorem enter_passes (s : Session) (m : Connection.Move) : s.Passes (s.enter m) := by
  simp only [enter]
  split
  · have hc := (State.Change.connectToken s.state none).single
    refine ⟨⟨[], ⟨hc, rfl⟩⟩, ⟨fun k => ?_, rfl, rfl, fun _ h => h⟩, trivial⟩
    cases k <;> rfl
  · split
    · refine .connection s _ _ _ (fun _ h => h) ?_
      rfl
    · exact .connection s _ _ _ (fun _ h => h) trivial

theorem resumeConnecting_passes (s : Session) (stage : Authorization) (t : Token) (signal : Signal) :
    s.Passes (s.resumeConnecting stage t signal) := by
  unfold resumeConnecting
  split
  · exact s.enter_passes _
  · split
    · exact s.enter_passes _
    · split
      · exact .still s rfl
      · exact s.enter_passes _
      · exact s.enter_passes _
      · exact .still s trivial
    · exact .still s trivial

theorem refresh_passes (s : Session) : s.Passes s.refresh := by
  unfold refresh
  split
  · exact .still s rfl
  · exact .still s trivial

theorem resume_snapshot (s : Session) {f : Flow} {account : String} (h : f.account? = some account)
    (result : Except Fault Snapshot) (now : Moment) :
    ∃ progress, s.resume f (.reply (.snapshot result)) now = ((s.takeSnapshot account result).1, progress) ∧
      progress.IsPlain := by
  cases f with
  | reading a => cases h; exact ⟨_, rfl, trivial⟩
  | refreshing a => cases h; exact ⟨_, rfl, trivial⟩
  | connecting _ _ => cases h
  | signing _ _ => cases h
  | confirming _ _ _ => cases h

theorem resume_passes (s : Session) {f : Flow} (h : f.action? = none) {signal : Signal}
    (hs : ∀ snapshot, signal = .reply (.snapshot (.ok snapshot)) → f.account? = none) (now : Moment) :
    s.Passes (s.resume f signal now) := by
  cases f with
  | connecting stage t => exact s.resumeConnecting_passes stage t signal
  | signing _ _ => cases h
  | confirming _ _ _ => cases h
  | reading account =>
    rcases signal with ⟨_ | (_ | snapshot) | _ | _⟩ | _ | _
    case reply.snapshot.ok => cases hs snapshot rfl
    all_goals exact .still s trivial
  | refreshing account =>
    rcases signal with ⟨_ | (_ | snapshot) | _ | _⟩ | _ | _
    case reply.snapshot.ok => cases hs snapshot rfl
    all_goals exact .still s trivial

/-! ## Submitting -/

/-- The request that a submission makes now. -/
def request (s : Session) (kind : Kind) : Request :=
  ⟨kind, (s.state.form kind).input, Entry.ofText (s.state.form kind).input, .issued s.traces⟩

/-- A new action has got the slot. -/
structure Begins (s : Session) (kind : Kind) (s' : Session) : Prop where
  free : (s.slot kind).phase.inFlight = false
  evolves : ∃ es, s.Evolves es s'
  slot : s'.slot kind =
    { s.slot kind with
      phase := .awaitingSignature
      request := some (s.request kind)
      token := some s.tokens.issued }
  other : ∀ k, k ≠ kind → s'.slot k = s.slot k
  position : s'.state.position = s.state.position
  traces : s'.traces = s.traces + 1
  tokens : s'.tokens = s.tokens.issue.2
  settings : s'.settings = s.settings

theorem Begins.cancelled {s s' : Session} {kind : Kind} (h : s.Begins kind s') (t : Token)
    (ht : s.tokens.isCancelled t = true) : s'.tokens.isCancelled t = true := by
  rw [h.tokens]
  exact ht

/-- All that a submission can come to at once. -/
inductive Submitting (s : Session) (kind : Kind) : Session × Progress → Prop
  | refused {progress : Progress} (h : progress.IsPlain) : Submitting s kind (s, progress)
  | begun {s' : Session} (h : s.Begins kind s') :
      Submitting s kind (s', .waiting (.signing (s.request kind) s.tokens.issued))

theorem submit_submitting (s : Session) (kind : Kind) : Submitting s kind (s.submit kind) := by
  by_cases hf : (s.slot kind).phase.inFlight = true
  · have he : s.submit kind = (s, .ended (.submitted (.ok .ignored))) := if_pos hf
    rw [he]; exact .refused trivial
  · rw [Bool.not_eq_true] at hf
    have hb := Slot.begin_of_not_inFlight hf (s.request kind) s.tokens
    simp only [slot, request] at hf hb
    simp only [submit, hf, hb, Bool.false_eq_true, if_false]
    split
    · exact .refused trivial
    · split
      · exact .refused trivial
      · have ht : Phase.Turn (s.state.phase kind) .awaitingSignature := .begin hf
        have hc := (State.Change.slot s.state kind
          { s.slot kind with
            phase := .awaitingSignature
            request := some (s.request kind)
            token := some s.tokens.issued } ht).single
        refine .begun ⟨hf, ⟨[.phase kind .awaitingSignature], ?_, ?_⟩, ?_, fun k hk => ?_, ?_, ?_, ?_, ?_⟩
        · rw [commit_state]; exact hc
        · rw [commit_bus]
        · rw [commit_slot]; exact State.slot_withSlot s.state kind _
        · rw [commit_slot]; exact State.slot_withSlot_of_ne s.state hk _
        · rw [commit_state]; exact State.withSlot_position s.state kind _
        · rw [commit_traces]
        · rw [commit_tokens]
        · rw [commit_settings]

/-! ## Actions -/

/-- The action of a flow holds its slot. -/
structure Holds (s : Session) (f : Flow) (r : Request) (t : Token) : Prop where
  request : (s.slot r.kind).request = some r
  phase : (s.slot r.kind).phase = f.phase
  token : (s.slot r.kind).token = some t

theorem Holds.of_slot {s s' : Session} {f : Flow} {r : Request} {t : Token} (h : s.Holds f r t)
    (hs : s'.slot r.kind = s.slot r.kind) : s'.Holds f r t :=
  ⟨by rw [hs, h.request], by rw [hs, h.phase], by rw [hs, h.token]⟩

theorem Begins.holds {s s' : Session} {kind : Kind} (h : s.Begins kind s') :
    s'.Holds (.signing (s.request kind) s.tokens.issued) (s.request kind) s.tokens.issued := by
  have hs : s'.slot (s.request kind).kind = _ := h.slot
  exact ⟨by rw [hs], by rw [hs]; rfl, by rw [hs]⟩

/-- All that a segment of an action can come to when the action holds its slot. The last two are the
ends of a confirmed action; the very last happens only if the signature was for something else. -/
inductive Handling (s : Session) (r : Request) (t : Token) : Flow → Signal → Session × Progress → Prop
  | unmoved {f : Flow} {signal : Signal} (hc : s.tokens.isCancelled t = false) :
      Handling s r t f signal (s, .unmoved)
  | rejected {f : Flow} {signal : Signal} (reason : Rejection)
      (hc : s.tokens.isCancelled t = true → reason = .userCancelled) :
      Handling s r t f signal
        (s.commit (s.state.withSlot r.kind { s.slot r.kind with phase := .rejected reason, token := none })
          [.phase r.kind (.rejected reason)], .finished (.rejected reason))
  | signed {signed : Signed} (hc : s.tokens.isCancelled t = false) :
      Handling s r t (.signing r t) (.reply (.signature (.ok signed)))
        (s.commit (s.state.withSlot r.kind { s.slot r.kind with phase := .submitted signed.reference })
          [.phase r.kind (.submitted signed.reference)], .waiting (.confirming r signed t))
  | settled {signed : Signed} {signal : Signal} {st : State} {es : List Event} {p p' : Position}
      {receipt : Receipt} (hc : s.tokens.isCancelled t = false) (kind : signed.request.kind = r.kind)
      (absorbs : s.state.Absorbs signed p receipt p') (changes : State.Changes s.state es st)
      (position : st.position = some p')
      (slot : (st.form r.kind).slot = { s.slot r.kind with phase := .settled receipt, token := none })
      (other : ∀ k, k ≠ r.kind → (st.form k).slot = s.slot k) :
      Handling s r t (.confirming r signed t) signal (s.commit st es, .finished (.settled receipt))
  | stray {signed : Signed} {signal : Signal} (hc : s.tokens.isCancelled t = false)
      (h : ¬ s.state.Awaits signed) :
      Handling s r t (.confirming r signed t) signal (s, .finished (s.state.phase signed.request.kind))

/-- What a segment of an action leaves as it is: all that is not its own, the request in its slot, and
the token as long as the action is in flight. -/
structure Turns (s : Session) (kind : Kind) (s' : Session) : Prop where
  request : (s'.slot kind).request = (s.slot kind).request
  token : (s'.slot kind).phase.inFlight = true → (s'.slot kind).token = (s.slot kind).token
  other : ∀ k, k ≠ kind → s'.slot k = s.slot k
  traces : s'.traces = s.traces
  tokens : s'.tokens = s.tokens

theorem Turns.refl (s : Session) (kind : Kind) : s.Turns kind s :=
  ⟨rfl, fun _ => rfl, fun _ _ => rfl, rfl, rfl⟩

theorem Turns.commit_withSlot (s : Session) (kind : Kind) {slot : Slot}
    (h : slot.request = (s.slot kind).request)
    (ht : slot.phase.inFlight = true → slot.token = (s.slot kind).token) (es : List Event) :
    s.Turns kind (s.commit (s.state.withSlot kind slot) es) := by
  refine ⟨?_, ?_, fun k hk => ?_, commit_traces .., commit_tokens ..⟩
  · rw [commit_slot, State.slot_withSlot, h]
  · rw [commit_slot, State.slot_withSlot]; exact ht
  · rw [commit_slot, State.slot_withSlot_of_ne _ hk]; rfl

theorem Handling.turns {s : Session} {r : Request} {t : Token} {f : Flow} {signal : Signal}
    {x : Session × Progress} (h : Handling s r t f signal x) : s.Turns r.kind x.1 := by
  cases h with
  | unmoved _ => exact .refl s r.kind
  | rejected reason _ => exact .commit_withSlot s r.kind (by rfl) (fun h => by cases h) _
  | signed _ => exact .commit_withSlot s r.kind (by rfl) (fun _ => by rfl) _
  | settled _ _ _ _ _ slot other =>
    exact ⟨by rw [commit_slot, slot], fun h => (by rw [commit_slot, slot] at h; cases h),
      fun k hk => by rw [commit_slot, other k hk], commit_traces .., commit_tokens ..⟩
  | stray _ _ => exact .refl s r.kind

theorem rejectAction_eq (s : Session) {r : Request} (reason : Rejection)
    (hc : (s.slot r.kind).isCurrent r.trace = true) (hf : (s.slot r.kind).phase.inFlight = true) :
    s.rejectAction r reason =
      (s.commit (s.state.withSlot r.kind { s.slot r.kind with phase := .rejected reason, token := none })
        [.phase r.kind (.rejected reason)], .finished (.rejected reason)) := by
  have h : (s.state.form r.kind).slot.reject r.trace reason =
      .ok { s.slot r.kind with phase := .rejected reason, token := none } :=
        Slot.reject_eq_ok_iff.mpr ⟨hc, hf, rfl⟩
  simp [rejectAction, h, finish, State.phase, Progress.finished]

theorem settleAction_handling (s : Session) {r : Request} {t : Token} {signed : Signed} (now : Moment)
    (hc : s.tokens.isCancelled t = false)
    (own : s.state.Awaits signed → signed.request.kind = r.kind) {signal : Signal}
    (hr : ∀ reason, s.state.Awaits signed → Handling s r t (.confirming r signed t) signal
      (s.rejectAction signed.request reason)) :
    Handling s r t (.confirming r signed t) signal (s.settleAction signed now) := by
  unfold settleAction
  have h := s.state.settle_settling signed now
  cases hs : s.state.settle signed now with
  | stale st =>
    rw [hs] at h
    cases h with
    | stale h => exact .stray hc h
  | refused reason =>
    rw [hs] at h
    cases h with
    | refused h _ => exact hr reason h
  | settled st es =>
    rw [hs] at h
    cases h with
    | @settled _ _ p p' receipt h absorbs changes position slot other =>
      have hk := own h
      rw [hk] at slot other
      have hp : ((s.commit st es).state.form signed.request.kind).slot.phase = .settled receipt := by
        rw [commit_state, hk, slot]
      simp only [finish, State.phase, hp]
      exact .settled hc hk absorbs changes position slot other

theorem resume_handling (s : Session) {f : Flow} {r : Request} {t : Token} (ha : f.action? = some (r, t))
    (hh : s.Holds f r t)
    (own : ∀ signed, f = .confirming r signed t → s.state.Awaits signed →
      signed.request.kind = r.kind ∧ signed.request.trace = r.trace) (signal : Signal) (now : Moment) :
    Handling s r t f signal (s.resume f signal now) := by
  have hcur : (s.slot r.kind).isCurrent r.trace = true := Slot.isCurrent_iff.mpr ⟨r, hh.request, rfl⟩
  have hfl : (s.slot r.kind).phase.inFlight = true := by rw [hh.phase]; exact Flow.inFlight_phase ha
  -- every way out but a settlement goes through this rejection, which a held slot cannot refuse
  have reject : ∀ reason, (s.tokens.isCancelled t = true → reason = .userCancelled) →
      Handling s r t f signal (s.rejectAction r reason) := fun reason hc => by
    rw [s.rejectAction_eq reason hcur hfl]; exact .rejected reason hc
  cases f with
  | connecting _ _ => cases ha
  | reading _ => cases ha
  | refreshing _ => cases ha
  | signing r' t' =>
    cases ha
    simp only [resume, resumeSigning]
    split
    · exact reject _ fun _ => rfl
    · rename_i hc
      rw [Bool.not_eq_true] at hc
      have no : ∀ {P : Prop}, s.tokens.isCancelled t = true → P := fun h => by rw [hc] at h; cases h
      split
      · exact reject _ no
      · rename_i signed
        have h : (s.state.form r.kind).slot.sign r.trace signed.reference =
            .ok { s.slot r.kind with phase := .submitted signed.reference } :=
          Slot.sign_eq_ok_iff.mpr ⟨hcur, hh.phase, rfl⟩
        simp only [signAction, h]
        exact .signed hc
      · exact reject _ no
      · exact .unmoved hc
  | confirming r' signed t' =>
    cases ha
    simp only [resume, resumeConfirming]
    split
    · exact reject _ fun _ => rfl
    · rename_i hc
      rw [Bool.not_eq_true] at hc
      have no : ∀ {P : Prop}, s.tokens.isCancelled t = true → P := fun h => by rw [hc] at h; cases h
      split
      · exact reject _ no
      · refine s.settleAction_handling now hc (fun h => (own signed rfl h).1) fun reason h => ?_
        obtain ⟨hk, ht⟩ := own signed rfl h
        have he : s.rejectAction signed.request reason = s.rejectAction r reason := by
          simp only [rejectAction, hk, ht]
        rw [he]; exact reject reason no
      · exact reject _ no
      · exact .unmoved hc

/-! ## Any segment

Whether or not an action holds its slot, its segments change the state by changes that are told. -/

theorem rejectAction_evolves (s : Session) (r : Request) (reason : Rejection) :
    ∃ es, s.Evolves es (s.rejectAction r reason).1 := by
  simp only [rejectAction]
  cases h : (s.state.form r.kind).slot.reject r.trace reason with
  | error e => exact ⟨[], .still rfl rfl⟩
  | ok slot =>
    obtain ⟨_, hf, rfl⟩ := Slot.reject_eq_ok_iff.mp h
    have ht : Phase.Turn (s.state.phase r.kind) (.rejected reason) := .reject reason hf
    exact ⟨_, .commit (State.Change.slot s.state r.kind
      { s.slot r.kind with phase := .rejected reason, token := none } ht).single⟩

theorem signAction_evolves (s : Session) (r : Request) (signed : Signed) (t : Token) :
    ∃ es, s.Evolves es (s.signAction r signed t).1 := by
  simp only [signAction]
  cases h : (s.state.form r.kind).slot.sign r.trace signed.reference with
  | error e => exact ⟨[], .still rfl rfl⟩
  | ok slot =>
    obtain ⟨_, hf, rfl⟩ := Slot.sign_eq_ok_iff.mp h
    have ht : Phase.Turn (s.state.phase r.kind) (.submitted signed.reference) := by
      rw [State.phase, hf]; exact .sign _
    exact ⟨_, .commit (State.Change.slot s.state r.kind
      { s.slot r.kind with phase := .submitted signed.reference } ht).single⟩

theorem settleAction_evolves (s : Session) (signed : Signed) (now : Moment) :
    ∃ es, s.Evolves es (s.settleAction signed now).1 := by
  unfold settleAction
  have h := s.state.settle_settling signed now
  cases hs : s.state.settle signed now with
  | stale st =>
    rw [hs] at h
    cases h with
    | stale _ => exact ⟨[], .still rfl rfl⟩
  | refused reason => exact s.rejectAction_evolves _ _
  | settled st es =>
    rw [hs] at h
    cases h with
    | settled _ _ changes => exact ⟨_, .commit changes⟩

theorem resume_evolves (s : Session) (f : Flow) (signal : Signal) (now : Moment) :
    ∃ es, s.Evolves es (s.resume f signal now).1 := by
  rcases f.reads_or_not signal with ⟨snapshot, account, rfl, ha⟩ | hn
  · obtain ⟨progress, he, _⟩ := s.resume_snapshot ha (.ok snapshot) now
    rw [he]; exact (s.takeSnapshot_taking account snapshot).evolves
  · cases f with
    | connecting _ _ => exact (s.resume_passes rfl hn now).evolves
    | reading _ => exact (s.resume_passes rfl hn now).evolves
    | refreshing _ => exact (s.resume_passes rfl hn now).evolves
    | signing r t =>
      simp only [resume, resumeSigning]
      split
      · exact s.rejectAction_evolves _ _
      · split
        · exact s.rejectAction_evolves _ _
        · exact s.signAction_evolves _ _ _
        · exact s.rejectAction_evolves _ _
        · exact ⟨[], .still rfl rfl⟩
    | confirming r signed t =>
      simp only [resume, resumeConfirming]
      split
      · exact s.rejectAction_evolves _ _
      · split
        · exact s.rejectAction_evolves _ _
        · exact s.settleAction_evolves _ _
        · exact s.rejectAction_evolves _ _
        · exact ⟨[], .still rfl rfl⟩

theorem start_evolves (s : Session) (e : Errand) : ∃ es, s.Evolves es (s.start e).1 := by
  cases e with
  | connect => exact s.connect_passes.evolves
  | refresh => exact s.refresh_passes.evolves
  | submit kind =>
    have h := s.submit_submitting kind
    show ∃ es, s.Evolves es (s.submit kind).1
    cases hs : s.submit kind with
    | mk s' progress =>
      rw [hs] at h
      cases h with
      | refused _ => exact ⟨[], .still rfl rfl⟩
      | begun h => exact h.evolves

end Session

end YieldVault
