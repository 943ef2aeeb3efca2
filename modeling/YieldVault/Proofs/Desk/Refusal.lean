import YieldVault.Proofs.Desk.Reach
import YieldVault.Proofs.Position.Receipt

/-!
# Refusals

Whatever a session is asked for can be refused: there is nothing to cancel, the connection is in the wrong
state, a quote makes no position, an input is out of date, an action is in flight. The refusals are exactly
these, and none of them leaves anything behind, in the state or with those who watch.
-/

namespace YieldVault

/-! ## Being refused -/

def Answer.isRefusal : Answer → Bool
  | flag b => !b
  | result r => !r.isOk
  | verdict v => v.isNone
  | ticket _ => false

def Outcome.isRefusal : Outcome → Bool
  | connected r => !r.isOk
  | refreshed r => !r.isOk
  | submitted (.error _) => true
  | submitted (.ok .ignored) => true
  | submitted (.ok (.finished _)) => false

def Progress.isRefusal : Progress → Bool
  | ended o => o.isRefusal
  | _ => false

/-- The segment ends in a refusal. The reading of the chain that a connection attempt ends with is refused
like any other, though the attempt goes well. -/
def Session.refuses (s : Session) (f : Flow) (signal : Signal) (now : Moment) : Bool :=
  match f, signal with
  | .reading account, .reply (.snapshot result) => !(s.takeSnapshot account result).2.isOk
  | _, _ => (s.resume f signal now).2.isRefusal

def Desk.refuses (d : Desk) : Desk.Step → Bool
  | .act a => (d.session.act a).2.isRefusal
  | .start e => (d.session.start e).2.isRefusal
  | .wake i signal now => (d.flow? i).any fun f => d.session.refuses f signal now
  | .watch _ => false

/-! ## Reasons -/

def Action.Declined (s : State) : Action → Prop
  | cancelConnect => s.connection ≠ .connecting
  | acknowledgeConnection => ∀ reason, s.connection ≠ .failed reason
  | disconnect => s.connection.isConnected = false
  | refreshQuote q => q.Unfit
  | completeInput t => (s.form t.kind).generation ≠ t.generation
  | cancel kind => (s.phase kind).inFlight = false
  | acknowledge kind => (s.phase kind).inFlight = true
  | _ => False

def Errand.Declined (s : State) : Errand → Prop
  | connect => s.connection = .connecting ∨ s.connection.isConnected = true
  | refresh => s.connection.isConnected = false
  | submit kind => (s.phase kind).inFlight = true ∨ s.connection.isConnected = false ∨
      (s.verdictFor kind (s.form kind).input).isValid = false

/-- The chain could not be read, was read for an account that is gone, or has an unfit quote. -/
def Flow.Declined (s : State) (f : Flow) : Signal → Prop
  | .reply (.snapshot result) => ∃ account, f.account? = some account ∧
      (s.connection.address? ≠ some account ∨ ∀ snapshot, result = .ok snapshot → snapshot.quote.Unfit)
  | _ => False

def Desk.Declined (d : Desk) : Desk.Step → Prop
  | .act a => a.Declined d.session.state
  | .start e => e.Declined d.session.state
  | .wake i signal _ => ∃ f, d.flow? i = some f ∧ f.Declined d.session.state signal
  | .watch _ => False

/-! ## Quotes -/

namespace State

theorem replaceQuote_eq_error_iff {s : State} {q : Quote} : (∃ e, s.replaceQuote q = .error e) ↔ q.Unfit := by
  rw [← Position.ofQuote_eq_error_iff]
  unfold replaceQuote
  cases Position.ofQuote q with
  | error e => simp [bind, Except.bind]
  | ok p => simp [bind, Except.bind, pure, Except.pure]

theorem applySnapshot_eq_error_iff {s : State} {snapshot : Snapshot} :
    (∃ e, s.applySnapshot snapshot = .error e) ↔ snapshot.quote.Unfit := by
  rw [← replaceQuote_eq_error_iff (s := s)]
  unfold applySnapshot
  cases s.replaceQuote snapshot.quote with
  | error e => simp [bind, Except.bind]
  | ok x =>
    simp only [bind, Except.bind, pure, Except.pure]
    split <;> simp

end State

namespace Session

/-- The refusal has the stated reason and leaves the session as it was. -/
structure Refusal (s : Session) (refused : Bool) (reason : Prop) (s' : Session) : Prop where
  reason_iff : refused = true ↔ reason
  unchanged : refused = true → s' = s

theorem Refusal.refused {s : Session} {reason : Prop} (h : reason) : s.Refusal true reason s :=
  ⟨iff_of_true rfl h, fun _ => rfl⟩

theorem Refusal.granted {s s' : Session} {reason : Prop} (h : ¬ reason) : s.Refusal false reason s' :=
  ⟨iff_of_false (by simp) h, fun hf => by cases hf⟩

theorem attempt_refusal {ρ : Type} (s : Session) (toFault : ρ → Fault) (r : Except ρ (State × List Event)) :
    s.Refusal (!(s.attempt toFault r).2.isOk) (∃ e, r = .error e) (s.attempt toFault r).1 := by
  cases r with
  | error e => exact .refused ⟨e, rfl⟩
  | ok x => exact .granted (by simp)

theorem moveConnection_refusal (s : Session) (m : Connection.Move) :
    s.Refusal (!(s.moveConnection m).2.isOk) (∃ e, s.state.connection.step m = .error e)
      (s.moveConnection m).1 := by
  unfold moveConnection
  cases s.state.connection.step m with
  | error e => exact .refused ⟨e, rfl⟩
  | ok c => exact .granted (by simp)

theorem disconnect_refusal (s : Session) : s.Refusal (!s.disconnect.2.isOk)
    (∃ e, s.state.connection.step .disconnect = .error e) s.disconnect.1 := by
  have h := s.moveConnection_refusal .disconnect
  rw [disconnect_eq]
  split
  · rename_i hr
    rw [hr] at h
    exact ⟨h.reason_iff, fun hf => by cases hf⟩
  · rename_i hr
    rw [hr] at h
    exact h

theorem cancelConnect_refusal (s : Session) (hc : s.state.Cancellable) :
    s.Refusal (!s.cancelConnect.2) (s.state.connection ≠ .connecting) s.cancelConnect.1 := by
  unfold cancelConnect
  split
  · rename_i ht hn
    exact .granted (not_not.mpr hn)
  · rename_i hno
    refine .refused fun hn => ?_
    obtain ⟨t, ht⟩ := Option.isSome_iff_exists.mp (hc.attempt.mpr hn)
    exact hno t ht hn

theorem cancel_refusal (s : Session) (hc : s.state.Cancellable) (kind : Kind) :
    s.Refusal (!(s.cancel kind).2) ((s.state.phase kind).inFlight = false) (s.cancel kind).1 := by
  unfold cancel
  by_cases hf : (s.state.form kind).slot.phase.inFlight = true
  · obtain ⟨t, ht⟩ := Option.isSome_iff_exists.mp (hc.action kind hf)
    rw [Slot.cancel_of_inFlight hf ht]
    exact .granted (by simp [State.phase, hf])
  · rw [Slot.cancel_of_not_inFlight (by simpa using hf)]
    exact .refused (by simpa [State.phase] using hf)

theorem acknowledge_refusal (s : Session) (kind : Kind) :
    s.Refusal (!(s.acknowledge kind).2.isOk) ((s.state.phase kind).inFlight = true)
      (s.acknowledge kind).1 := by
  unfold acknowledge Slot.acknowledge
  by_cases hf : (s.state.form kind).slot.phase.inFlight = true
  · simp only [if_pos hf]
    exact .refused hf
  · simp only [if_neg hf]
    exact .granted hf

theorem completeInput_refusal (s : Session) (t : Ticket) :
    s.Refusal (s.completeInput t).2.isNone ((s.state.form t.kind).generation ≠ t.generation)
      (s.completeInput t).1 := by
  unfold completeInput State.completeInput
  by_cases hg : (s.state.form t.kind).generation = t.generation
  · simp only [if_pos hg]
    exact .granted (not_not.mpr hg)
  · simp only [if_neg hg]
    exact .refused hg

theorem act_refusal (s : Session) (hc : s.state.Cancellable) (a : Action) :
    s.Refusal (s.act a).2.isRefusal (a.Declined s.state) (s.act a).1 := by
  cases a with
  | cancelConnect => exact s.cancelConnect_refusal hc
  | acknowledgeConnection =>
    have h := s.moveConnection_refusal .acknowledge
    refine ⟨h.reason_iff.trans ?_, h.unchanged⟩
    unfold Action.Declined
    cases s.state.connection <;> simp [Connection.step]
  | disconnect =>
    have h := s.disconnect_refusal
    refine ⟨h.reason_iff.trans ?_, h.unchanged⟩
    unfold Action.Declined
    cases s.state.connection <;> simp [Connection.step, Connection.isConnected, Connection.address?]
  | refreshQuote q =>
    have h := s.attempt_refusal Position.Refusal.toFault (s.state.replaceQuote q)
    exact ⟨h.reason_iff.trans State.replaceQuote_eq_error_iff, h.unchanged⟩
  | setInput kind raw => exact .granted id
  | beginInput kind raw => exact .granted id
  | completeInput t => exact s.completeInput_refusal t
  | fillMax kind => exact .granted id
  | cancel kind => exact s.cancel_refusal hc kind
  | acknowledge kind => exact s.acknowledge_refusal kind

/-! ## Flows -/

theorem submit_refusal (s : Session) (kind : Kind) :
    s.Refusal (s.submit kind).2.isRefusal ((Errand.submit kind).Declined s.state) (s.submit kind).1 := by
  unfold submit
  by_cases hf : (s.state.form kind).slot.phase.inFlight = true
  · simp only [if_pos hf]
    exact .refused (.inl hf)
  · have hb := Slot.begin_of_not_inFlight (Bool.not_eq_true _ ▸ hf) (s.request kind) s.tokens
    simp only [request] at hb
    simp only [if_neg hf, hb]
    by_cases hc : s.state.connection.isConnected = true
    · simp only [hc, Bool.not_true, Bool.false_eq_true, if_false]
      by_cases hv : (s.state.verdictFor kind (s.state.form kind).input).isValid = true
      · simp only [hv, Bool.not_true, Bool.false_eq_true, if_false]
        refine .granted ?_
        rintro (h | h | h)
        · exact hf h
        · rw [hc] at h; cases h
        · rw [hv] at h; cases h
      · rw [Bool.not_eq_true] at hv
        simp only [hv, Bool.not_false, if_true]
        exact .refused (.inr (.inr hv))
    · rw [Bool.not_eq_true] at hc
      simp only [hc, Bool.not_false, if_true]
      exact .refused (.inr (.inl hc))

theorem start_refusal (s : Session) (e : Errand) :
    s.Refusal (s.start e).2.isRefusal (e.Declined s.state) (s.start e).1 := by
  cases e with
  | connect =>
    simp only [start, connect, Errand.Declined]
    cases hc : s.state.connection with
    | disconnected => exact .granted (by simp [Connection.isConnected, Connection.address?])
    | failed reason => exact .granted (by simp [Connection.isConnected, Connection.address?])
    | connecting => exact .refused (.inl rfl)
    | connected address => exact .refused (.inr rfl)
  | refresh =>
    simp only [start, refresh, Errand.Declined, Connection.isConnected]
    cases s.state.connection.address? with
    | some account => exact .granted (by simp)
    | none => exact .refused rfl
  | submit kind => exact s.submit_refusal kind

theorem takeSnapshot_refusal (s : Session) (account : String) (result : Except Fault Snapshot) :
    s.Refusal (!(s.takeSnapshot account result).2.isOk)
      (s.state.connection.address? ≠ some account ∨ ∀ snapshot, result = .ok snapshot → snapshot.quote.Unfit)
      (s.takeSnapshot account result).1 := by
  unfold takeSnapshot
  cases result with
  | error e => exact .refused (.inr fun _ h => by cases h)
  | ok snapshot =>
    by_cases ha : s.state.connection.address? = some account
    · have h := s.attempt_refusal Position.Refusal.toFault (s.state.applySnapshot snapshot)
      simp only [if_pos ha]
      refine ⟨h.reason_iff.trans (State.applySnapshot_eq_error_iff.trans ⟨fun hq => .inr ?_, ?_⟩),
        h.unchanged⟩
      · rintro _ ⟨⟩
        exact hq
      · rintro (hn | hq)
        · exact absurd ha hn
        · exact hq snapshot rfl
    · simp only [if_neg ha]
      exact .refused (.inl ha)

theorem OfAction.isRefusal {progress : Progress} (h : OfAction progress) : progress.isRefusal = false := by
  cases h <;> rfl

theorem connecting_not_refused (s : Session) (h : s.state.connection = .connecting)
    (stage : Authorization) (t : Token) (signal : Signal) :
    (s.resumeConnecting stage t signal).2.isRefusal = false := by
  have ha := s.resumeConnecting_attempt stage t signal
  revert ha
  generalize s.resumeConnecting stage t signal = x
  intro ha
  cases ha with
  | unmoved => rfl
  | asks next => rfl
  | enters hm =>
    obtain ⟨c, he, _⟩ := Connection.step_entry_connecting hm
    unfold enter
    simp only [h, he]
    split <;> rfl

theorem not_declined_of_account?_eq_none {s : State} {f : Flow} (h : f.account? = none) (signal : Signal) :
    ¬ f.Declined s signal := by
  intro hd
  unfold Flow.Declined at hd
  split at hd
  · obtain ⟨account, ha, _⟩ := hd
    rw [h] at ha
    cases ha
  · exact hd

theorem declined_iff_of_account {s : State} {f : Flow} {account : String} (h : f.account? = some account)
    (result : Except Fault Snapshot) : f.Declined s (.reply (.snapshot result)) ↔
      s.connection.address? ≠ some account ∨ ∀ snapshot, result = .ok snapshot → snapshot.quote.Unfit := by
  constructor
  · rintro ⟨account', ha, hd⟩
    rw [h] at ha
    cases ha
    exact hd
  · exact fun hd => ⟨account, h, hd⟩

theorem read_refusal (s : Session) {f : Flow} {account : String} (h : f.account? = some account)
    (signal : Signal) (now : Moment) :
    s.Refusal (s.refuses f signal now) (f.Declined s.state signal) (s.resume f signal now).1 := by
  cases f with
  | connecting _ _ => cases h
  | signing _ _ => cases h
  | confirming _ _ _ => cases h
  | reading account' =>
    cases h
    cases signal with
    | reply r =>
      cases r with
      | snapshot result =>
        have ht := s.takeSnapshot_refusal account result
        exact ⟨ht.reason_iff.trans (declined_iff_of_account rfl result).symm, ht.unchanged⟩
      | _ => exact .granted id
    | _ => exact .granted id
  | refreshing account' =>
    cases h
    cases signal with
    | reply r =>
      cases r with
      | snapshot result =>
        have ht := s.takeSnapshot_refusal account result
        exact ⟨ht.reason_iff.trans (declined_iff_of_account rfl result).symm, ht.unchanged⟩
      | _ => exact .granted id
    | _ => exact .granted id

theorem resume_refusal (s : Session) {f : Flow}
    (hc : ∀ stage t, f = .connecting stage t → s.state.connection = .connecting) (signal : Signal)
    (now : Moment) :
    s.Refusal (s.refuses f signal now) (f.Declined s.state signal) (s.resume f signal now).1 := by
  cases f with
  | connecting stage t =>
    have hr : s.refuses (.connecting stage t) signal now = false :=
      s.connecting_not_refused (hc stage t rfl) stage t signal
    rw [hr]
    exact .granted (not_declined_of_account?_eq_none rfl signal)
  | reading account => exact s.read_refusal rfl signal now
  | refreshing account => exact s.read_refusal rfl signal now
  | signing r t =>
    have hr : s.refuses (.signing r t) signal now = false :=
      (s.resume_acting rfl signal now).ofAction.isRefusal
    rw [hr]
    exact .granted (not_declined_of_account?_eq_none rfl signal)
  | confirming r signed t =>
    have hr : s.refuses (.confirming r signed t) signal now = false :=
      (s.resume_acting rfl signal now).ofAction.isRefusal
    rw [hr]
    exact .granted (not_declined_of_account?_eq_none rfl signal)

end Session

namespace Desk

/-- What is refused is refused for a reason that the state gives, and changes nothing in the session: not its
state, not its tokens, and nothing that those who watch could notice. -/
theorem refusals_leave_no_trace {settings : Settings} {s : Session} (hs : Session.open? settings = .ok s)
    (steps : List Step) (step : Step) :
    (((ofSession s).run steps).refuses step = true ↔ ((ofSession s).run steps).Declined step) ∧
      (((ofSession s).run steps).refuses step = true →
        (((ofSession s).run steps).step step).session = ((ofSession s).run steps).session) := by
  have hc := run_cancellable (Session.open?_eq hs).1 steps
  have ha := run_attempting s steps
  generalize (ofSession s).run steps = d at hc ha
  cases step with
  | act a =>
    have h := d.session.act_refusal hc a
    exact ⟨h.reason_iff, h.unchanged⟩
  | start e =>
    have h := d.session.start_refusal e
    refine ⟨h.reason_iff, fun hr => ?_⟩
    show (d.start e).session = d.session
    unfold start
    rw [put_session]
    exact h.unchanged hr
  | wake i signal now =>
    show ((d.flow? i).any _ = true ↔ ∃ f, d.flow? i = some f ∧ _) ∧
      ((d.flow? i).any _ = true → (d.wake i signal now).session = _)
    cases hf : d.flow? i with
    | none => simp
    | some f =>
      have h := d.session.resume_refusal (f := f) (fun stage t he => by
        subst he
        exact congrArg Prod.fst (ha.connecting (i := i) (t := t) (by simp [attempt?, hf]))) signal now
      rw [wake_eq hf, put_session]
      simpa using ⟨h.reason_iff, h.unchanged⟩
  | watch w => exact ⟨by simp [refuses, Declined], fun h => by cases h⟩

/-- Some of what is refused in the middle of a visit. -/
def visitRefusals : List Step :=
  [.start .connect, .start (.submit .deposit), .act .cancelConnect, .act .acknowledgeConnection,
   .act (.acknowledge .withdraw), .act (.completeInput ⟨.deposit, 1⟩),
   .act (.refreshQuote { Simulation.sampleQuote with capUsed := Simulation.whole 1000001 })]

theorem refusals_leave_no_trace_visit :
    (visitRefusals.all fun step => ((ofSession newSession).run visit).refuses step) = true ∧
      ∀ step ∈ visitRefusals,
        (((ofSession newSession).run visit).step step).session =
          ((ofSession newSession).run visit).session := by
  have refused : (visitRefusals.all fun step => ((ofSession newSession).run visit).refuses step) = true := by
    decide +kernel
  exact ⟨refused, fun step hm =>
    (refusals_leave_no_trace (show Session.open? .standard = .ok newSession from rfl) visit step).2
      (List.all_eq_true.mp refused step hm)⟩

end Desk

end YieldVault
