import YieldVault.Proofs.Desk.Provenance
import YieldVault.Proofs.Simulation.Waiting

/-!
# The waits of an action

An action waits twice, for its signature and for its confirmation. Each time an answer, a limit and a
cancellation race: a cancellation wins as soon as it is there, a limit wins over an answer that comes later,
and an answer that comes exactly at the limit wins over it. Each step of the simulation that ends such a wait
either ends the action or takes it from its signature to its confirmation.
-/

namespace YieldVault

/-! ## The action in the session -/

theorem Verdict.amount_of_isValid {kind : Kind} {entry : Entry} {p : Position}
    (h : (judge kind entry p).isValid = true) :
    ∃ amount shares, entry = .value amount ∧ amount.isPositive = true ∧ p.sharesFor amount = some shares := by
  unfold judge at h
  split at h
  · cases h
  · rename_i amount
    split at h
    · rename_i hpos
      split at h
      · cases h
      · rename_i shares hs
        exact ⟨amount, shares, rfl, hpos, hs⟩
    · cases h

/-- Why an action is rejected whose signature is late. -/
def Settings.lateSignature (settings : Settings) : Rejection :=
  .networkError (Session.overdue "signature timed out after " settings.signatureLimit)

/-- Why an action is rejected whose confirmation is late. -/
def Settings.lateConfirmation (settings : Settings) : Rejection :=
  .networkError (Session.overdue "confirmation timed out after " settings.confirmationLimit)

/-- Why an action is rejected whose answer is late. -/
def Flow.lateness (settings : Settings) : Flow → Rejection
  | signing .. => settings.lateSignature
  | _ => settings.lateConfirmation

/-- The answer to an action that fails. -/
def Flow.refusal (reason : Rejection) : Flow → Reply
  | signing .. => .signature (.error reason)
  | _ => .confirmation (.error reason)

/-- What an answer comes to that nobody cancels. One that comes exactly at the limit is not late. -/
def answered (delay limit : Nat) (late : Rejection) (failure : Option Rejection) : Except Rejection Unit :=
  if limit < delay then .error late else failure.elim (.ok ()) .error

theorem answered_eq_ok {delay limit : Nat} {late : Rejection} {failure : Option Rejection}
    (h : answered delay limit late failure = .ok ()) : delay ≤ limit ∧ failure = none := by
  unfold answered at h
  split at h
  · cases h
  · rename_i hle
    cases failure with
    | none => exact ⟨Nat.not_lt.mp hle, rfl⟩
    | some reason => cases h

/-- What an action comes to that was confirmed, with the position then. -/
def Position.conclude (p : Position) (receipt : Receipt) : Phase × Position :=
  match p.apply receipt with
  | .ok p' => (.settled receipt, p')
  | .error reason => (.rejected reason, p)

/-- What an action comes to that was rejected or confirmed, with the position then. -/
def Position.result (p : Position) (receipt : Receipt) : Except Rejection Unit → Phase × Position
  | .error reason => (.rejected reason, p)
  | .ok () => p.conclude receipt

namespace Session

variable {s : Session} {kind : Kind} {f : Flow} {r : Request} {t : Token} {p : Position}

theorem begins_of_submit (h : (s.submit kind).2.isWaiting = true) :
    ∃ s', s.submit kind = (s', .waiting (.signing (s.request kind) s.tokens.issued)) ∧ s.Begins kind s' := by
  have hp := s.submit_progress kind
  have hs := s.submit_submitting kind
  generalize s.submit kind = x at h hp hs
  cases hs with
  | @refused progress plain =>
    rcases hp with ⟨_, rfl⟩ | ⟨_, _, rfl⟩
    · cases h
    · cases plain
  | begun hb => exact ⟨_, rfl, hb⟩

theorem amount_of_submit (h : (s.submit kind).2.isWaiting = true) :
    ∃ p amount shares, s.state.position = some p ∧ Entry.ofText (s.state.form kind).input = .value amount ∧
      (s.request kind).amount = .ok amount ∧ p.sharesFor amount = some shares := by
  have valid : (s.state.verdictFor kind (s.state.form kind).input).isValid = true := by
    unfold submit at h
    dsimp only at h
    split at h
    · cases h
    · split at h
      · cases h
      · split at h
        · cases h
        · rename_i hv
          simpa using hv
  cases hp : s.state.position with
  | none => exact absurd hp (position_of_submit h)
  | some p =>
    unfold State.verdictFor at valid
    rw [hp] at valid
    obtain ⟨amount, shares, he, hpos, hs⟩ := Verdict.amount_of_isValid valid
    refine ⟨p, amount, shares, rfl, he, ?_, hs⟩
    simp [request, Request.amount, he, Entry.amount?, Option.filter, hpos]

/-- The segment ends the action of a kind, with the position that there is then. -/
structure Ends (s : Session) (kind : Kind) (phase : Phase) (p : Position) (x : Session × Progress) :
    Prop where
  finished : phase.inFlight = false
  progress : x.2 = .finished phase
  phase_eq : x.1.state.phase kind = phase
  position : x.1.state.position = some p
  tokens : x.1.tokens = s.tokens

theorem Holds.current (h : s.Holds f r t) : (s.slot r.kind).isCurrent r.trace = true :=
  Slot.isCurrent_iff.mpr ⟨r, h.request, rfl⟩

theorem Holds.inFlight (h : s.Holds f r t) (ha : f.action? = some (r, t)) :
    (s.slot r.kind).phase.inFlight = true := by
  rw [h.phase]
  exact Flow.inFlight_phase ha

theorem Holds.rejects (h : s.Holds f r t) (ha : f.action? = some (r, t)) (hp : s.state.position = some p)
    (reason : Rejection) : s.Ends r.kind (.rejected reason) p (s.rejectAction r reason) := by
  rw [s.rejectAction_eq reason h.current (h.inFlight ha)]
  refine ⟨rfl, rfl, ?_, ?_, commit_tokens ..⟩
  · rw [commit_state, State.phase, State.slot_withSlot]
  · rw [commit_state, State.withSlot_position, hp]

theorem resume_poked (ha : f.action? = some (r, t)) (hc : s.tokens.isCancelled t = true) (signal : Signal)
    (now : Moment) : s.resume f signal now = s.rejectAction r .userCancelled := by
  cases f with
  | signing r' t' =>
    cases ha
    simp only [resume, resumeSigning, if_pos hc]
  | confirming r' signed t' =>
    cases ha
    simp only [resume, resumeConfirming, if_pos hc]
  | _ => cases ha

theorem fold_eq (signed : Signed) (now : Moment) (hp : s.state.position = some p) {amount shares : Amount}
    (ha : signed.request.amount = .ok amount) (hs : p.sharesFor amount = some shares) :
    s.state.fold signed now =
      (p.apply (signed.receipt amount shares now)).map (signed.receipt amount shares now, ·) := by
  simp only [State.fold, ha, hp, hs, bind, Except.bind]
  cases p.apply (signed.receipt amount shares now) <;> rfl

/-- The action is folded into the position as it is now, or rejected for the reason that the
position gives. -/
theorem Holds.settles {reference : String} (h : s.Holds (.confirming r ⟨reference, r⟩ t) r t)
    (hp : s.state.position = some p) {amount shares : Amount} (ha : r.amount = .ok amount)
    (hs : p.sharesFor amount = some shares) (now : Moment) :
    s.Ends r.kind (p.conclude ⟨r.kind, amount, shares, reference, now⟩).1
      (p.conclude ⟨r.kind, amount, shares, reference, now⟩).2 (s.settleAction ⟨reference, r⟩ now) := by
  have awaits : s.state.Awaits ⟨reference, r⟩ := by
    refine ⟨h.current, ?_⟩
    show Slot.isSubmitted (s.slot r.kind).phase = true
    rw [h.phase]
    rfl
  have folded := fold_eq ⟨reference, r⟩ now hp ha hs
  rw [show Signed.receipt ⟨reference, r⟩ amount shares now =
    ⟨r.kind, amount, shares, reference, now⟩ from rfl] at folded
  unfold Position.conclude settleAction
  cases hap : p.apply ⟨r.kind, amount, shares, reference, now⟩ with
  | error reason =>
    rw [hap] at folded
    rw [State.settle_eq_of_fold_error awaits folded]
    exact h.rejects rfl hp reason
  | ok p' =>
    rw [hap] at folded
    rw [State.settle_eq_of_fold awaits folded (Slot.settle_eq_ok_iff.mpr ⟨awaits.1, awaits.2, rfl⟩)]
    refine ⟨rfl, ?_, ?_, ?_, ?_⟩
    · simp [finish, Progress.finished, State.phase, State.cleared_slot]
    · simp [finish, State.phase, State.cleared_slot]
    · simp [finish, State.cleared_position]
    · simp [finish]

theorem resume_timeUp (ha : f.action? = some (r, t)) (hc : s.tokens.isCancelled t = false) (now : Moment) :
    s.resume f .timeUp now = s.rejectAction r (f.lateness s.settings) := by
  cases f with
  | signing r' t' =>
    cases ha
    simp [resume, resumeSigning, hc, Flow.lateness, Settings.lateSignature]
  | confirming r' signed t' =>
    cases ha
    simp [resume, resumeConfirming, hc, Flow.lateness, Settings.lateConfirmation]
  | _ => cases ha

theorem resume_refused (ha : f.action? = some (r, t)) (hc : s.tokens.isCancelled t = false)
    (reason : Rejection) (now : Moment) :
    s.resume f (.reply (f.refusal reason)) now = s.rejectAction r reason := by
  cases f with
  | signing r' t' =>
    cases ha
    simp [resume, resumeSigning, hc, Flow.refusal]
  | confirming r' signed t' =>
    cases ha
    simp [resume, resumeConfirming, hc, Flow.refusal]
  | _ => cases ha

theorem Holds.signs (h : s.Holds (.signing r t) r t) (hc : s.tokens.isCancelled t = false)
    (reference : String) (now : Moment) :
    ∃ s', s.resume (.signing r t) (.reply (.signature (.ok ⟨reference, r⟩))) now =
        (s', .waiting (.confirming r ⟨reference, r⟩ t)) ∧
      s'.Holds (.confirming r ⟨reference, r⟩ t) r t ∧ s'.state.position = s.state.position ∧
        s'.tokens = s.tokens ∧
      s'.settings = s.settings := by
  have hs : (s.state.form r.kind).slot.sign r.trace reference =
      .ok { s.slot r.kind with phase := .submitted reference } :=
        Slot.sign_eq_ok_iff.mpr ⟨h.current, h.phase, rfl⟩
  refine ⟨_, by simp only [resume, resumeSigning, hc, signAction, hs]; rfl, ⟨?_, ?_, ?_⟩, ?_,
    commit_tokens .., commit_settings ..⟩
  · rw [commit_slot, State.slot_withSlot]
    exact h.request
  · rw [commit_slot, State.slot_withSlot]
    rfl
  · rw [commit_slot, State.slot_withSlot]
    exact h.token
  · rw [commit_state, State.withSlot_position]

end Session

namespace Simulation

/-! ## The action in the simulation -/

section Ask

variable {s : Simulation} {i : FlowId} {r : Request} {signed : Signed} {t : Token} {S C : Nat}
  {eS eC : Option Rejection}

theorem ask_signing (hf : s.desk.flow? i = some (.signing r t))
    (hw : s.world.settlement = .simulated S C eS eC) (before : Option Nat) :
    s.ask i before =
      { s with
        waits := s.waits ++ [⟨i, ⟨s.clock + min S Wait.horizon,
          some (s.clock + min s.settings.signatureLimit Wait.horizon)⟩,
          eS.elim (.signature r) fun reason => .reply (.signature (.error reason))⟩] } := by
  have answer : s.world.ask (.signature r) =
      (⟨S, eS.elim (.signature r) fun reason => .reply (.signature (.error reason))⟩, s.world) := by
    unfold World.ask
    simp only [hw, Settlement.sign]
    rw [← hw]
  rw [ask_eq hf, show Flow.call s.settings.chain (.signing r t) = .signature r from rfl, answer]
  rfl

theorem ask_confirming (hf : s.desk.flow? i = some (.confirming r signed t))
    (hw : s.world.settlement = .simulated S C eS eC) (before : Option Nat) :
    s.ask i before =
      { s with
        waits := s.waits ++ [⟨i, ⟨s.clock + min C Wait.horizon,
          some (s.clock + min s.settings.confirmationLimit Wait.horizon)⟩,
          .reply (.confirmation (eC.elim (.ok ()) .error))⟩] } := by
  have answer : s.world.ask (.confirmation signed) =
      (⟨C, .reply (.confirmation (eC.elim (.ok ()) .error))⟩, s.world) := by
    unfold World.ask
    simp only [hw, Settlement.confirm]
    rw [← hw]
    rfl
  rw [ask_eq hf, show Flow.call s.settings.chain (.confirming r signed t) =
    .confirmation signed from rfl, answer]
  rfl

end Ask

/-- An action under way, and those who wait for longer. -/
structure Pursuit where
  flow : FlowId
  request : Request
  token : Token
  position : Position
  settings : Settings
  others : List Waiting
  last : Nat

variable {s : Simulation} {a : Pursuit} {f : Flow} {wait : Wait} {promise : Promise}

/-- The action waits for an answer. -/
structure Underway (s : Simulation) (a : Pursuit) (f : Flow) (wait : Wait) (promise : Promise) : Prop
    extends s.Poised a.flow f a.token wait promise a.last a.others where
  numbered : s.desk.Numbered
  action : f.action? = some (a.request, a.token)
  holds : s.desk.session.Holds f a.request a.token
  position : s.desk.session.state.position = some a.position
  settings : s.desk.session.settings = a.settings

structure Done (s : Simulation) (a : Pursuit) (result : Phase × Position) : Prop where
  outcome : s.desk.outcome? a.flow = some (.submitted (.ok (.finished result.1)))
  phase : s.desk.session.state.phase a.request.kind = result.1
  finished : result.1.inFlight = false
  position : s.desk.session.state.position = some result.2
  waits : s.waits = a.others
  calm : s.Calm a.flow a.token a.last a.others
  clock_le : s.clock ≤ a.last

theorem Underway.done (h : s.Underway a f wait promise) {e : Wait.End} {signal : Signal} {world : World}
    (hsig : s.signal ⟨a.flow, wait, promise⟩ e = (signal, world)) {phase : Phase} {p : Position}
    (he : s.desk.session.Ends a.request.kind phase p (s.desk.session.resume f signal (s.moment s.clock)))
    (hclock : s.clock ≤ a.last) : (s.finishWait ⟨a.flow, wait, promise⟩ e).Done a (phase, p) := by
  obtain ⟨session, progress, hr⟩ : ∃ session progress,
      s.desk.session.resume f signal (s.moment s.clock) = (session, progress) := ⟨_, _, rfl⟩
  rw [hr] at he
  have hp : progress = .ended (.submitted (.ok (.finished phase))) := he.progress
  subst hp
  rw [h.finishWait_ended hsig hr]
  refine ⟨h.numbered.outcome?_ended h.flow _, ?_, he.finished, ?_, rfl, h.calm.of_desk ?_ ?_, hclock⟩
  · rw [Desk.put_session]
    exact he.phase_eq
  · rw [Desk.put_session]
    exact he.position
  · exact fun j hj => Desk.flow?_put_of_ne _ hj _
  · rw [Desk.put_session]
    exact he.tokens

theorem Underway.later (h : s.Underway a f wait promise) (clock : Nat) :
    ({ s with clock := clock } : Simulation).Underway a f wait promise :=
  ⟨⟨h.flow, h.token, h.waits, ⟨h.calm.apart, h.calm.late, h.calm.free⟩, h.wake_le⟩, h.numbered,
    h.action, h.holds, h.position, h.settings⟩

/-- A cancelled action is rejected before anything else happens. -/
theorem Underway.step_cancelled (h : s.Underway a f wait promise)
    (hc : s.desk.session.tokens.isCancelled a.token = true) (hclock : s.clock ≤ a.last) (bound : Option Nat) :
    ∃ s', s.step? bound = some s' ∧ s'.Done a (.rejected .userCancelled, a.position) := by
  refine ⟨_, h.step?_cancelled hc bound, h.done rfl ?_ hclock⟩
  rw [Session.resume_poked h.action hc]
  exact h.holds.rejects h.action h.position _

section Race

variable {c delay limit : Nat} {bound : Option Nat} (hc : s.desk.session.tokens.isCancelled a.token = false)
  (hclock : s.clock ≤ c + min delay limit) (hb : bound.all (c + min delay limit ≤ ·))

include hc hclock hb

/-- The wait of an action that nobody cancels ends when the answer comes or time is up, whichever is first. -/
theorem Underway.step_due (h : s.Underway a f ⟨c + delay, some (c + limit)⟩ promise) :
    s.step? bound =
      some
        ({ s with clock := c + min delay limit }.finishWait ⟨a.flow, ⟨c + delay, some (c + limit)⟩, promise⟩
        (if delay ≤ limit then .completed else .timedOut)) := by
  rw [← Wait.wake_add] at hclock hb
  rw [h.step?_due hc hclock hb, Wait.wake_add, Wait.look_wake_add]
  rfl

/-- An answer that is late loses. -/
theorem Underway.step_late (h : s.Underway a f ⟨c + delay, some (c + limit)⟩ promise) (hlt : limit < delay) :
    ∃ s', s.step? bound = some s' ∧ s'.Done a (.rejected (f.lateness a.settings), a.position) := by
  refine ⟨_, h.step_due hc hclock hb, ?_⟩
  rw [if_neg (Nat.not_le.mpr hlt)]
  refine (h.later _).done rfl ?_ (Wait.wake_add .. ▸ h.wake_le)
  rw [Session.resume_timeUp h.action hc, ← h.settings]
  exact h.holds.rejects h.action h.position _

theorem Underway.step_refused (h : s.Underway a f ⟨c + delay, some (c + limit)⟩ promise) (hle : delay ≤ limit)
    {reason : Rejection} (hp : promise = .reply (f.refusal reason)) :
    ∃ s', s.step? bound = some s' ∧ s'.Done a (.rejected reason, a.position) := by
  refine ⟨_, h.step_due hc hclock hb, ?_⟩
  rw [if_pos hle]
  subst hp
  refine (h.later _).done rfl ?_ (Wait.wake_add .. ▸ h.wake_le)
  show s.desk.session.Ends _ _ _ (s.desk.session.resume f (.reply (f.refusal reason)) _)
  rw [Session.resume_refused h.action hc]
  exact h.holds.rejects h.action h.position _

theorem Underway.step_confirmed {reference : String}
    (h : s.Underway a (.confirming a.request ⟨reference, a.request⟩ a.token) ⟨c + delay, some (c + limit)⟩
      (.reply (.confirmation (.ok ())))) (hle : delay ≤ limit) {amount shares : Amount}
    (ha : a.request.amount = .ok amount) (hs : a.position.sharesFor amount = some shares) :
    ∃ s', s.step? bound = some s' ∧
      s'.Done a (a.position.conclude ⟨a.request.kind, amount, shares, reference, s.moment (c + delay)⟩) := by
  refine ⟨_, h.step_due hc hclock hb, ?_⟩
  rw [if_pos hle, Nat.min_eq_left hle]
  refine (h.later _).done rfl ?_ (Nat.min_eq_left hle ▸ Wait.wake_add c .. ▸ h.wake_le)
  have hr : s.desk.session.resume (.confirming a.request ⟨reference, a.request⟩ a.token)
      (.reply (.confirmation (.ok ()))) (s.moment (c + delay)) =
      s.desk.session.settleAction ⟨reference, a.request⟩ (s.moment (c + delay)) := by
    simp [Session.resume, Session.resumeConfirming, hc]
  show s.desk.session.Ends _ _ _
    (s.desk.session.resume _ (.reply (.confirmation (.ok ()))) (s.moment (c + delay)))
  rw [hr]
  exact h.holds.settles h.position ha hs _

/-- An action that is not answered well is rejected. -/
theorem Underway.step_error (h : s.Underway a f ⟨c + delay, some (c + limit)⟩ promise)
    {failure : Option Rejection} (hp : ∀ reason, failure = some reason → promise = .reply (f.refusal reason))
    {reason : Rejection} (he : answered delay limit (f.lateness a.settings) failure = .error reason) :
    ∃ s', s.step? bound = some s' ∧ s'.Done a (.rejected reason, a.position) := by
  unfold answered at he
  split at he
  · rename_i hlt
    cases he
    exact h.step_late hc hclock hb hlt
  · rename_i hle
    cases failure with
    | none => cases he
    | some reason' =>
      cases he
      exact h.step_refused hc hclock hb (Nat.not_lt.mp hle) (hp _ rfl)

/-- The end of the second wait is the end of the action. -/
theorem Underway.step_confirming {reference : String} {failure : Option Rejection}
    (h : s.Underway a (.confirming a.request ⟨reference, a.request⟩ a.token) ⟨c + delay, some (c + limit)⟩
      (.reply (.confirmation (failure.elim (.ok ()) .error)))) {amount shares : Amount}
    (ha : a.request.amount = .ok amount) (hs : a.position.sharesFor amount = some shares) :
    ∃ s', s.step? bound = some s' ∧
      s'.Done a (a.position.result ⟨a.request.kind, amount, shares, reference, s.moment (c + delay)⟩
        (answered delay limit a.settings.lateConfirmation failure)) := by
  cases he : answered delay limit a.settings.lateConfirmation failure with
  | error reason =>
    refine h.step_error hc hclock hb (fun reason hf => ?_) he
    rw [hf]
    rfl
  | ok u =>
    obtain ⟨hle, rfl⟩ := answered_eq_ok he
    exact h.step_confirmed hc hclock hb hle ha hs

/-- Once signed, the action waits for its confirmation. -/
theorem Underway.step_signed
    (h : s.Underway a (.signing a.request a.token) ⟨c + delay, some (c + limit)⟩ (.signature a.request))
    (hle : delay ≤ limit) {S C : Nat} {eS eC : Option Rejection}
    (hw : s.world.settlement = .simulated S C eS eC)
    (hlast : c + delay + min (min C Wait.horizon) (min a.settings.confirmationLimit Wait.horizon) ≤ a.last) :
    ∃ s', s.step? bound = some s' ∧ s'.clock = c + delay ∧ s'.moment = s.moment ∧
      s'.desk.session.tokens.isCancelled a.token = false ∧
      s'.Underway a (.confirming a.request ⟨s.world.reference (s.world.signatures + 1), a.request⟩ a.token)
        ⟨c + delay + min C Wait.horizon, some (c + delay + min a.settings.confirmationLimit Wait.horizon)⟩
        (.reply (.confirmation (eC.elim (.ok ()) .error))) := by
  obtain ⟨session, hr, holds, hpos, htok, hset⟩ :=
    h.holds.signs hc (s.world.reference (s.world.signatures + 1)) (s.moment (c + delay))
  have hsig : ({ s with clock := c + delay } : Simulation).signal
      ⟨a.flow, ⟨c + delay, some (c + limit)⟩, .signature a.request⟩ .completed =
      (.reply (.signature (.ok ⟨s.world.reference (s.world.signatures + 1), a.request⟩)),
        { s.world with signatures := s.world.signatures + 1 }) := rfl
  have hstep := h.step_due hc hclock hb
  rw [if_pos hle, Nat.min_eq_left hle, (h.later _).finishWait_eq hsig hr,
    ask_confirming (Desk.flow?_put_waiting_self ..) (by exact hw)] at hstep
  refine ⟨_, hstep, rfl, rfl, ?_, ⟨Desk.flow?_put_waiting_self .., rfl, ?_, h.calm.of_desk ?_ ?_, ?_⟩,
    ?_, rfl, ?_, ?_, ?_⟩
  · rw [Desk.put_session, htok]
    exact hc
  · have hlimit : a.settings = session.settings := by rw [hset, h.settings]
    simp only [Simulation.settings, Desk.put_session, hlimit]
  · exact fun j hj => Desk.flow?_put_of_ne _ hj _
  · rw [Desk.put_session]
    exact htok
  · rw [Wait.wake_add]
    exact hlast
  · dsimp only
    apply Desk.Numbered.put
    · exact ⟨h.numbered.nodup, h.numbered.below⟩
    · exact h.numbered.lt h.flow
    · exact h.numbered.not_ended h.flow
  · rw [Desk.put_session]
    exact holds
  · rw [Desk.put_session, hpos]
    exact h.position
  · rw [Desk.put_session, hset]
    exact h.settings

end Race

/-! ## Cancelling -/

theorem Underway.cancel (h : s.Underway a f wait promise) :
    (s.act (.cancel a.request.kind)).1.clock = s.clock ∧
      (s.act (.cancel a.request.kind)).1.desk.session.tokens.isCancelled a.token = true ∧
      (s.act (.cancel a.request.kind)).1.Underway a f wait promise := by
  have hcan := Slot.cancel_of_inFlight (h.holds.inFlight h.action) h.holds.token s.desk.session.tokens
  rw [Session.slot] at hcan
  have hs : (s.act (.cancel a.request.kind)).1 =
      { s with desk := { s.desk with session :=
        { s.desk.session with tokens := s.desk.session.tokens.cancel a.token } } } := by
    simp only [act, Desk.act, Session.act, Session.cancel, hcan, Prod.map, id]
  rw [hs]
  refine ⟨rfl, Tokens.isCancelled_cancel ..,
    ⟨h.flow, h.token, h.waits, ⟨h.calm.apart, h.calm.late, ?_⟩, h.wake_le⟩,
    ⟨h.numbered.nodup, h.numbered.below⟩, h.action,
    ⟨h.holds.request, h.holds.phase, h.holds.token⟩, h.position, h.settings⟩
  intro o ho u hu
  obtain ⟨hne, hfree⟩ := h.calm.free o ho u hu
  refine ⟨hne, Bool.eq_false_iff.mpr fun hu => ?_⟩
  rcases Tokens.isCancelled_of_cancel hu with rfl | hu
  · exact hne rfl
  · rw [hfree] at hu
    cases hu

/-- An action that is over cannot be cancelled any more. -/
theorem Done.cancel {result : Phase × Position} (h : s.Done a result) :
    (s.act (.cancel a.request.kind)).1 = s := by
  have hfree : (s.desk.session.state.form a.request.kind).slot.phase.inFlight = false := by
    rw [show (s.desk.session.state.form a.request.kind).slot.phase = result.1 from h.phase, h.finished]
  have hcan := Slot.cancel_of_not_inFlight hfree s.desk.session.tokens
  simp only [act, Desk.act, Session.act, Session.cancel, hcan, Prod.map, id]

end Simulation

end YieldVault
