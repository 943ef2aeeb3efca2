import YieldVault.Proofs.Desk.Provenance

/-!
# How an attempt connects

The session of a desk gets connected in one way only: an attempt is woken by an answer of the wallet that
grants it an account. The attempt then reads the chain, and when it ends it tells that account. So all that
shows that a session was connected goes back to such an answer.
-/

namespace YieldVault

namespace Connection

theorem eq_of_ofAccount {account address : String} (h : ofAccount account = .connected address) :
    account = address := by
  unfold ofAccount at h
  split at h <;> cases h
  rfl

end Connection

namespace Session

variable {s : Session} {address : String}

theorem enter_rejected_ne (hc : s.state.connection = .connecting) (reason : ConnectFailure) :
    (s.enter (.rejected reason)).1.state.connection ≠ .connected address := by
  rw [(s.enter_eq hc (show Connection.step .connecting (.rejected reason) = .ok (.failed reason) from rfl)).1]
  exact fun h => by cases h

/-- An attempt connects with the account that the wallet's answer grants. -/
theorem granted_of_resumeConnecting {stage : Authorization} {t : Token} {signal : Signal}
    (hc : s.state.connection = .connecting)
    (h : (s.resumeConnecting stage t signal).1.state.connection = .connected address) :
    ∃ r, signal = .reply (.wallet r) ∧ stage.step s.settings.chain r = some (.granted address) := by
  have still : s.state.connection ≠ .connected address := fun he => by rw [hc] at he; cases he
  unfold resumeConnecting at h
  split at h
  · exact absurd h (enter_rejected_ne hc _)
  · split at h
    · exact absurd h (enter_rejected_ne hc _)
    · rename_i r
      split at h
      · exact absurd h still
      · rename_i account hr
        rw [(s.enter_eq hc (show Connection.step .connecting (.authorized account) = .ok _ from rfl)).1] at h
        exact ⟨r, rfl, Connection.eq_of_ofAccount h ▸ hr⟩
      · exact absurd h (enter_rejected_ne hc _)
      · exact absurd h still
    · exact absurd h still

/-- A segment that gets as far as a connected account, or tells of one. -/
def Welcomes : Progress → Prop
  | .waiting (.reading _) => True
  | .ended (.connected (.ok (.connected _))) => True
  | _ => False

theorem start_not_welcomes (s : Session) (e : Errand) : ¬ Welcomes (s.start e).2 := by
  cases e with
  | connect =>
    simp only [start, connect]
    split <;> exact id
  | refresh =>
    simp only [start, refresh]
    split <;> exact id
  | submit kind =>
    show ¬ Welcomes (s.submit kind).2
    rcases s.submit_progress kind with ⟨_, h⟩ | ⟨_, _, h⟩ <;> rw [h] <;> exact id

theorem enter_welcomes {m : Connection.Move} (h : Welcomes (s.enter m).2) :
    ∃ account, (s.enter m).1.state.connection = .connected account := by
  unfold enter at h ⊢
  dsimp only at h ⊢
  split at h
  · exact h.elim
  · rename_i c _
    cases c with
    | connected account => exact ⟨account, by simp⟩
    | _ => exact h.elim

theorem OfAction.not_welcomes {progress : Progress} (h : OfAction progress) : ¬ Welcomes progress := by
  cases h <;> exact id

/-- Only the reading of the chain comes after the session has connected. -/
theorem resume_welcomes {f : Flow} {signal : Signal} {now : Moment} (h : Welcomes (s.resume f signal now).2) :
    (∃ account, f = .reading account) ∨
      ∃ account, (s.resume f signal now).1.state.connection = .connected account := by
  cases f with
  | connecting stage t =>
    have ha := s.resumeConnecting_attempt stage t signal
    rw [show s.resume (.connecting stage t) signal now = s.resumeConnecting stage t signal from rfl] at h ⊢
    generalize s.resumeConnecting stage t signal = x at ha h ⊢
    cases ha with
    | unmoved => exact h.elim
    | asks stage => exact h.elim
    | enters hm => exact .inr (enter_welcomes h)
  | reading account => exact .inl ⟨account, rfl⟩
  | refreshing account =>
    rcases signal with ⟨_ | result | _ | _⟩ | _ | _
    all_goals exact h.elim
  | signing r t => exact absurd h (s.resume_acting (f := .signing r t) rfl signal now).ofAction.not_welcomes
  | confirming r signed t =>
    exact absurd h (s.resume_acting (f := .confirming r signed t) rfl signal now).ofAction.not_welcomes

theorem start_connecting (s : Session) (e : Errand) (h : s.state.connection = .connecting) :
    (s.start e).1.state.connection = .connecting := by
  cases e with
  | connect => simp [start, connect, h, Connection.step]
  | refresh =>
    simp only [start, refresh]
    split <;> exact h
  | submit kind => exact (congrArg Prod.fst (s.submit_work kind).link).trans h

end Session

namespace Desk

variable {d : Desk} {step : Step} {address : String}

theorem granted_of_connected (h : (d.step step).session.state.connection = .connected address) :
    d.session.state.connection = .connected address ∨
      ∃ i r now, step = .wake i (.reply (.wallet r)) now ∧ ∃ stage : Authorization,
        stage.step d.session.settings.chain r = some (.granted address) := by
  rcases connected_of_step h with hc | hc
  · -- a session that was connecting is now connected
    have moved : (d.step step).session.state.connection ≠ .connecting := fun he => by rw [h] at he; cases he
    right
    cases step with
    | act a => exact absurd ((congrArg Prod.fst (d.session.act_link a hc)).trans hc) moved
    | start e => exact absurd ((session_start d e).symm ▸ d.session.start_connecting e hc) moved
    | watch w => cases w <;> exact absurd hc moved
    | wake i signal now =>
      rw [show d.step (.wake i signal now) = d.wake i signal now from rfl] at h moved
      cases hf : d.flow? i with
      | none =>
        rw [wake_eq_self hf] at moved
        exact absurd hc moved
      | some f =>
        rw [wake_eq hf, put_session] at h moved
        by_cases hconn : ∃ stage t, f = .connecting stage t
        · obtain ⟨stage, t, rfl⟩ := hconn
          obtain ⟨r, rfl, hr⟩ := Session.granted_of_resumeConnecting hc h
          exact ⟨i, r, now, rfl, stage, hr⟩
        · have hw := d.session.resume_work (fun stage t he => hconn ⟨stage, t, he⟩) signal now
          exact absurd ((congrArg Prod.fst hw.link).trans hc) moved
  · exact .inl hc

theorem flow?_of_put {i j : FlowId} {progress : Progress} {f : Flow}
    (h : (d.put i progress).flow? j = some f) :
    d.flow? j = some f ∨ progress = .waiting f := by
  cases progress with
  | unmoved => exact .inl h
  | waiting g =>
    rw [flow?_put_waiting] at h
    split at h
    · cases h
      exact .inr rfl
    · exact .inl h
  | ended o =>
    rw [flow?_put_ended] at h
    split at h
    · cases h
    · exact .inl h

theorem outcome?_of_put {i j : FlowId} {progress : Progress} {o : Outcome}
    (h : (d.put i progress).outcome? j = some o) : d.outcome? j = some o ∨ progress = .ended o := by
  cases progress with
  | unmoved => exact .inl h
  | waiting f => exact .inl h
  | ended o' =>
    rw [outcome?_put_ended] at h
    rcases Option.or_eq_some_iff.mp h with h | ⟨-, h⟩
    · exact .inl h
    · split at h
      · cases h
        exact .inr rfl
      · cases h

/-- The session is connected, or an attempt has got as far as that. -/
inductive Welcomed (d : Desk) : Prop
  | connected {address : String} (h : d.session.state.connection = .connected address)
  | reading {i : FlowId} {account : String} (h : d.flow? i = some (.reading account))
  | ended {i : FlowId} {account : String} (h : d.outcome? i = some (.connected (.ok (.connected account))))

theorem Welcomed.of_put {s : Session} {n : Nat} {i : FlowId} {progress : Progress}
    (h : ({ d with session := s, started := n }.put i progress).Welcomed) :
    d.Welcomed ∨ Session.Welcomes progress ∨ ∃ address, s.state.connection = .connected address := by
  cases h with
  | connected h =>
    rw [put_session] at h
    exact .inr (.inr ⟨_, h⟩)
  | reading h =>
    rcases flow?_of_put h with h | rfl
    · exact .inl (.reading h)
    · exact .inr (.inl trivial)
  | ended h =>
    rcases outcome?_of_put h with h | rfl
    · exact .inl (.ended h)
    · exact .inr (.inl trivial)

/-- Without an answer that grants an account no session was ever connected. -/
theorem Welcomed.of_step (h : (d.step step).Welcomed) :
    d.Welcomed ∨ ∃ i r now, step = .wake i (.reply (.wallet r)) now ∧
      ∃ (stage : Authorization) (account : String),
        stage.step d.session.settings.chain r = some (.granted account) := by
  have entered : ∀ {address}, (d.step step).session.state.connection = .connected address → d.Welcomed ∨
      ∃ i r now, step = .wake i (.reply (.wallet r)) now ∧ ∃ (stage : Authorization) (account : String),
        stage.step d.session.settings.chain r = some (.granted account) := by
    intro address hc
    rcases granted_of_connected hc with hc | ⟨i, r, now, he, stage, hr⟩
    · exact .inl (.connected hc)
    · exact .inr ⟨i, r, now, he, stage, address, hr⟩
  cases step with
  | act a =>
    cases h with
    | connected h => exact entered h
    | reading h => exact .inl (.reading h)
    | ended h => exact .inl (.ended h)
  | watch w =>
    cases h with
    | connected h => exact entered h
    | reading h => exact .inl (.reading h)
    | ended h => exact .inl (.ended h)
  | start e =>
    rcases of_put (d := d) h with h | h | ⟨address, h⟩
    · exact .inl h
    · exact absurd h (d.session.start_not_welcomes e)
    · exact entered ((session_start d e).symm ▸ h)
  | wake i signal now =>
    cases hf : d.flow? i with
    | none =>
      rw [show d.step (.wake i signal now) = d from wake_eq_self hf signal now] at h
      exact .inl h
    | some f =>
      have he : d.step (.wake i signal now) = _ := wake_eq hf signal now
      have after : ∀ {address}, (d.session.resume f signal now).1.state.connection = .connected address →
          (d.step (.wake i signal now)).session.state.connection = .connected address := by
        intro address hc
        rwa [he, put_session]
      rw [he] at h
      rcases of_put (d := d) (n := d.started) h with h | h | ⟨address, h⟩
      · exact .inl h
      · rcases Session.resume_welcomes h with ⟨account, rfl⟩ | ⟨account, hc⟩
        · exact .inl (.reading hf)
        · exact entered (after hc)
      · exact entered (after h)

end Desk

end YieldVault
