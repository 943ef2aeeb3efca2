import YieldVault.Proofs.Desk.Connecting

/-!
# The settings of a session

Nothing that happens at a desk changes them.
-/

namespace YieldVault

namespace Session

theorem attempt_settings {ρ : Type} (s : Session) (toFault : ρ → Fault) (r : Except ρ (State × List Event)) :
    (s.attempt toFault r).1.settings = s.settings := by
  unfold attempt
  split
  · exact commit_settings ..
  · rfl

theorem completeInput_settings (s : Session) (t : Ticket) : (s.completeInput t).1.settings = s.settings := by
  unfold completeInput
  split
  · exact commit_settings ..
  · rfl

theorem moveConnection_settings (s : Session) (m : Connection.Move) :
    (s.moveConnection m).1.settings = s.settings :=
  attempt_settings ..

theorem act_settings (s : Session) (a : Action) : (s.act a).1.settings = s.settings := by
  cases a with
  | cancelConnect =>
    simp only [act, cancelConnect, Prod.map_fst, id]
    split <;> rfl
  | acknowledgeConnection => exact s.moveConnection_settings _
  | disconnect =>
    simp only [act, disconnect_eq, Prod.map_fst, id]
    split <;> exact s.moveConnection_settings _
  | refreshQuote q => exact attempt_settings ..
  | setInput kind raw => exact completeInput_settings ..
  | beginInput kind raw => rfl
  | completeInput t => exact completeInput_settings ..
  | fillMax kind => exact completeInput_settings ..
  | cancel kind => rfl
  | acknowledge kind => exact attempt_settings ..

theorem start_settings (s : Session) (e : Errand) : (s.start e).1.settings = s.settings := by
  cases e with
  | connect =>
    simp only [start, connect]
    split
    · rfl
    · exact commit_settings ..
  | refresh =>
    simp only [start, refresh]
    split <;> rfl
  | submit kind =>
    have hs := s.submit_submitting kind
    show (s.submit kind).1.settings = s.settings
    generalize s.submit kind = x at hs
    cases hs with
    | refused _ => rfl
    | begun hb => exact hb.settings

theorem enter_settings (s : Session) (m : Connection.Move) : (s.enter m).1.settings = s.settings := by
  simp only [enter]
  split
  · rfl
  · split <;> exact commit_settings ..

theorem takeSnapshot_settings (s : Session) (account : String) (result : Except Fault Snapshot) :
    (s.takeSnapshot account result).1.settings = s.settings := by
  unfold takeSnapshot
  split
  · rfl
  · split
    · exact attempt_settings ..
    · rfl

theorem Acting.settings {s : Session} {x : Session × Progress} (h : s.Acting x) :
    x.1.settings = s.settings := by
  have rejects : ∀ r reason, (s.rejectAction r reason).1.settings = s.settings := by
    intro r reason
    simp only [rejectAction]
    split <;> simp [finish]
  cases h with
  | unmoved => rfl
  | rejects r reason => exact rejects r reason
  | signs r signed t =>
    simp only [signAction]
    split <;> simp [finish]
  | settles signed now =>
    unfold settleAction
    split
    · simp [finish]
    · exact rejects _ _
    · rfl

theorem resume_settings (s : Session) (f : Flow) (signal : Signal) (now : Moment) :
    (s.resume f signal now).1.settings = s.settings := by
  cases f with
  | connecting stage t =>
    have ha := s.resumeConnecting_attempt stage t signal
    show (s.resumeConnecting stage t signal).1.settings = s.settings
    generalize s.resumeConnecting stage t signal = x at ha
    cases ha with
    | unmoved => rfl
    | asks _ => rfl
    | enters _ => exact s.enter_settings _
  | reading account =>
    rcases signal with ⟨_ | result | _ | _⟩ | _ | _
    case reply.snapshot => exact s.takeSnapshot_settings account result
    all_goals rfl
  | refreshing account =>
    rcases signal with ⟨_ | result | _ | _⟩ | _ | _
    case reply.snapshot => exact s.takeSnapshot_settings account result
    all_goals rfl
  | signing r t => exact (s.resume_acting rfl signal now).settings
  | confirming r signed t => exact (s.resume_acting rfl signal now).settings

end Session

namespace Desk

theorem step_settings (d : Desk) (step : Step) : (d.step step).session.settings = d.session.settings := by
  cases step with
  | act a => exact d.session.act_settings a
  | start e => rw [session_start, d.session.start_settings]
  | wake i signal now =>
    show (d.wake i signal now).session.settings = _
    cases hf : d.flow? i with
    | none => rw [wake_eq_self hf]
    | some f => rw [wake_eq hf, put_session, d.session.resume_settings]
  | watch w => cases w <;> rfl

end Desk

end YieldVault
