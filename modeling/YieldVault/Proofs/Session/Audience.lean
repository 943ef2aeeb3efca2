import YieldVault.Proofs.Session.Publish

/-!
# Whoever listens

What a session does never depends on its receivers. Two sessions that differ in them alone do the same and
tell their receivers the same, in every operation and in every segment of a flow.
-/

namespace YieldVault.Session

/-- The session with other receivers. -/
def withBus (s : Session) (b : Broadcast Event) : Session := { s with bus := b }

@[simp] theorem withBus_state (s : Session) (b : Broadcast Event) : (s.withBus b).state = s.state := rfl

@[simp] theorem withBus_tokens (s : Session) (b : Broadcast Event) : (s.withBus b).tokens = s.tokens := rfl

@[simp] theorem withBus_settings (s : Session) (b : Broadcast Event) :
    (s.withBus b).settings = s.settings := rfl

@[simp] theorem withBus_traces (s : Session) (b : Broadcast Event) : (s.withBus b).traces = s.traces := rfl

theorem commit_withBus (s : Session) (b : Broadcast Event) (st : State) (es : List Event) :
    (s.withBus b).commit st es = (s.commit st es).withBus (es.foldl Broadcast.publish b) := by
  have told : ∀ s : Session,
      (s.withBus b).publish es = (s.publish es).withBus (es.foldl Broadcast.publish b) := by
    unfold publish
    induction es generalizing b with
    | nil => exact fun _ => rfl
    | cons e es ih => exact fun s => ih (b.publish e) (s.announce e)
  exact told { s with state := st }

/-- Outcomes that differ in the receivers alone, and those got the same events behind what they had. -/
def Alike {α : Type} (b b' : Broadcast Event) (x x' : Session × α) : Prop :=
  ∃ (es : List Event) (s : Session) (a : α),
    x = (s.withBus (es.foldl Broadcast.publish b), a) ∧ x' = (s.withBus (es.foldl Broadcast.publish b'), a)

variable {b b' : Broadcast Event}

section
variable {α β : Type} {x x' y y' : Session × α}

theorem Alike.still (s : Session) (a : α) : Alike b b' (s.withBus b, a) (s.withBus b', a) :=
  ⟨[], s, a, rfl, rfl⟩

theorem Alike.commit (s : Session) (st : State) (es : List Event) (a : α) :
    Alike b b' ((s.withBus b).commit st es, a) ((s.withBus b').commit st es, a) :=
  ⟨es, s.commit st es, a, by rw [commit_withBus], by rw [commit_withBus]⟩

theorem Alike.ite {p : Prop} [Decidable p] (h : Alike b b' x x') (h' : Alike b b' y y') :
    Alike b b' (if p then x else y) (if p then x' else y') := by
  by_cases hp : p
  · simpa [hp] using h
  · simpa [hp] using h'

theorem Alike.map (h : Alike b b' x x') (f : α → β) : Alike b b' (x.map id f) (x'.map id f) := by
  obtain ⟨es, s, a, rfl, rfl⟩ := h
  exact ⟨es, s, f a, rfl, rfl⟩

theorem Alike.attempt (s : Session) {ρ : Type} (toFault : ρ → Fault) (r : Except ρ (State × List Event)) :
    Alike b b' ((s.withBus b).attempt toFault r) ((s.withBus b').attempt toFault r) := by
  cases r with
  | error e => exact .still s _
  | ok a => exact .commit s a.1 a.2 _

end

variable (s : Session)

/-! ## Operations that end at once -/

theorem completeInput_alike (t : Ticket) :
    Alike b b' ((s.withBus b).completeInput t) ((s.withBus b').completeInput t) := by
  simp only [completeInput, withBus_state]
  split
  · exact .commit s _ _ _
  · exact .still s _

theorem setInput_alike (kind : Kind) (raw : String) :
    Alike b b' ((s.withBus b).setInput kind raw) ((s.withBus b').setInput kind raw) :=
  (completeInput_alike (s.beginInput kind raw).1 (s.beginInput kind raw).2).map (·.getD .silent)

theorem moveConnection_alike (m : Connection.Move) :
    Alike b b' ((s.withBus b).moveConnection m) ((s.withBus b').moveConnection m) :=
  .attempt s _ _

theorem disconnect_alike : Alike b b' (s.withBus b).disconnect (s.withBus b').disconnect := by
  obtain ⟨es, s', r, h, h'⟩ : Alike b b' _ _ := s.moveConnection_alike .disconnect
  simp only [disconnect, h, h']
  cases r with
  | error e => exact ⟨es, s', _, rfl, rfl⟩
  | ok _ => exact ⟨es, s'.cancelActions, _, rfl, rfl⟩

theorem cancelConnect_alike : Alike b b' (s.withBus b).cancelConnect (s.withBus b').cancelConnect := by
  simp only [cancelConnect, withBus_state]
  split
  · exact .still { s with tokens := s.tokens.cancel _ } _
  · exact .still s _

theorem act_alike (a : Action) : Alike b b' ((s.withBus b).act a) ((s.withBus b').act a) := by
  cases a with
  | cancelConnect => exact s.cancelConnect_alike.map _
  | acknowledgeConnection => exact (s.moveConnection_alike .acknowledge).map _
  | disconnect => exact s.disconnect_alike.map _
  | refreshQuote q => exact (Alike.attempt s _ (s.state.replaceQuote q)).map _
  | setInput kind raw => exact (s.setInput_alike kind raw).map fun v => Answer.verdict (some v)
  | beginInput kind raw => exact .still (s.beginInput kind raw).1 _
  | completeInput t => exact (s.completeInput_alike t).map _
  | fillMax kind => exact (s.setInput_alike kind (s.state.maximum kind)).map fun v => Answer.verdict (some v)
  | cancel kind => exact .still (s.cancel kind).1 _
  | acknowledge kind => exact (Alike.attempt s _ _).map _

/-! ## Flows -/

theorem connect_alike : Alike b b' (s.withBus b).connect (s.withBus b').connect := by
  simp only [connect, withBus_state]
  split
  · exact .still s _
  · exact .commit { s with tokens := s.tokens.issue.2 } _ _ _

theorem enter_alike (m : Connection.Move) : Alike b b' ((s.withBus b).enter m) ((s.withBus b').enter m) := by
  simp only [enter, withBus_state]
  split
  · exact .still { s with state := { s.state with connectToken := none } } _
  · split
    · exact .commit s _ _ _
    · exact .commit s _ _ _

theorem resumeConnecting_alike (stage : Authorization) (t : Token) (signal : Signal) :
    Alike b b' ((s.withBus b).resumeConnecting stage t signal)
      ((s.withBus b').resumeConnecting stage t signal) := by
  simp only [resumeConnecting, withBus_tokens, withBus_settings]
  apply Alike.ite
  · exact s.enter_alike _
  · split
    · exact s.enter_alike _
    · split
      · exact .still s _
      · exact s.enter_alike _
      · exact s.enter_alike _
      · exact .still s _
    · exact .still s _

theorem takeSnapshot_alike (account : String) (result : Except Fault Snapshot) :
    Alike b b' ((s.withBus b).takeSnapshot account result) ((s.withBus b').takeSnapshot account result) := by
  simp only [takeSnapshot, withBus_state]
  split
  · exact .still s _
  · exact .ite (.attempt s _ _) (.still s _)

theorem refresh_alike : Alike b b' (s.withBus b).refresh (s.withBus b').refresh := by
  simp only [refresh, withBus_state]
  split
  · exact .still s _
  · exact .still s _

theorem submit_alike (kind : Kind) : Alike b b' ((s.withBus b).submit kind) ((s.withBus b').submit kind) := by
  simp only [submit, withBus_state, withBus_tokens, withBus_traces]
  refine .ite (.still s _) (.ite (.still s _) (.ite (.still s _) ?_))
  split
  · exact .still s _
  · exact .commit { s with tokens := _, traces := s.traces + 1 } _ _ _

theorem rejectAction_alike (r : Request) (reason : Rejection) :
    Alike b b' ((s.withBus b).rejectAction r reason) ((s.withBus b').rejectAction r reason) := by
  simp only [rejectAction, finish, commit_state, withBus_state]
  split
  · exact .commit s _ _ _
  · exact .still s _

theorem signAction_alike (r : Request) (signed : Signed) (t : Token) :
    Alike b b' ((s.withBus b).signAction r signed t) ((s.withBus b').signAction r signed t) := by
  simp only [signAction, finish, withBus_state]
  split
  · exact .commit s _ _ _
  · exact .still s _

theorem settleAction_alike (signed : Signed) (now : Moment) :
    Alike b b' ((s.withBus b).settleAction signed now) ((s.withBus b').settleAction signed now) := by
  simp only [settleAction, finish, commit_state, withBus_state]
  split
  · exact .commit s _ _ _
  · exact s.rejectAction_alike _ _
  · exact .still { s with state := _ } _

theorem resumeSigning_alike (r : Request) (t : Token) (signal : Signal) :
    Alike b b' ((s.withBus b).resumeSigning r t signal) ((s.withBus b').resumeSigning r t signal) := by
  simp only [resumeSigning, withBus_tokens, withBus_settings]
  apply Alike.ite
  · exact s.rejectAction_alike _ _
  · split
    · exact s.rejectAction_alike _ _
    · exact s.signAction_alike _ _ _
    · exact s.rejectAction_alike _ _
    · exact .still s _

theorem resumeConfirming_alike (r : Request) (signed : Signed) (t : Token) (signal : Signal) (now : Moment) :
    Alike b b' ((s.withBus b).resumeConfirming r signed t signal now)
      ((s.withBus b').resumeConfirming r signed t signal now) := by
  simp only [resumeConfirming, withBus_tokens, withBus_settings]
  apply Alike.ite
  · exact s.rejectAction_alike _ _
  · split
    · exact s.rejectAction_alike _ _
    · exact s.settleAction_alike _ _
    · exact s.rejectAction_alike _ _
    · exact .still s _

theorem resume_alike (f : Flow) (signal : Signal) (now : Moment) :
    Alike b b' ((s.withBus b).resume f signal now) ((s.withBus b').resume f signal now) := by
  unfold resume
  split
  · exact s.resumeConnecting_alike _ _ _
  · exact s.resumeSigning_alike _ _ _
  · exact s.resumeConfirming_alike _ _ _ _ _
  · exact (s.takeSnapshot_alike _ _).map fun _ => Progress.ended (.connected (.ok (.connected _)))
  · exact (s.takeSnapshot_alike _ _).map fun result => Progress.ended (.refreshed result)
  · exact .still s _

theorem start_alike (e : Errand) : Alike b b' ((s.withBus b).start e) ((s.withBus b').start e) := by
  cases e with
  | connect => exact s.connect_alike
  | refresh => exact s.refresh_alike
  | submit kind => exact s.submit_alike kind

end YieldVault.Session
