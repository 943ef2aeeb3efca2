import Mathlib.Data.List.Induction
import YieldVault.Proofs.Desk.Run
import YieldVault.Proofs.Session.Effect

/-!
# Reachable desks

What holds of every state that a session can reach. There is a token for a connection attempt exactly while
the session is connecting, and an action in flight can be cancelled. At most one attempt waits for the wallet,
and while it does the session is connecting, so that the wallet's last word is always welcome.
-/

namespace YieldVault

/-- While the slot has an action in flight it has the token that cancels it. -/
def Slot.Armed (s : Slot) : Prop := s.phase.inFlight = true → s.token.isSome = true

theorem Slot.Turn.armed {s s' : Slot} (h : s.Turn s') (hs : s.Armed) : s'.Armed := by
  intro hf
  cases h with
  | begin _ r t => rfl
  | sign h reference => exact hs (by rw [h]; rfl)
  | reject _ reason => cases hf
  | release _ => cases hf

namespace State

/-- There is a token to cancel whatever is under way. -/
structure Cancellable (s : State) : Prop where
  attempt : s.connectToken.isSome = true ↔ s.connection = .connecting
  action : ∀ k, (s.form k).slot.Armed

theorem cancellable_initial : initial.Cancellable := by
  refine ⟨by decide, fun k hk => ?_⟩
  cases k <;> cases hk

/-! ## The connection -/

def link (s : State) : Connection × Option Token := (s.connection, s.connectToken)

theorem link_withForm (s : State) (kind : Kind) (f : Form) : (s.withForm kind f).link = s.link := by
  cases kind <;> rfl

theorem link_revalidate (s : State) (kind : Kind) : (s.revalidate kind).1.link = s.link := by
  simp only [revalidate]
  split
  · rfl
  · exact link_withForm s kind _

theorem link_revalidateAll (s : State) : s.revalidateAll.1.link = s.link :=
  (link_revalidate _ .withdraw).trans (link_revalidate s .deposit)

theorem Work.link {s s' : State} (h : s.Work s') : s'.link = s.link := by
  cases h with
  | still => rfl
  | judged kind => exact link_withForm s kind _
  | typed kind raw => exact (link_withForm _ kind _).trans (link_withForm s kind _)
  | requoted p stats => exact link_revalidateAll { s with position := some p }
  | @turned kind slot turn => exact link_withForm s kind _
  | @settled kind receipt p _ =>
    exact (link_revalidateAll _).trans ((link_withForm _ kind _).trans ((link_withForm _ kind _).trans
      (link_withForm { s with position := some p } kind _)))

theorem Cancellable.beginInput {s : State} (h : s.Cancellable) (kind : Kind) (raw : String) :
    (s.beginInput kind raw).1.Cancellable := by
  have hl : (s.beginInput kind raw).1.link = s.link := link_withForm s kind _
  refine ⟨?_, fun k => ?_⟩
  · have hc := congrArg Prod.fst hl
    have ht := congrArg Prod.snd hl
    simp only [State.link] at hc ht
    rw [hc, ht]
    exact h.attempt
  · rw [show ((s.beginInput kind raw).1.form k).slot = (s.form k).slot from slot_withForm s (by rfl) k]
    exact h.action k

theorem Cancellable.of_work {s s' : State} (h : s.Cancellable) (hw : s.Work s') : s'.Cancellable := by
  have hc := congrArg Prod.fst hw.link
  have ht := congrArg Prod.snd hw.link
  simp only [State.link] at hc ht
  refine ⟨by rw [hc, ht]; exact h.attempt, fun k => ?_⟩
  rcases hw.slot_or_settled with hslot | ⟨kind, receipt, p, rfl⟩
  · rcases hslot k with he | turn
    · rw [he]
      exact h.action k
    · exact turn.armed (h.action k)
  · by_cases hk : k = kind
    · subst hk
      rw [slot_settledWith]
      intro hf
      cases hf
    · rw [slot_settledWith_of_ne s hk]
      exact h.action k

theorem Cancellable.of_effect {s s' : State} (h : s.Cancellable) (he : s.Effect s') : s'.Cancellable := by
  have hslot : ∀ (c : Connection) (t : Option Token) k,
      (({ s with connection := c, connectToken := t } : State).form k).slot.Armed := by
    intro c t k
    have hk := h.action k
    cases k <;> exact hk
  cases he with
  | worked hw => exact h.of_work hw
  | requested _ t => exact ⟨by simp, hslot _ _⟩
  | entered _ hc => exact ⟨by simpa using hc, hslot _ _⟩
  | dropped hn => exact ⟨by simpa using hn, hslot s.connection none⟩
  | left hn =>
    refine ⟨?_, hslot .disconnected s.connectToken⟩
    have ht := h.attempt.not.mpr hn
    simpa using ht

end State

def Progress.attempt? : Progress → Option Token
  | .waiting (.connecting _ t) => some t
  | _ => none

namespace Session

theorem submit_progress (s : Session) (kind : Kind) :
    (∃ result, (s.submit kind).2 = .ended (.submitted result)) ∨
      ∃ r t, (s.submit kind).2 = .waiting (.signing r t) := by
  unfold submit
  dsimp only
  split
  · exact .inl ⟨_, rfl⟩
  · split
    · exact .inl ⟨_, rfl⟩
    · split
      · exact .inl ⟨_, rfl⟩
      · split
        · exact .inl ⟨_, rfl⟩
        · exact .inr ⟨_, _, rfl⟩

theorem submit_attempt? (s : Session) (kind : Kind) : (s.submit kind).2.attempt? = none := by
  rcases s.submit_progress kind with ⟨_, h⟩ | ⟨_, _, h⟩ <;> rw [h] <;> rfl

theorem OfAction.attempt? {progress : Progress} (h : OfAction progress) : progress.attempt? = none := by
  cases h <;> rfl

theorem resume_attempt? (s : Session) {f : Flow} (hf : ∀ stage t, f ≠ .connecting stage t) (signal : Signal)
    (now : Moment) : (s.resume f signal now).2.attempt? = none := by
  cases f with
  | connecting stage t => exact absurd rfl (hf stage t)
  | reading account =>
    cases signal with
    | reply r => cases r <;> rfl
    | _ => rfl
  | refreshing account =>
    cases signal with
    | reply r => cases r <;> rfl
    | _ => rfl
  | signing r t => exact (s.resume_acting rfl signal now).ofAction.attempt?
  | confirming r signed t => exact (s.resume_acting rfl signal now).ofAction.attempt?

theorem enter_ended (s : Session) (h : s.state.connection = .connecting) {m : Connection.Move}
    (hm : m.IsEntry) :
    (s.enter m).2 ≠ .unmoved ∧ (s.enter m).2.attempt? = none := by
  obtain ⟨c, he, _⟩ := Connection.step_entry_connecting hm
  unfold enter
  simp only [h, he]
  split <;> exact ⟨by simp, rfl⟩

theorem act_link (s : Session) (a : Action) (h : s.state.connection = .connecting) :
    (s.act a).1.state.link = s.state.link := by
  cases a with
  | cancelConnect =>
    simp only [act, cancelConnect, Prod.map_fst, id]
    split <;> rfl
  | acknowledgeConnection =>
    simp only [act, acknowledgeConnection, moveConnection, h]
    rfl
  | disconnect =>
    simp only [act, disconnect, moveConnection, h]
    rfl
  | refreshQuote q => exact (s.refreshQuote_work q).link
  | setInput kind raw => exact (s.setInput_state kind raw ▸ State.Work.typed kind raw : s.state.Work _).link
  | beginInput kind raw => exact State.link_withForm s.state kind _
  | completeInput t => exact (s.completeInput_work t).link
  | fillMax kind => exact (s.setInput_state kind _ ▸ State.Work.typed kind _ : s.state.Work _).link
  | cancel kind => rfl
  | acknowledge kind => exact (s.acknowledge_work kind).link

end Session

namespace Desk

theorem step_effect (d : Desk) (step : Step) :
    (∃ kind raw, step = .act (.beginInput kind raw)) ∨
      d.session.state.Effect (d.step step).session.state := by
  cases step with
  | act a =>
    rcases d.session.act_effect a with ⟨kind, raw, rfl⟩ | h
    · exact .inl ⟨kind, raw, rfl⟩
    · exact .inr h
  | start e =>
    right
    show d.session.state.Effect (d.start e).session.state
    unfold start
    rw [put_session]
    exact d.session.start_effect e
  | wake i signal now =>
    right
    show d.session.state.Effect (d.wake i signal now).session.state
    cases hf : d.flow? i with
    | none => rw [wake_eq_self hf]; exact .worked .still
    | some f =>
      rw [wake_eq hf, put_session]
      exact d.session.resume_effect f signal now
  | watch w =>
    right
    cases w <;> exact .worked .still

/-- What no effect and no start of an input breaks holds after every run. -/
theorem run_keeps {P : State → Prop} (begins : ∀ {s} kind raw, P s → P (State.beginInput s kind raw).1)
    (effects : ∀ {s s'}, P s → State.Effect s s' → P s') {d : Desk} (h : P d.session.state)
    (steps : List Step) :
    P (d.run steps).session.state := by
  induction steps using List.reverseRecOn with
  | nil => exact h
  | append_singleton history step ih =>
    rw [run_snoc]
    rcases (d.run history).step_effect step with ⟨kind, raw, rfl⟩ | he
    · exact begins kind raw ih
    · exact effects ih he

theorem run_cancellable {s : Session} (hs : s.state = .initial) (steps : List Step) :
    ((ofSession s).run steps).session.state.Cancellable :=
  run_keeps (fun kind raw h => h.beginInput kind raw) (fun h he => h.of_effect he)
    (show s.state.Cancellable by rw [hs]; exact State.cancellable_initial) steps

/-! ## Attempts that wait for the wallet -/

/-- The token of the connection attempt that the flow `i` drives. -/
def attempt? (d : Desk) (i : FlowId) : Option Token :=
  match d.flow? i with
  | some (.connecting _ t) => some t
  | _ => none

/-- The attempt that waits is the one that the session is in. -/
structure Attempting (d : Desk) : Prop where
  connecting : ∀ {i t}, d.attempt? i = some t → d.session.state.link = (.connecting, some t)
  alone : ∀ {i j t u}, d.attempt? i = some t → d.attempt? j = some u → i = j

theorem attempting_ofSession (s : Session) : (ofSession s).Attempting := by
  refine ⟨fun h => ?_, fun h => ?_⟩
  · cases h
  · cases h

theorem attempt?_put {d : Desk} {i j : FlowId} {progress : Progress} {t : Token}
    (h : (d.put i progress).attempt? j = some t) :
    d.attempt? j = some t ∧ (j = i → progress = .unmoved) ∨ j = i ∧ progress.attempt? = some t := by
  unfold attempt? at h ⊢
  by_cases hj : j = i
  · subst hj
    cases progress with
    | unmoved => exact .inl ⟨h, fun _ => rfl⟩
    | ended o => rw [flow?_put_ended_self] at h; cases h
    | waiting f =>
      rw [flow?_put_waiting_self] at h
      refine .inr ⟨rfl, ?_⟩
      cases f with
      | connecting stage u => exact h
      | _ => cases h
  · rw [flow?_put_of_ne _ hj] at h
    exact .inl ⟨h, fun he => absurd he hj⟩

namespace Attempting

variable {d : Desk}

/-- A step that begins no attempt and leaves the connection alone while there is one. -/
theorem put (h : d.Attempting) {s : Session} {n : Nat} {i : FlowId} {progress : Progress}
    (hl : d.session.state.connection = .connecting → s.state.link = d.session.state.link)
    (ht : ∀ t, progress.attempt? = some t → d.attempt? i = some t) :
    ({ d with session := s, started := n }.put i progress).Attempting := by
  have old : ∀ {j t}, ({ d with session := s, started := n }.put i progress).attempt? j = some t →
      d.attempt? j = some t := by
    intro j t hj
    rcases attempt?_put hj with ⟨hold, _⟩ | ⟨rfl, hnew⟩
    · exact hold
    · exact ht t hnew
  refine ⟨fun hj => ?_, fun hj hk => h.alone (old hj) (old hk)⟩
  have hlink := h.connecting (old hj)
  rw [put_session]
  exact (hl (congrArg Prod.fst hlink)).trans hlink

theorem act (h : d.Attempting) (a : Action) : (d.step (.act a)).Attempting := by
  refine ⟨fun hj => ?_, h.alone⟩
  have hlink := h.connecting hj
  exact (d.session.act_link a (congrArg Prod.fst hlink)).trans hlink

theorem connect (h : d.Attempting) : (d.step (.start .connect)).Attempting := by
  show (d.start .connect).Attempting
  unfold start
  simp only [Session.start, Session.connect]
  cases hc : d.session.state.connection.step .request with
  | error e => exact h.put (fun _ => rfl) (fun t ht => by cases ht)
  | ok c =>
    obtain ⟨hn, rfl⟩ := Connection.step_request hc
    -- no attempt was waiting, so the new one is the only one
    have none : ∀ {j t}, d.attempt? j ≠ some t := fun hj => hn (congrArg Prod.fst (h.connecting hj))
    refine ⟨fun {j t} hj => ?_, fun {j k t u} hj hk => ?_⟩
    · rcases attempt?_put hj with ⟨hold, _⟩ | ⟨_, hnew⟩
      · exact absurd hold none
      · cases hnew
        rw [put_session]
        simp only [Session.commit_state, State.link]
    · rcases attempt?_put hj with ⟨hold, _⟩ | ⟨rfl, _⟩
      · exact absurd hold none
      · rcases attempt?_put hk with ⟨hold, _⟩ | ⟨hk, _⟩
        · exact absurd hold none
        · exact hk.symm

theorem start (h : d.Attempting) (e : Errand) : (d.step (.start e)).Attempting := by
  cases e with
  | connect => exact h.connect
  | refresh =>
    show (d.start .refresh).Attempting
    unfold Desk.start
    simp only [Session.start, Session.refresh]
    split <;> exact h.put (fun _ => rfl) (fun t ht => by cases ht)
  | submit kind =>
    show ({ d with session := (d.session.submit kind).1, started := d.started + 1 }.put d.started
      (d.session.submit kind).2).Attempting
    refine h.put (fun _ => (d.session.submit_work kind).link) fun t ht => ?_
    rw [Session.submit_attempt?] at ht
    cases ht

theorem enter (h : d.Attempting) {i : FlowId} {t : Token} (hi : d.attempt? i = some t) {m : Connection.Move}
    (hm : m.IsEntry) :
    ({ d with session := (d.session.enter m).1 }.put i (d.session.enter m).2).Attempting := by
  have hlink := h.connecting hi
  obtain ⟨hw, htok⟩ := d.session.enter_ended (congrArg Prod.fst hlink) hm
  have none : ∀ {j u},
      ({ d with session := (d.session.enter m).1 }.put i (d.session.enter m).2).attempt? j ≠ some u := by
    intro j u hj
    rcases attempt?_put hj with ⟨hold, hne⟩ | ⟨_, hnew⟩
    · exact hw (hne (h.alone hold hi))
    · rw [htok] at hnew
      cases hnew
  exact ⟨fun hj => absurd hj none, fun hj => absurd hj none⟩

theorem wake (h : d.Attempting) (i : FlowId) (signal : Signal) (now : Moment) :
    (d.step (.wake i signal now)).Attempting := by
  show (d.wake i signal now).Attempting
  cases hf : d.flow? i with
  | none =>
    rw [wake_eq_self hf]
    exact h
  | some f =>
    rw [wake_eq hf]
    by_cases hc : ∃ stage t, f = .connecting stage t
    · obtain ⟨stage, t, rfl⟩ := hc
      have hi : d.attempt? i = some t := by
        unfold attempt?
        rw [hf]
      have ha := d.session.resumeConnecting_attempt stage t signal
      simp only [Session.resume]
      revert ha
      generalize d.session.resumeConnecting stage t signal = x
      intro ha
      cases ha with
      | unmoved => exact h
      | asks next => exact h.put (fun _ => rfl) (fun u hu => by cases hu; exact hi)
      | enters hm => exact h.enter hi hm
    · have hn : ∀ stage t, f ≠ .connecting stage t := fun stage t he => hc ⟨stage, t, he⟩
      refine h.put (fun _ => (d.session.resume_work hn signal now).link) fun t ht => ?_
      rw [d.session.resume_attempt? hn] at ht
      cases ht

theorem step (h : d.Attempting) (s : Step) : (d.step s).Attempting := by
  cases s with
  | act a => exact h.act a
  | start e => exact h.start e
  | wake i signal now => exact h.wake i signal now
  | watch w => exact ⟨fun hj => by cases w <;> exact h.connecting hj, h.alone⟩

end Attempting

theorem run_attempting (s : Session) (steps : List Step) : ((ofSession s).run steps).Attempting := by
  induction steps using List.reverseRecOn with
  | nil => exact attempting_ofSession s
  | append_singleton history step ih =>
    rw [run_snoc]
    exact ih.step step

end Desk

end YieldVault
