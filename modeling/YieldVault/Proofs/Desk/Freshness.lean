import YieldVault.Proofs.Amount.Value
import YieldVault.Proofs.Desk.Ledger
import YieldVault.Proofs.Desk.Reach

/-!
# Fresh verdicts

The verdict that a form shows is the one on its present text against the present position. It lags behind
only between the start and the end of an input, and a quote that changes in between catches it up. Each
effect on the state either leaves text, verdict and position of a form as they are or judges it anew.
-/

namespace YieldVault

/-! ## Comparing verdicts -/

instance : ReflBEq Amount where
  rfl := Amount.beq_iff_value.mpr rfl

instance : ReflBEq Preview where
  rfl {p} := by
    cases p with
    | deposit shares => exact BEq.refl shares
    | withdraw burned received =>
      show (burned == burned && received == received) = true
      simp

instance : ReflBEq Verdict where
  rfl {v} := by
    show (v.isValid == v.isValid && v.severity == v.severity && v.message == v.message &&
      v.preview? == v.preview?) = true
    simp

namespace State

/-- The form shows the verdict on its text as things stand. -/
def Judged (s : State) (k : Kind) : Prop :=
  ((s.form k).verdict == s.position.elim .silent (Verdict.judge k (Entry.ofText (s.form k).input))) = true

instance (s : State) (k : Kind) : Decidable (s.Judged k) := inferInstanceAs (Decidable (_ = true))

theorem verdictFor_eq (s : State) (k : Kind) (raw : String) :
    s.verdictFor k raw = s.position.elim .silent (Verdict.judge k (Entry.ofText raw)) := by
  unfold verdictFor
  cases s.position <;> rfl

/-- All that a verdict depends on is as it was. -/
structure Keeps (k : Kind) (s s' : State) : Prop where
  position : s'.position = s.position
  input : (s'.form k).input = (s.form k).input
  verdict : (s'.form k).verdict = (s.form k).verdict

theorem Keeps.judged {k : Kind} {s s' : State} (h : Keeps k s s') (hj : s.Judged k) : s'.Judged k := by
  unfold Judged
  rw [h.verdict, h.input, h.position]
  exact hj

theorem Keeps.trans {k : Kind} {s s' s'' : State} (h : Keeps k s s') (h' : Keeps k s' s'') : Keeps k s s'' :=
  ⟨h'.position.trans h.position, h'.input.trans h.input, h'.verdict.trans h.verdict⟩

theorem withForm_keeps (s : State) {kind k : Kind} (h : k ≠ kind) (f : Form) :
    Keeps k s (s.withForm kind f) :=
  ⟨withForm_position s kind f, by rw [form_withForm_of_ne s h], by rw [form_withForm_of_ne s h]⟩

theorem judge_judged (s : State) (k : Kind) : (s.judge k).Judged k := by
  unfold Judged judge
  rw [form_withForm, withForm_position, verdictFor_eq]
  exact BEq.refl _

theorem judge_keeps (s : State) {kind k : Kind} (h : k ≠ kind) : Keeps k s (s.judge kind) :=
  withForm_keeps s h _

theorem beginInput_keeps (s : State) {kind k : Kind} (h : k ≠ kind) (raw : String) :
    Keeps k s (s.beginInput kind raw).1 := withForm_keeps s h _

theorem withSlot_keeps (s : State) (kind k : Kind) (slot : Slot) : Keeps k s (s.withSlot kind slot) := by
  by_cases h : k = kind
  · subst h
    unfold withSlot
    exact ⟨withForm_position .., by rw [form_withForm], by rw [form_withForm]⟩
  · exact withForm_keeps s h _

/-! ## Judging anew -/

theorem revalidate_judged (s : State) (k : Kind) : (s.revalidate k).1.Judged k := by
  simp only [revalidate]
  split
  · rename_i h
    unfold Judged
    rw [← verdictFor_eq]
    exact h
  · exact judge_judged s k

theorem revalidate_keeps (s : State) {kind k : Kind} (h : k ≠ kind) : Keeps k s (s.revalidate kind).1 := by
  simp only [revalidate]
  split
  · exact ⟨rfl, rfl, rfl⟩
  · exact judge_keeps s h

theorem revalidateAll_judged (s : State) (k : Kind) : s.revalidateAll.1.Judged k := by
  cases k with
  | deposit => exact (revalidate_keeps _ (by decide)).judged (s.revalidate_judged .deposit)
  | withdraw => exact revalidate_judged _ .withdraw

theorem requote_judged (s : State) (p : Position) (stats : Stats) (k : Kind) :
    (s.requote p stats).Judged k := by
  have hj := revalidateAll_judged { s with position := some p } k
  cases k <;> exact hj

theorem settledWith_judged (s : State) (kind : Kind) (receipt : Receipt) (p : Position) (k : Kind) :
    (s.settledWith kind receipt p).Judged k := revalidateAll_judged _ k

theorem Work.keeps_or_judged {s s' : State} (h : s.Work s') (k : Kind) : Keeps k s s' ∨ s'.Judged k := by
  cases h with
  | still => exact .inl ⟨rfl, rfl, rfl⟩
  | judged kind =>
    by_cases hk : k = kind
    · exact .inr (hk ▸ judge_judged s k)
    · exact .inl (judge_keeps s hk)
  | typed kind raw =>
    by_cases hk : k = kind
    · exact .inr (hk ▸ judge_judged _ k)
    · exact .inl ((beginInput_keeps s hk raw).trans (judge_keeps _ hk))
  | requoted p stats => exact .inr (requote_judged s p stats k)
  | turned turn => exact .inl (withSlot_keeps s _ k _)
  | settled receipt p _ => exact .inr (settledWith_judged s _ receipt p k)

/-- A verdict is kept with all it depends on, or it is a new one. -/
theorem Effect.keeps_or_judged {s s' : State} (h : s.Effect s') (k : Kind) : Keeps k s s' ∨ s'.Judged k := by
  cases h with
  | worked h => exact h.keeps_or_judged k
  | _ =>
    left
    cases k <;> exact ⟨rfl, rfl, rfl⟩

/-- An action that was not settled and now is has had both forms judged anew. -/
theorem Effect.judged_of_settled {s s' : State} (h : s.Effect s') {kind : Kind} {r : Receipt}
    (hs : ∀ r, s.phase kind ≠ .settled r) (hs' : s'.phase kind = .settled r) (k : Kind) : s'.Judged k := by
  cases h with
  | worked h =>
    rcases h.slot_or_settled with hslot | ⟨_, _, p, rfl⟩
    · rcases hslot kind with he | turn
      · exact absurd ((congrArg Slot.phase he).symm.trans hs') (hs r)
      · exact absurd hs' (turn.phase_ne_settled r)
    · exact settledWith_judged s _ _ p k
  | _ => cases kind <;> exact absurd hs' (hs r)

end State

namespace Desk

theorem step_keeps_or_judged (d : Desk) (step : Step) (k : Kind) :
    (∃ raw, step = .act (.beginInput k raw)) ∨ State.Keeps k d.session.state (d.step step).session.state ∨
      (d.step step).session.state.Judged k := by
  rcases d.step_effect step with ⟨kind, raw, rfl⟩ | h
  · by_cases hk : k = kind
    · exact .inl ⟨raw, by rw [hk]⟩
    · exact .inr (.inl (State.beginInput_keeps _ hk raw))
  · exact .inr (h.keeps_or_judged k)

/-! ## The end of a wait -/

/-- The step ends the wait for a verdict on the form: its input is completed, replaced or begun
anew, or a quote changes. -/
def Closes (d : Desk) (k : Kind) : Step → Prop
  | .act (.completeInput t) => t = ⟨k, (d.session.state.form k).generation⟩
  | .act (.setInput kind _) => kind = k
  | .act (.fillMax kind) => kind = k
  | .act (.beginInput kind _) => kind = k
  | step => d.posted step ≠ []

/-- The last input begun for the form still waits for its verdict after `history`. -/
def Awaiting (d : Desk) (history : List Step) (k : Kind) : Prop :=
  ∃ before raw after, history = before ++ .act (.beginInput k raw) :: after ∧
    ∀ mid step rest, after = mid ++ step :: rest →
      ¬ (d.run (before ++ .act (.beginInput k raw) :: mid)).Closes k step

theorem attempt_judged {ρ : Type} {s : Session} {toFault : ρ → Fault}
    {r : Except ρ (State × List Event)} {k : Kind} (hok : (s.attempt toFault r).2.isOk = true)
    (h : ∀ st es, r = .ok (st, es) → st.Judged k) :
    (s.attempt toFault r).1.state.Judged k := by
  cases hr : r with
  | error e => rw [hr] at hok; cases hok
  | ok x =>
    obtain ⟨st, es⟩ := x
    show (s.commit st es).state.Judged k
    rw [Session.commit_state]
    exact h st es hr

theorem takeSnapshot_judged {s : Session} {account : String} {snapshot : Snapshot}
    (hok : (s.takeSnapshot account (.ok snapshot)).2.isOk = true) (k : Kind) :
    (s.takeSnapshot account (.ok snapshot)).1.state.Judged k := by
  unfold Session.takeSnapshot at hok ⊢
  by_cases ha : s.state.connection.address? = some account
  · simp only [if_pos ha] at hok ⊢
    refine attempt_judged hok fun st es he => ?_
    obtain ⟨p, stats, rfl⟩ := State.applySnapshot_eq he
    exact State.requote_judged _ p stats k
  · simp only [if_neg ha] at hok
    cases hok

theorem judged_of_taken {d : Desk} {step : Step} {q : Quote} (h : d.taken? step = some q) (k : Kind) :
    (d.step step).session.state.Judged k := by
  unfold taken? at h
  split at h
  · split at h
    · rename_i hok
      exact attempt_judged hok fun st es he => by
        obtain ⟨p, stats, rfl⟩ := State.replaceQuote_eq he
        exact State.requote_judged _ p stats k
    · cases h
  · rename_i i snapshot now
    cases hf : d.flow? i with
    | none => simp [hf] at h
    | some f =>
      cases ha : f.account? with
      | none => simp [hf, ha] at h
      | some account =>
        obtain ⟨progress, he, _⟩ := d.session.resume_snapshot ha (.ok snapshot) now
        show (d.wake i (.reply (.snapshot (.ok snapshot))) now).session.state.Judged k
        rw [wake_eq hf, put_session, he]
        simp only [hf, ha, Option.bind_eq_bind, Option.bind_some] at h
        split at h
        · rename_i hok
          exact takeSnapshot_judged hok k
        · cases h
  · cases h

theorem settled?_eq_some {d d' : Desk} {kind : Kind} {r : Receipt} (h : d.settled? d' kind = some r) :
    (∀ r', d.session.state.phase kind ≠ .settled r') ∧ d'.session.state.phase kind = .settled r := by
  unfold settled? at h
  split at h
  · cases h
  · rename_i hs hn
    cases h
    exact ⟨hn, hs⟩
  · cases h

theorem judged_of_posted {d : Desk} {step : Step} (h : d.posted step ≠ []) (k : Kind) :
    (d.step step).session.state.Judged k := by
  cases ht : d.taken? step with
  | some q => exact judged_of_taken ht k
  | none =>
    obtain ⟨u, hu⟩ := List.exists_mem_of_ne_nil _ h
    simp only [posted, lines, ht, Option.toList_none, List.map_nil, List.nil_append, List.mem_map,
      List.mem_filterMap] at hu
    obtain ⟨r, ⟨kind, _, hr⟩, _⟩ := hu
    obtain ⟨hold, hnew⟩ := settled?_eq_some hr
    rcases d.step_effect step with ⟨kind', raw, rfl⟩ | he
    · have hslot : ((d.step (.act (.beginInput kind' raw))).session.state.form kind).slot =
          (d.session.state.form kind).slot := State.slot_withForm _ (by rfl) kind
      exact absurd ((congrArg Slot.phase hslot).symm.trans hnew) (hold r)
    · exact he.judged_of_settled hold hnew k

theorem judged_of_closes {d : Desk} {k : Kind} {step : Step} (h : d.Closes k step)
    (hb : ∀ raw, step ≠ .act (.beginInput k raw)) : (d.step step).session.state.Judged k := by
  unfold Closes at h
  split at h
  · rename_i t
    subst h
    show (d.session.completeInput _).1.state.Judged k
    simp only [Session.completeInput, State.completeInput, if_true, Session.commit_state]
    exact State.judge_judged _ k
  · rename_i kind raw
    subst h
    show (d.session.setInput kind raw).1.state.Judged kind
    rw [Session.setInput_state]
    exact State.judge_judged _ kind
  · rename_i kind
    subst h
    show (d.session.setInput kind _).1.state.Judged kind
    rw [Session.setInput_state]
    exact State.judge_judged _ kind
  · rename_i kind raw
    exact absurd (by rw [h]) (hb raw)
  · exact judged_of_posted h k

theorem awaiting_begun (d : Desk) (history : List Step) (k : Kind) (raw : String) :
    d.Awaiting (history ++ [.act (.beginInput k raw)]) k :=
  ⟨history, raw, [], rfl, fun mid _ _ h => by cases mid <;> cases h⟩

theorem Awaiting.snoc {d : Desk} {history : List Step} {k : Kind} (h : d.Awaiting history k) {step : Step}
    (hc : ¬ (d.run history).Closes k step) : d.Awaiting (history ++ [step]) k := by
  obtain ⟨before, raw, after, rfl, open_⟩ := h
  refine ⟨before, raw, after ++ [step], by simp, fun mid x rest he => ?_⟩
  rcases List.eq_nil_or_concat rest with rfl | ⟨rest', y, rfl⟩
  · obtain ⟨rfl, hx⟩ := List.append_inj' he rfl
    cases hx
    exact hc
  · rw [List.concat_eq_append, ← List.cons_append, ← List.append_assoc] at he
    obtain ⟨he', _⟩ := List.append_inj' he rfl
    exact open_ mid x rest' he'

theorem judged_or_awaiting {s : Session} (hs : s.state = .initial) (steps : List Step) (k : Kind) :
    ((ofSession s).run steps).session.state.Judged k ∨ (ofSession s).Awaiting steps k := by
  induction steps using List.reverseRecOn with
  | nil =>
    left
    show s.state.Judged k
    rw [hs]
    cases k <;> rfl
  | append_singleton history step ih =>
    rw [run_snoc]
    by_cases hb : ∃ raw, step = .act (.beginInput k raw)
    · obtain ⟨raw, rfl⟩ := hb
      exact .inr (awaiting_begun _ history k raw)
    · by_cases hc : ((ofSession s).run history).Closes k step
      · exact .inl (judged_of_closes hc fun raw he => hb ⟨raw, he⟩)
      · -- whatever waited goes on waiting, and a verdict that was fresh stays so
        rcases (((ofSession s).run history).step_keeps_or_judged step k).resolve_left hb with hk | hj
        · exact ih.imp hk.judged fun ha => ha.snoc hc
        · exact .inl hj

/-- Every form shows the verdict on its text against the position, but for an input that waits for it. -/
theorem verdicts_are_fresh {settings : Settings} {s : Session} (hs : Session.open? settings = .ok s)
    (steps : List Step) (k : Kind) (h : ¬ (ofSession s).Awaiting steps k) :
    ((ofSession s).run steps).session.state.Judged k :=
  (judged_or_awaiting (Session.open?_eq hs).1 steps k).resolve_right h

theorem not_awaiting_of_closes {d : Desk} {history : List Step} {k : Kind} {step : Step}
    (hc : (d.run history).Closes k step) (hb : ∀ raw, step ≠ .act (.beginInput k raw)) :
    ¬ d.Awaiting (history ++ [step]) k := by
  rintro ⟨before, raw, after, he, open_⟩
  rcases List.eq_nil_or_concat after with rfl | ⟨mid, y, rfl⟩
  · obtain ⟨_, hx⟩ := List.append_inj' he rfl
    cases hx
    exact hb raw rfl
  · rw [List.concat_eq_append, ← List.cons_append, ← List.append_assoc] at he
    obtain ⟨rfl, hx⟩ := List.append_inj' he rfl
    cases hx
    exact open_ mid step [] (by simp) hc

/-- An input begun for a withdrawal is judged when the deposit settles. -/
theorem verdicts_are_fresh_visit :
    ¬ ((ofSession newSession).run (visit ++ [.act (.beginInput .withdraw "13000")])).session.state.Judged
      .withdraw ∧ ((ofSession newSession).run (visit ++ [.act (.beginInput .withdraw "13000")] ++
        [.wake 1 (.reply (.confirmation (.ok ()))) .epoch])).session.state.Judged .withdraw := by
  have settles : ((ofSession newSession).run (visit ++ [.act (.beginInput .withdraw "13000")])).posted
      (.wake 1 (.reply (.confirmation (.ok ()))) .epoch) ≠ [] := by decide +kernel
  exact ⟨by decide +kernel, verdicts_are_fresh (show Session.open? .standard = .ok newSession from rfl) _ _
    (not_awaiting_of_closes settles fun _ h => by cases h)⟩

end Desk

end YieldVault
