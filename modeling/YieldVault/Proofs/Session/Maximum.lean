import YieldVault.Proofs.Amount.Display
import YieldVault.Proofs.Session.Effect
import YieldVault.Proofs.Verdict.Limit

/-!
# The most that a form takes

A form is filled with what its action can draw on, as a text that is read again before it is judged. On the
way it is cut down and never rounded, so what comes back is not past what there is, and the rule that compares
the two has nothing to object to.
-/

namespace YieldVault

open Amount

namespace Session

variable (s : Session) (kind : Kind) (raw : String)

theorem setInput_verdict : (s.setInput kind raw).2 = s.state.verdictFor kind raw := by
  have h := State.completeInput_beginInput s.state kind raw
  simp only [setInput, beginInput, completeInput, h, Option.getD_some]
  simp only [State.verdictFor, State.beginInput, State.withForm_position]

theorem setInput_form : (s.setInput kind raw).1.state.form kind =
    ⟨raw, (s.state.form kind).generation + 1, s.state.verdictFor kind raw, (s.state.form kind).slot⟩ := by
  rw [setInput_state]
  simp only [State.judge, State.beginInput, State.form_withForm, State.verdictFor, State.withForm_position]

theorem setInput_form_of_ne {k : Kind} (h : k ≠ kind) :
    (s.setInput kind raw).1.state.form k = s.state.form k := by
  rw [setInput_state]
  simp only [State.judge, State.beginInput, State.form_withForm_of_ne _ h]

end Session

/-- The digits behind the point with which a form is filled. -/
def Kind.fillPlaces : Kind → Nat
  | .deposit => places
  | .withdraw => 2

theorem State.ofText_maximum {s : State} {p : Position} (h : s.position = some p) (kind : Kind) :
    ∃ a, Entry.ofText (s.maximum kind) = .value a ∧
      a.value = cutDown kind.fillPlaces (p.holding kind).value := by
  cases kind with
  | deposit =>
    obtain ⟨a, ha, hv⟩ := Entry.ofText_display p.quote.walletBalance
    rw [abs_of_nonneg p.consistent.wallet_nonneg] at hv
    refine ⟨a, ?_, hv⟩
    simpa only [maximum, h] using ha
  | withdraw =>
    obtain ⟨a, ha, hv⟩ := Entry.ofText_display (p.userValue.truncate 2)
    have grid : OnGrid places (cutDown 2 p.userValue.value) := (onGrid_cutDown 2 _).mono (by decide)
    rw [value_truncate p.userValue_nonneg, abs_of_nonneg (cutDown_nonneg 2 p.userValue_nonneg),
      cutDown_of_onGrid grid] at hv
    refine ⟨a, ?_, hv⟩
    simpa only [maximum, h] using ha

namespace Session

section
variable (s : Session) {p : Position} (quoted : s.state.position = some p) (kind : Kind)

include quoted

/-- What a filled form holds and how it is judged. -/
theorem fillMax_fills :
    ∃ a, Entry.ofText ((s.fillMax kind).1.state.form kind).input = .value a ∧
      a.value = cutDown kind.fillPlaces (p.holding kind).value ∧
      ((s.fillMax kind).1.state.form kind).verdict = (s.fillMax kind).2 ∧
      (s.fillMax kind).2 = Verdict.judge kind (.value a) p := by
  obtain ⟨a, ha, hv⟩ := State.ofText_maximum quoted kind
  have hj : s.state.verdictFor kind (s.state.maximum kind) = Verdict.judge kind (.value a) p := by
    simp only [State.verdictFor, quoted, ha]
  unfold fillMax
  rw [setInput_form, setInput_verdict, hj]
  exact ⟨a, ha, hv, rfl, rfl⟩

/-- A form that is filled up asks for no more than there is, cut down to cents for a withdrawal, and
leaves the other form alone. -/
theorem maximum_never_overshoots :
    (∃ a, Entry.ofText ((s.fillMax .withdraw).1.state.form .withdraw).input = .value a ∧
      a.value = cutDown 2 p.userValue.value ∧
      ((s.fillMax .withdraw).1.state.form .withdraw).verdict = (s.fillMax .withdraw).2 ∧
      ((s.fillMax .withdraw).2.isValid = true ↔ 0 < a.value ∧ (p.sharesFor a).isSome = true) ∧
      ∀ available preview, (s.fillMax .withdraw).2 ≠ .refused (.overPosition available) preview) ∧
    (∃ a, Entry.ofText ((s.fillMax .deposit).1.state.form .deposit).input = .value a ∧
      a.value = cutDown 9 p.quote.walletBalance.value ∧
      (OnGrid 9 p.quote.walletBalance.value → a.value = p.quote.walletBalance.value) ∧
      ((s.fillMax .deposit).1.state.form .deposit).verdict = (s.fillMax .deposit).2 ∧
      ∀ balance preview, (s.fillMax .deposit).2 ≠ .refused (.overWallet balance) preview) ∧
    ∀ kind other, other ≠ kind → (s.fillMax kind).1.state.form other = s.state.form other := by
  refine ⟨?_, ?_, fun kind other h => s.setInput_form_of_ne kind _ h⟩
  · obtain ⟨a, ha, hv, hstored, hj⟩ := s.fillMax_fills quoted .withdraw
    have le : a.value ≤ (p.holding .withdraw).value := hv ▸ cutDown_le ..
    have fits : Verdict.objection? .withdraw a p = none := by
      have hlt : ¬ p.userValue < a := lt_iff_value.not.mpr (not_lt.mpr le)
      simp only [Verdict.objection?, if_neg hlt]
    refine ⟨a, ha, hv, hstored, ?_, fun available preview => ?_⟩
    · rw [hj, Verdict.judge_isValid_iff, isPositive_iff, and_iff_left fits]
    · rw [hj]
      exact Verdict.not_overdrawn le rfl
  · obtain ⟨a, ha, hv, hstored, hj⟩ := s.fillMax_fills quoted .deposit
    have le : a.value ≤ (p.holding .deposit).value := hv ▸ cutDown_le ..
    refine ⟨a, ha, hv, fun grid => hv.trans (cutDown_of_onGrid grid), hstored, fun balance preview => ?_⟩
    rw [hj]
    exact Verdict.not_overdrawn le rfl

end

/-- `1.23456789191` in the wallet and `12450.5159` in the vault. -/
def oddHoldings : Position where
  quote := ⟨ofInt64 1, Position.ampleCap, zero, zero, ⟨false, 123456789191, 11, by decide, by decide⟩,
    steps 12450515900000 (by decide)⟩
  userValue := steps 12450515900000 (by decide)
  sound := by decide +kernel
  value_eq := by decide +kernel

def oddSession : Session :=
  ⟨.standard, { State.initial with position := some oddHoldings }, .none, .silent, 0, [], 0⟩

theorem maximum_never_overshoots_odd :
    (∃ a, Entry.ofText "12450.51" = .value a ∧ a.value = cutDown 2 oddHoldings.userValue.value ∧
      ((oddSession.fillMax .withdraw).2.isValid = true ↔ 0 < a.value ∧
        (oddHoldings.sharesFor a).isSome = true)) ∧
    ∃ a, Entry.ofText "1.23456789191" = .value a ∧ a.value = cutDown 9 oddHoldings.quote.walletBalance.value ∧
      ∀ balance preview, (oddSession.fillMax .deposit).2 ≠ .refused (.overWallet balance) preview := by
  obtain ⟨⟨a, ha, hv, _, valid, _⟩, ⟨b, hb, hw, _, _, never⟩, _⟩ := oddSession.maximum_never_overshoots rfl
  have cents : ((oddSession.fillMax .withdraw).1.state.form .withdraw).input = "12450.51" := by decide +kernel
  have whole : ((oddSession.fillMax .deposit).1.state.form .deposit).input = "1.23456789191" := by
    decide +kernel
  rw [cents] at ha
  rw [whole] at hb
  exact ⟨⟨a, ha, hv, valid⟩, b, hb, hw, never⟩

end Session

end YieldVault
