import YieldVault.Proofs.Amount.Display
import YieldVault.Proofs.Verdict.Limit

/-!
# The advice of the cap warning

A deposit past the cap is answered by a warning that names what the cap still takes. The warning comes
last: an amount that gets it is not below the minimum, the wallet has it and its shares are in range.
Whatever is below such an amount is in the wallet too and has shares in range. So the number that is
named can be typed in. It is read without what stands behind its ninth decimal, and is then accepted if
it does not fall below the minimum.
-/

namespace YieldVault

open Amount

theorem Position.remainingCap_nonneg (p : Position) : 0 ≤ p.remainingCap.value := by
  unfold Position.remainingCap
  rw [value_max, value_zero]
  exact le_max_right _ _

theorem Objection.eq_overCap_of_severity {o : Objection} (h : o.severity = .warning) :
    ∃ remaining, o = .overCap remaining := by
  cases o with
  | overCap remaining => exact ⟨remaining, rfl⟩
  | _ => cases h

theorem Objection.message_overCap_inj {remaining : Amount} {text : String}
    (h : (Objection.overCap remaining).message = "exceeds vault cap; max additional = " ++ text ++ " USDC") :
    text = remaining.display := by
  unfold message at h
  have hlead := (String.append_left_inj " USDC").mp h
  exact ((String.append_right_inj "exceeds vault cap; max additional = ").mp hlead).symm

namespace Verdict

variable {p : Position} {a x : Amount}

/-! ## Where the warning comes from -/

theorem objection?_eq_overCap_iff {kind : Kind} {remaining : Amount} :
    objection? kind a p = some (.overCap remaining) ↔
      kind = .deposit ∧ remaining = p.remainingCap ∧ p.quote.minDeposit.value ≤ a.value ∧
        a.value ≤ p.quote.walletBalance.value ∧ p.remainingCap.value < a.value := by
  cases kind with
  | withdraw =>
    simp only [objection?]
    split_ifs <;> simp
  | deposit =>
    simp only [objection?, lt_iff_value]
    split_ifs with hmin hwallet hcap
    · simp [not_le.mpr hmin]
    · simp [not_le.mpr hwallet]
    · simp [not_lt.mp hmin, not_lt.mp hwallet, hcap, eq_comm]
    · simp [hcap]

theorem objection?_of_warning {kind : Kind} {entry : Entry} (h : (judge kind entry p).severity = .warning) :
    ∃ a preview, judge kind entry p = .refused (.overCap p.remainingCap) preview ∧
      (p.sharesFor a).isSome = true ∧ objection? kind a p = some (.overCap p.remainingCap) := by
  cases hj : judge kind entry p with
  | silent => rw [hj] at h; cases h
  | accepted preview => rw [hj] at h; cases h
  | refused o preview =>
    rw [hj] at h
    obtain ⟨remaining, rfl⟩ := Objection.eq_overCap_of_severity h
    cases entry with
    | invalid => cases hj
    | value a =>
      obtain ⟨_, hs, ho⟩ := (judge_eq_refused_iff (by simp)).mp ⟨preview, hj⟩
      obtain rfl := (objection?_eq_overCap_iff.mp ho).2.1
      exact ⟨a, preview, rfl, hs, ho⟩

/-! ## What the cap leaves -/

/-- What a form says about an amount that wallet and cap have room for. -/
inductive Admits (p : Position) (x : Amount) : Verdict → Prop
  | nothing (zero : x.value = 0) : Admits p x .silent
  | small (pos : 0 < x.value) (below : x.value < p.quote.minDeposit.value) (preview : Option Preview) :
      Admits p x (.refused (.belowMinimum p.quote.minDeposit) preview)
  | enough (pos : 0 < x.value) (least : p.quote.minDeposit.value ≤ x.value) (preview : Preview) :
      Admits p x (.accepted preview)

theorem judge_admits (nonneg : 0 ≤ x.value) (shares : (p.sharesFor x).isSome = true)
    (wallet : x.value ≤ p.quote.walletBalance.value) (cap : x.value ≤ p.remainingCap.value) :
    Admits p x (judge .deposit (.value x) p) := by
  unfold judge
  by_cases hx : x.isPositive = true
  · obtain ⟨s, hs⟩ := Option.isSome_iff_exists.mp shares
    have hpos := isPositive_iff.mp hx
    simp only [if_pos hx, hs, objection?, lt_iff_value, if_neg (not_lt.mpr wallet), if_neg (not_lt.mpr cap)]
    by_cases hmin : x.value < p.quote.minDeposit.value
    · simp only [if_pos hmin]
      exact .small hpos hmin _
    · simp only [if_neg hmin]
      exact .enough hpos (not_lt.mp hmin) _
  · simp only [if_neg hx]
    exact .nothing (value_eq_zero_of_not_isPositive hx nonneg)

/-- The number that a cap warning names can be typed in: neither wallet nor cap object to it, nor is it out of
range. It is read exactly unless it has more than nine decimals. -/
theorem cap_advice_works {kind : Kind} {entry : Entry} {text : String}
    (warned : (judge kind entry p).severity = .warning)
    (named : (judge kind entry p).message = "exceeds vault cap; max additional = " ++ text ++ " USDC") :
    kind = .deposit ∧ text = p.remainingCap.display ∧
      ∃ x, Entry.ofText text = .value x ∧ x.value = cutDown 9 p.remainingCap.value ∧
        (OnGrid 9 p.remainingCap.value → (x == p.remainingCap) = true) ∧
        Admits p x (judge .deposit (Entry.ofText text) p) := by
  obtain ⟨a, preview, hj, hshares, hobj⟩ := objection?_of_warning warned
  obtain ⟨rfl, _, _, hwallet, hcap⟩ := objection?_eq_overCap_iff.mp hobj
  rw [hj] at named
  obtain rfl := Objection.message_overCap_inj named
  have hnonneg := p.remainingCap_nonneg
  obtain ⟨x, hread, hx⟩ := Entry.ofText_display p.remainingCap
  rw [abs_of_nonneg hnonneg] at hx
  have hle : x.value ≤ p.remainingCap.value := hx ▸ cutDown_le _ _
  have hlt : x.value < a.value := hle.trans_lt hcap
  refine ⟨rfl, rfl, x, hread, hx, fun grid => ?_, ?_⟩
  · rw [beq_iff_value, hx]
    exact cutDown_of_onGrid grid
  · obtain ⟨s, hs⟩ := Option.isSome_iff_exists.mp hshares
    obtain ⟨s', hs', _⟩ := p.sharesFor_converts.mono (le_iff_value.mpr hlt.le) hs
    rw [hread]
    exact judge_admits (hx ▸ cutDown_nonneg _ hnonneg) (by rw [hs']; rfl) (hlt.le.trans hwallet) hle

/-- At the price of one, the cap leaves `250.0000000000123`. -/
def fineCap : Position where
  quote := ⟨ofInt64 1, ⟨false, 2500000000000123, 13, by decide, by decide⟩, zero, ofInt64 10,
    Position.ampleCap, zero⟩
  userValue := zero
  sound := by decide +kernel
  value_eq := by decide +kernel

theorem cap_advice_works_fine :
    (judge .deposit (Entry.ofText "300") fineCap).message =
        "exceeds vault cap; max additional = 250.0000000000123 USDC" ∧
      ∃ x, Entry.ofText "250.0000000000123" = .value x ∧ x.value = cutDown 9 fineCap.remainingCap.value ∧
        Admits fineCap x (judge .deposit (Entry.ofText "250.0000000000123") fineCap) := by
  have message : (judge .deposit (Entry.ofText "300") fineCap).message =
      "exceeds vault cap; max additional = " ++ "250.0000000000123" ++ " USDC" := by decide +kernel
  obtain ⟨_, _, x, hread, hx, _, hadmits⟩ := cap_advice_works (by decide +kernel) message
  exact ⟨message, x, hread, hx, hadmits⟩

end Verdict

end YieldVault
