import YieldVault.Proofs.Amount.Nearest

/-!
# Sums and products

Sums, differences and products are the nearest amounts to the exact ones, and there is none only where
the exact one is out of range. So a sum that some amount stands for is exact, and a product at most as
large as one that there is exists too.
-/

namespace YieldVault.Amount

/-! ## Sums -/

theorem raised_cast (a : Amount) {s : Nat} (h : a.scale ≤ s) : (a.raised s : ℚ) = a.value * 10 ^ s := by
  have hs : (10 : ℚ) ^ s = 10 ^ a.scale * 10 ^ (s - a.scale) := by rw [← pow_add, Nat.add_sub_cancel' h]
  have hp : (10 : ℚ) ^ a.scale ≠ 0 := by positivity
  unfold raised
  push_cast
  rw [tenPow_cast, value_eq, hs]
  field_simp

theorem add?_fits (a b : Amount) : Fits (a.value + b.value) (a.add? b) := by
  unfold add?
  split
  · rename_i ha
    rw [value_of_isZero ha, zero_add]
    exact .exact b
  · split
    · rename_i hb
      rw [value_of_isZero hb, add_zero]
      exact .exact a
    · -- at the larger scale both are whole numbers of steps
      have hp : (10 : ℚ) ^ max a.scale b.scale ≠ 0 := by positivity
      have hx : a.value + b.value =
          decimal (a.raised (max a.scale b.scale) + b.raised (max a.scale b.scale) < 0)
          (a.raised (max a.scale b.scale) + b.raised (max a.scale b.scale)).natAbs (max a.scale b.scale) := by
        rw [decimal_ofInt]
        push_cast
        rw [raised_cast a (le_max_left ..), raised_cast b (le_max_right ..)]
        field_simp
      rw [hx]
      exact fit_fits ..

theorem sub?_fits (a b : Amount) : Fits (a.value - b.value) (a.sub? b) := by
  unfold sub?
  split
  · rename_i hb
    rw [value_of_isZero hb, sub_zero]
    split
    · rename_i ha
      rw [value_of_isZero ha, ← value_of_isZero hb]
      exact .exact b
    · exact .exact a
  · rw [sub_eq_add_neg, ← value_neg]
    exact add?_fits a b.neg

/-- Between amounts of one sign there is always a difference. -/
theorem saturatingSub_nearest {a b : Amount} (ha : 0 ≤ a.value) (hb : 0 ≤ b.value) :
    Nearest (a.value - b.value) (a.saturatingSub b).value := by
  have h := sub?_fits a b
  have hn : ¬ Overflows (a.value - b.value) := by
    intro ho
    rcases le_total a.value b.value with hab | hab
    · refine b.not_overflows_value (ho.mono ?_)
      rw [abs_of_nonpos (by linarith), abs_of_nonneg hb]
      linarith
    · refine a.not_overflows_value (ho.mono ?_)
      rw [abs_of_nonneg (by linarith), abs_of_nonneg ha]
      linarith
  cases hs : a.sub? b with
  | none => exact absurd (h.eq_none_iff.mp hs) hn
  | some c =>
    unfold saturatingSub
    rw [hs]
    exact h.nearest hs

/-! ## Products -/

theorem value_mul (a b : Amount) :
    a.value * b.value = decimal (a.negative != b.negative) (a.coeff * b.coeff) (a.scale + b.scale) := by
  have ha : (10 : ℚ) ^ a.scale ≠ 0 := by positivity
  have hb : (10 : ℚ) ^ b.scale ≠ 0 := by positivity
  unfold value decimal
  rw [pow_add]
  cases a.negative <;> cases b.negative <;> push_cast <;> simp <;> field_simp

/-- Coefficients of one machine word have a product that is far from the bound. -/
theorem word_mul_lt {a b : Nat} (ha : a < wordBound) (hb : b < wordBound) : a * b < 18446744073709551616 := by
  have h :=
    Nat.mul_le_mul (Nat.le_of_lt_succ (Nat.lt_of_lt_of_le ha (by decide : wordBound ≤ 4294967295 + 1)))
    (Nat.le_of_lt_succ (Nat.lt_of_lt_of_le hb (by decide : wordBound ≤ 4294967295 + 1)))
  omega

theorem not_overflows_of_lt (n : Bool) {m : Nat} (s : Nat) (h : m < 18446744073709551616) :
    ¬ Overflows (decimal n m s) := by
  have hp := tenPow_pos s
  have hm := Nat.mul_le_mul_left (2 * bound - 1) hp
  rw [overflows_decimal_iff]
  unfold bound at *
  omega

/-- The product of two words, behind whose last digit there is only zero. -/
theorem word_product_fits (n : Bool) {m s : Nat} (hm : m < 18446744073709551616) :
    Fits (decimal n m s)
      (if vanishing ≤ s then some zero
      else if maxScale < s then
        make? (n && halfEven m (s - maxScale) != 0) (halfEven m (s - maxScale)) maxScale
      else make? n m s) := by
  have hn : ∀ d, ¬ Overflows (decimal n m d) := fun d => not_overflows_of_lt n d hm
  rcases Nat.lt_or_ge maxScale s with hs | hs
  · obtain ⟨d, rfl⟩ : ∃ d, s = d + maxScale := ⟨s - maxScale, by omega⟩
    rw [Nat.add_sub_cancel, if_pos hs]
    split
    · rename_i hv
      have hd : 20 ≤ d := by unfold vanishing maxScale at hv; omega
      have hz : zero.value = decimal n 0 maxScale := by rw [value_zero, decimal_zero]
      refine .near (hn _)
        ⟨maxScale, le_rfl, hz ▸ rounds_decimal n ⟨?_, fun _ => Nat.dvd_zero 2⟩ (hn d) (.inr (.inl rfl))⟩
      have hp : (10 : ℚ) ^ 20 ≤ 10 ^ d := pow_le_pow_right₀ (by norm_num) hd
      have hm' : (m : ℚ) ≤ 18446744073709551616 := by exact_mod_cast hm.le
      rw [Nat.cast_zero, zero_sub, abs_neg, abs_of_nonneg (by positivity), div_le_iff₀ (by positivity)]
      linarith
    · refine .make ?_ le_rfl ?_
      · have hle := halfEven_le m d
        have hdiv := Nat.div_le_self m (tenPow d)
        unfold bound
        omega
      · rw [decimal_and n _ (fun h => by simpa using h)]
        exact rounds_decimal n (halfEven_near m d) (hn d) (.inr (.inl rfl))
  · have hv : ¬ vanishing ≤ s := by unfold vanishing; unfold maxScale at hs; omega
    rw [if_neg hv, if_neg (not_lt.mpr hs)]
    have room : ¬ Overflows (decimal n m s * 10 ^ s) := by
      have h₀ := decimal_mul_pow n m 0 s
      rw [Nat.zero_add] at h₀
      rw [h₀]
      exact hn 0
    refine .make ?_ hs ⟨onGrid_decimal .., by simp, by simp, room, .inl rfl⟩
    unfold bound
    omega

theorem product?_fits (a b : Amount) : Fits (a.value * b.value) (a.product? b) := by
  unfold product?
  split
  · rename_i hz
    have hv : a.value * b.value = zero.value := by
      rw [value_zero, mul_eq_zero]
      rw [Bool.or_eq_true] at hz
      exact hz.imp value_of_isZero value_of_isZero
    rw [hv]
    exact .exact zero
  · rw [value_mul]
    dsimp only
    split
    · rename_i hw
      exact word_product_fits _ (word_mul_lt hw.1 hw.2)
    · exact fit_fits ..

theorem mul?_eq_none_iff {a b : Amount} : a.mul? b = none ↔ Overflows (a.value * b.value) := by
  unfold mul?
  rw [Option.map_eq_none_iff]
  exact (product?_fits a b).eq_none_iff

theorem mul?_rounded {a b c : Amount} (h : a.mul? b = some c) : Rounded (a.value * b.value) c := by
  obtain ⟨m, hm, rfl⟩ := Option.map_eq_some_iff.mp h
  exact ⟨m, (product?_fits a b).nearest hm, rfl⟩

end YieldVault.Amount
