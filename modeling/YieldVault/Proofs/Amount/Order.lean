import Mathlib.Data.Rat.Floor
import YieldVault.Proofs.Amount.Nearest

/-!
# Rounding keeps the order

The two roundings that a product or a quotient goes through. The rounding to places depends on the value
alone: it gives the nearest multiple of the last digit, and of two the one away from zero; where digits are
dropped it is the nearest one towards zero. The digits that an amount has room for depend on the number, so
that two neighbours can be rounded on different grids; but the coarser grid starts only where the finer one
has ended. So both keep the order of numbers.
-/

namespace YieldVault

/-! ## To the nearest, a half away from zero -/

/-- The whole number nearest to `z`; of two, the one away from zero. -/
def wholeAway (z : ℚ) : ℤ := if 0 ≤ z then ⌊z + 1 / 2⌋ else ⌈z - 1 / 2⌉

/-- The multiple of `10 ^ -p` nearest to `x`; of two, the one away from zero. -/
def halfAway (p : Nat) (x : ℚ) : ℚ := wholeAway (x * 10 ^ p) / 10 ^ p

theorem wholeAway_of_nonneg {z : ℚ} (h : 0 ≤ z) : wholeAway z = ⌊z + 1 / 2⌋ := if_pos h

theorem wholeAway_neg (z : ℚ) : wholeAway (-z) = -wholeAway z := by
  have hneg : -z + 1 / 2 = -(z - 1 / 2) := by linarith
  have hpos : -z - 1 / 2 = -(z + 1 / 2) := by linarith
  unfold wholeAway
  rcases lt_trichotomy z 0 with h | rfl | h
  · rw [if_pos (by linarith), if_neg (not_le.mpr h), hneg, Int.floor_neg]
  · norm_num
  · rw [if_neg (by linarith), if_pos h.le, hpos, Int.ceil_neg]

theorem wholeAway_intCast (k : ℤ) : wholeAway k = k := by
  unfold wholeAway
  split
  · rw [Int.floor_eq_iff]
    constructor <;> linarith
  · rw [Int.ceil_eq_iff]
    constructor <;> linarith

theorem wholeAway_nonneg {z : ℚ} (h : 0 ≤ z) : 0 ≤ wholeAway z := by
  rw [wholeAway_of_nonneg h, Int.floor_nonneg]
  linarith

theorem wholeAway_mono {y z : ℚ} (h : y ≤ z) : wholeAway y ≤ wholeAway z := by
  rcases le_or_gt 0 y with hy | hy
  · rw [wholeAway_of_nonneg hy, wholeAway_of_nonneg (hy.trans h)]
    exact Int.floor_le_floor (by linarith)
  · rcases le_or_gt 0 z with hz | hz
    · -- zero stands between them
      have hny : 0 ≤ wholeAway (-y) := wholeAway_nonneg (by linarith)
      rw [wholeAway_neg] at hny
      have hnz := wholeAway_nonneg hz
      omega
    · unfold wholeAway
      rw [if_neg (not_le.mpr hy), if_neg (not_le.mpr hz)]
      exact Int.ceil_le_ceil (by linarith)

theorem halfAway_neg (p : Nat) (x : ℚ) : halfAway p (-x) = -halfAway p x := by
  unfold halfAway
  rw [neg_mul, wholeAway_neg, Int.cast_neg, neg_div]

theorem halfAway_mono (p : Nat) {x y : ℚ} (h : x ≤ y) : halfAway p x ≤ halfAway p y := by
  have hp : (0 : ℚ) < 10 ^ p := by positivity
  have hw := wholeAway_mono (mul_le_mul_of_nonneg_right h hp.le)
  unfold halfAway
  gcongr

theorem halfAway_of_onGrid {p : Nat} {x : ℚ} (h : OnGrid p x) : halfAway p x = x := by
  obtain ⟨k, hk⟩ := h
  have hp : (10 : ℚ) ^ p ≠ 0 := by positivity
  unfold halfAway
  rw [hk, wholeAway_intCast, ← hk, mul_div_cancel_right₀ _ hp]

/-! ## The rest dropped -/

/-- The largest multiple of `10 ^ -p` that is not above `x`. -/
def cutDown (p : Nat) (x : ℚ) : ℚ := ⌊x * 10 ^ p⌋ / 10 ^ p

theorem cutDown_le (p : Nat) (x : ℚ) : cutDown p x ≤ x := by
  unfold cutDown
  rw [div_le_iff₀ (by positivity)]
  exact Int.floor_le _

theorem onGrid_cutDown (p : Nat) (x : ℚ) : OnGrid p (cutDown p x) := by
  have hp : (10 : ℚ) ^ p ≠ 0 := by positivity
  exact ⟨⌊x * 10 ^ p⌋, div_mul_cancel₀ _ hp⟩

theorem cutDown_nonneg (p : Nat) {x : ℚ} (h : 0 ≤ x) : 0 ≤ cutDown p x := by
  have hf : 0 ≤ ⌊x * 10 ^ p⌋ := Int.floor_nonneg.mpr (by positivity)
  unfold cutDown
  positivity

theorem cutDown_of_onGrid {p : Nat} {x : ℚ} (h : OnGrid p x) : cutDown p x = x := by
  obtain ⟨k, hk⟩ := h
  have hp : (10 : ℚ) ^ p ≠ 0 := by positivity
  unfold cutDown
  rw [hk, Int.floor_intCast, ← hk, mul_div_cancel_right₀ _ hp]

/-- What is rounded up has at least a half behind the digits that it keeps. -/
theorem lt_halfAway_iff (p : Nat) {x : ℚ} (h : 0 ≤ x) :
    x < halfAway p x ↔ cutDown p x + 1 / 2 / 10 ^ p ≤ x := by
  have hp : (0 : ℚ) < 10 ^ p := by positivity
  have hz : 0 ≤ x * 10 ^ p := by positivity
  unfold halfAway cutDown
  rw [wholeAway_of_nonneg hz, lt_div_iff₀ hp, ← add_div, div_le_iff₀ hp]
  generalize x * 10 ^ p = z
  have hlow := Int.floor_le z
  have hhigh := Int.lt_floor_add_one z
  constructor
  · intro hup
    by_contra hc
    have hdown : ⌊z + 1 / 2⌋ = ⌊z⌋ := by
      rw [Int.floor_eq_iff]
      constructor <;> linarith
    rw [hdown] at hup
    linarith
  · intro hhalf
    have hup : ⌊z + 1 / 2⌋ = ⌊z⌋ + 1 := by
      rw [Int.floor_eq_iff]
      push_cast
      constructor <;> linarith
    rw [hup]
    push_cast
    exact hhigh

namespace Amount

theorem halfUp_eq (m d : Nat) : wholeAway (m / 10 ^ d) = halfUp m d := by
  have hp := tenPow_pos d
  have hr := Nat.mod_lt m hp
  rw [wholeAway_of_nonneg (by positivity), ← tenPow_cast, cast_div_eq m hp, Int.floor_eq_iff,
    Int.cast_natCast]
  unfold halfUp
  dsimp only
  generalize m / tenPow d = q
  generalize m % tenPow d = r at hr ⊢
  split
  · rename_i h
    have hge := half_le_fraction hp h
    have hlt := fraction_lt_one hr
    push_cast
    constructor <;> linarith
  · rename_i h
    have hlt := fraction_lt_half hp (not_le.mp h)
    have hge : (0 : ℚ) ≤ r / (tenPow d : Nat) := by positivity
    constructor <;> linarith

theorem halfAway_decimal (n : Bool) (m d p : Nat) :
    halfAway p (decimal n m (d + p)) = decimal n (halfUp m d) p := by
  have hf : halfAway p (decimal false m (d + p)) = decimal false (halfUp m d) p := by
    unfold halfAway
    rw [decimal_mul_pow, decimal, if_neg Bool.false_ne_true, halfUp_eq]
    rfl
  cases n with
  | false => exact hf
  | true =>
    have hneg := decimal_not false
    rw [Bool.not_false] at hneg
    rw [hneg, hneg, halfAway_neg, hf]

theorem cutDown_decimal (m d p : Nat) :
    cutDown p (decimal false m (d + p)) = decimal false (m / tenPow d) p := by
  have hp := tenPow_pos d
  have hf : ⌊decimal false m d⌋ = (m / tenPow d : Nat) := by
    have hr := fraction_lt_one (Nat.mod_lt m hp)
    have h₀ : (0 : ℚ) ≤ (m % tenPow d : Nat) / (tenPow d : Nat) := by positivity
    rw [decimal, if_neg Bool.false_ne_true, ← tenPow_cast, cast_div_eq m hp, Int.floor_eq_iff,
      Int.cast_natCast]
    constructor <;> linarith
  unfold cutDown
  rw [decimal_mul_pow, hf]
  rfl

/-- The rounding to places is the one of the values. -/
theorem value_round (a : Amount) (p : Nat) : (a.round p).value = halfAway p a.value := by
  rcases Nat.lt_or_ge p a.scale with h | h
  · have hv : a.value = decimal a.negative a.coeff (a.scale - p + p) := by rw [Nat.sub_add_cancel h.le]; rfl
    rw [round_value a h, hv, halfAway_decimal]
  · rw [round_of_scale_le h, halfAway_of_onGrid (a.value_onGrid h)]

theorem value_of_nonneg {a : Amount} (h : 0 ≤ a.value) : a.value = decimal false a.coeff a.scale := by
  rw [← abs_of_nonneg h, abs_value]
  rfl

/-- What is not below zero is cut down. -/
theorem value_truncate {a : Amount} (h : 0 ≤ a.value) (p : Nat) :
    (a.truncate p).value = cutDown p a.value := by
  rcases Nat.lt_or_ge p a.scale with hs | hs
  · have hv : a.value = decimal false a.coeff (a.scale - p + p) := by
      rw [Nat.sub_add_cancel hs.le, value_of_nonneg h]
    have hn : (a.truncate p).value = decimal false (a.coeff / tenPow (a.scale - p)) p := by
      rw [truncate, reduce_value _ _ a hs]
      cases hneg : a.negative with
      | false => rfl
      | true =>
        have hz : a.coeff = 0 := by
          have hn : ¬ a.isNegative = true := isNegative_iff.not.mpr (not_lt.mpr h)
          simpa [isNegative, isZero, hneg] using hn
        rw [hz, Nat.zero_div, decimal_zero, decimal_zero]
    rw [hn, hv, cutDown_decimal]
  · rw [truncate, reduce_of_scale_le _ _ hs, cutDown_of_onGrid (a.value_onGrid hs)]

/-! ## As many digits as there is room for -/

variable {t : Nat} {x x' y y' : ℚ}

/-- On one grid, only a number halfway could go both ways, and it goes to the even side. -/
theorem Rounds.mono (h : Rounds t x y) (h' : Rounds t x' y') (hle : x ≤ x') : y ≤ y' := by
  have hp : (0 : ℚ) < 10 ^ t := by positivity
  obtain ⟨k, hk⟩ := h.grid
  obtain ⟨l, hl⟩ := h'.grid
  have hk' : |y - x| * 10 ^ t = |k - x * 10 ^ t| := by rw [← hk, ← sub_mul, abs_mul, abs_of_pos hp]
  have hl' : |y' - x'| * 10 ^ t = |l - x' * 10 ^ t| := by rw [← hl, ← sub_mul, abs_mul, abs_of_pos hp]
  have hx := mul_le_mul_of_nonneg_right hle hp.le
  have near := abs_le.mp (hk' ▸ h.near)
  have near' := abs_le.mp (hl' ▸ h'.near)
  by_contra hc
  have hlt : l + 1 ≤ k := by
    have hlt := mul_lt_mul_of_pos_right (not_le.mp hc) hp
    rw [hk, hl] at hlt
    exact_mod_cast hlt
  have hlt' : (l : ℚ) + 1 ≤ k := by exact_mod_cast hlt
  -- both are halfway between the two neighbours, which cannot both be even
  have up : (k : ℚ) - x * 10 ^ t = 1 / 2 := by linarith
  have down : (l : ℚ) - x' * 10 ^ t = -(1 / 2) := by linarith
  obtain ⟨e, he⟩ := h.even (by rw [hk', up]; norm_num)
  obtain ⟨e', he'⟩ := h'.even (by rw [hl', down]; norm_num)
  have hke : (k : ℚ) = 2 * e := by rw [← hk, ← he]; ring
  have hle : (l : ℚ) = 2 * e' := by rw [← hl, ← he']; ring
  have hke' : k = 2 * e := by exact_mod_cast hke
  have hle' : l = 2 * e' := by exact_mod_cast hle
  have hnext : (k : ℚ) ≤ l + 1 := by linarith
  have hnext' : k ≤ l + 1 := by exact_mod_cast hnext
  omega

/-- The digits that an amount keeps of a number above zero keep the order. -/
theorem Nearest.mono (h : Nearest x y) (h' : Nearest x' y') (h₀ : 0 ≤ x) (hle : x ≤ x') : y ≤ y' := by
  have hb' := h'.nonneg (h₀.trans hle)
  obtain ⟨b, rfl⟩ := h.representable
  obtain ⟨b', rfl⟩ := h'.representable
  by_contra hc
  -- neither rounding crosses the amount that the other one comes to
  have hup : x' < b.value := by
    by_contra hb
    exact hc (h'.value_le (not_lt.mp hb))
  have hdown : b'.value < x := by
    by_contra hb
    exact hc (h.le_value (not_lt.mp hb))
  obtain ⟨s, hs, hr⟩ := h
  obtain ⟨t, ht, hr'⟩ := h'
  rcases lt_trichotomy s t with hst | rfl | hst
  · rcases hr.full with hexact | rfl | full
    · linarith
    · omega
    · -- the larger number would have no room on its finer grid either
      refine hr'.room ((full.mul_pow hst).mono ?_)
      rw [abs_of_nonneg (by positivity), abs_of_nonneg (mul_nonneg (h₀.trans hle) (by positivity))]
      gcongr
  · exact hc (hr.mono hr' hle)
  · rcases hr'.full with hexact | rfl | full
    · linarith
    · omega
    · -- the smaller number is past what the larger one comes to, where the finer grid has ended
      have hpast := hr'.past full
      have hlt := mul_lt_mul_of_pos_right hdown (by positivity : (0 : ℚ) < 10 ^ (t + 1))
      have ho : Overflows (x * 10 ^ (t + 1)) := by
        rw [abs_of_nonneg hb'] at hpast
        unfold Overflows
        rw [abs_of_nonneg (by positivity)]
        linarith
      exact hr.room (ho.mul_pow hst)

/-- So what a product or a quotient above zero is rounded to keeps the order. -/
theorem Rounded.mono {c c' : Amount} (h : Rounded x c) (h' : Rounded x' c') (h₀ : 0 ≤ x) (hle : x ≤ x') :
    c.value ≤ c'.value := by
  obtain ⟨a, near, rfl⟩ := h
  obtain ⟨b, near', rfl⟩ := h'
  rw [value_round, value_round]
  exact halfAway_mono places (near.mono near' h₀ hle)

end Amount

end YieldVault
