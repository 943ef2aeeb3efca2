import YieldVault.Proofs.Amount.Arithmetic
import YieldVault.Proofs.Amount.Order
import YieldVault.Proofs.Amount.Quotient

/-!
# Rounding twice

A product or a quotient is rounded to what an amount can hold, and then to places. Below `10 ^ 18` an amount
can hold every midpoint between two steps, so the first rounding crosses none. But it can end on one: a
number just below a midpoint is lifted onto it, and the second rounding then takes it up a step. Everywhere
else the two roundings come to the one that takes the exact result to the nearest step.
-/

namespace YieldVault.Amount

/-- Halfway between the steps `k` and `k + 1`. -/
def midpoint (k : ℕ) : ℚ := (k + 1 / 2) / 10 ^ places

/-- What an amount can hold of `x` is a midpoint that is past `x`. -/
def Lifted (x : ℚ) : Prop := ∃ k : ℕ, |x| < midpoint k ∧ Nearest |x| (midpoint k)

/-- `z` is `x` to the nearest step, a half away from zero, but for the step that a lifted number gains. -/
structure RoundedTwice (x z : ℚ) : Prop where
  straight : ¬ Lifted x → z = halfAway places x
  lifted : Lifted x → z = halfAway places x + (if 0 ≤ x then 1 else -1) / 10 ^ places
  narrow : Lifted x → ∃ k : ℕ, |x| < midpoint k ∧ midpoint k - |x| ≤ 1 / 2 / 10 ^ 10

theorem midpoint_mul (k : ℕ) : midpoint k * 10 ^ places = k + 1 / 2 := by
  have hp : (10 : ℚ) ^ places ≠ 0 := by positivity
  unfold midpoint
  field_simp

theorem lt_midpoint_iff {x : ℚ} {k : ℕ} : x < midpoint k ↔ x * 10 ^ places < k + 1 / 2 := by
  rw [← midpoint_mul]
  exact (mul_lt_mul_iff_left₀ (by positivity)).symm

theorem midpoint_le_iff {x : ℚ} {k : ℕ} : midpoint k ≤ x ↔ k + 1 / 2 ≤ x * 10 ^ places := by
  rw [← midpoint_mul]
  exact (mul_le_mul_iff_left₀ (by positivity)).symm

/-- A midpoint has one digit more than a step. -/
theorem midpoint_representable {k : ℕ} (h : k ≤ 10 ^ 27) : Representable (midpoint k) := by
  have hk : midpoint k * 10 ^ 10 = ((10 * k + 5 : ℕ) : ℚ) := by
    norm_num [midpoint, places]
    ring
  have hb : 10 * k + 5 < bound := by
    unfold bound
    omega
  refine representable_of_room (t := 10) ⟨(10 * k + 5 : ℕ), by rw [hk, Int.cast_natCast]⟩ (by decide) ?_
  rw [abs_of_nonneg (by unfold midpoint; positivity), hk]
  exact_mod_cast hb

section
variable {x y : ℚ}

/-- The step that a number is rounded to, between the midpoints on either side of the number. -/
theorem exists_step (h₀ : 0 ≤ x) :
    ∃ n : ℕ, wholeAway (x * 10 ^ places) = n ∧
      (n : ℚ) - 1 / 2 ≤ x * 10 ^ places ∧ x * 10 ^ places < n + 1 / 2 := by
  have hx : 0 ≤ x * 10 ^ places := by positivity
  obtain ⟨n, hn⟩ := Int.eq_ofNat_of_zero_le (wholeAway_nonneg hx)
  have hfloor := hn
  rw [wholeAway_of_nonneg hx, Int.floor_eq_iff] at hfloor
  push_cast at hfloor
  refine ⟨n, hn, ?_, ?_⟩ <;> linarith

/-- Between the same midpoints, the upper one included. -/
theorem Nearest.between (h : Nearest x y) (h₀ : 0 ≤ x) (small : x < 10 ^ 18) {n : ℕ}
    (low : (n : ℚ) - 1 / 2 ≤ x * 10 ^ places) (high : x * 10 ^ places < n + 1 / 2) :
    (n : ℚ) - 1 / 2 ≤ y * 10 ^ places ∧ y ≤ midpoint n := by
  have hn : n ≤ 10 ^ 27 := by
    have hlt : (n : ℚ) < 10 ^ 27 + 1 := by
      unfold places at low
      linarith
    have hlt' : n < 10 ^ 27 + 1 := by exact_mod_cast hlt
    omega
  constructor
  · cases n with
    | zero =>
      have hy := h.nonneg h₀
      push_cast
      linarith [mul_nonneg hy (by positivity : (0 : ℚ) ≤ 10 ^ places)]
    | succ n =>
      obtain ⟨b, hb⟩ := midpoint_representable (k := n) (by omega)
      push_cast at low ⊢
      have hle := h.value_le (b := b) (by rw [hb, midpoint_le_iff]; linarith)
      rw [hb, midpoint_le_iff] at hle
      linarith
  · obtain ⟨b, hb⟩ := midpoint_representable hn
    have hle := h.le_value (b := b) (by rw [hb]; exact (lt_midpoint_iff.mpr high).le)
    rwa [hb] at hle

theorem Nearest.unique {y' : ℚ} (h : Nearest x y) (h' : Nearest x y') (h₀ : 0 ≤ x) : y = y' :=
  le_antisymm (h.mono h' h₀ le_rfl) (h'.mono h h₀ le_rfl)

/-- A lifted number is on the next midpoint above it. -/
theorem Nearest.lifted_iff (h : Nearest x y) (h₀ : 0 ≤ x) {n : ℕ} (low : (n : ℚ) - 1 / 2 ≤ x * 10 ^ places)
    (high : x * 10 ^ places < n + 1 / 2) (hy : y ≤ midpoint n) : Lifted x ↔ y = midpoint n := by
  unfold Lifted
  rw [abs_of_nonneg h₀]
  constructor
  · rintro ⟨k, hk, near⟩
    obtain rfl := h.unique near h₀
    have hkn : k ≤ n := by
      rw [midpoint_le_iff, midpoint_mul] at hy
      have hle : (k : ℚ) ≤ n := by linarith
      exact_mod_cast hle
    have hnk : n < k + 1 := by
      rw [lt_midpoint_iff] at hk
      have hlt : (n : ℚ) < k + 1 := by linarith
      exact_mod_cast hlt
    rw [show k = n by omega]
  · rintro rfl
    exact ⟨n, lt_midpoint_iff.mpr high, h⟩

theorem Nearest.roundedTwice (h : Nearest x y) (h₀ : 0 ≤ x) (small : x < 10 ^ 18) :
    RoundedTwice x (halfAway places y) := by
  obtain ⟨n, hn, low, high⟩ := exists_step h₀
  obtain ⟨low', high'⟩ := h.between h₀ small low high
  have hiff := h.lifted_iff h₀ low high high'
  have hy : 0 ≤ y * 10 ^ places := mul_nonneg (h.nonneg h₀) (by positivity)
  have hx : halfAway places x = n / 10 ^ places := by simp [halfAway, hn]
  refine ⟨?_, ?_, ?_⟩
  · intro hl
    have hlt : y < midpoint n := lt_of_le_of_ne high' (hiff.not.mp hl)
    rw [lt_midpoint_iff] at hlt
    have hw : wholeAway (y * 10 ^ places) = n := by
      rw [wholeAway_of_nonneg hy, Int.floor_eq_iff]
      push_cast
      constructor <;> linarith
    rw [hx, halfAway, hw]
    simp
  · intro hl
    have hw : wholeAway (y * 10 ^ places) = n + 1 := by
      rw [wholeAway_of_nonneg hy, hiff.mp hl, midpoint_mul, Int.floor_eq_iff]
      push_cast
      constructor <;> linarith
    rw [hx, halfAway, hw, if_pos h₀, ← add_div]
    simp
  · intro hl
    rw [abs_of_nonneg h₀]
    have hm := hiff.mp hl
    refine ⟨n, lt_midpoint_iff.mpr high, ?_⟩
    rw [← hm]
    have hle : |y| ≤ 7 * 10 ^ 18 + 1 := by
      have hmul := midpoint_mul n
      rw [← hm] at hmul
      rw [abs_of_nonneg (h.nonneg h₀)]
      unfold places at hmul low
      linarith
    exact (le_abs_self _).trans (h.error_le hle)

theorem RoundedTwice.of_neg {z : ℚ} (hx : x < 0) (h : RoundedTwice (-x) (-z)) : RoundedTwice x z := by
  have hl : Lifted (-x) ↔ Lifted x := by simp [Lifted]
  obtain ⟨straight, lifted, narrow⟩ := h
  rw [hl] at straight lifted narrow
  rw [halfAway_neg] at straight lifted
  rw [abs_neg] at narrow
  rw [if_pos (by linarith)] at lifted
  refine ⟨fun hn => neg_inj.mp (straight hn), fun hl => ?_, narrow⟩
  have hz := lifted hl
  rw [if_neg (not_le.mpr hx), neg_div]
  linarith

end

theorem Rounded.twice {x : ℚ} {c : Amount} (h : Rounded x c) (small : |x| < 10 ^ 18) :
    RoundedTwice x c.value := by
  obtain ⟨a, near, rfl⟩ := h
  rw [value_round]
  rcases le_or_gt 0 x with hx | hx
  · rw [abs_of_nonneg hx] at small
    exact near.roundedTwice hx small
  · rw [abs_of_neg hx] at small
    have hneg := near.neg.roundedTwice (by linarith) small
    rw [halfAway_neg] at hneg
    exact hneg.of_neg hx

/-- Products and quotients are the nearest step to the exact result, a half away from zero, unless the exact
result is lifted. -/
theorem results_rounded_twice (a b c : Amount) :
    (a.mul? b = some c → |a.value * b.value| < 10 ^ 18 → RoundedTwice (a.value * b.value) c.value) ∧
      (a.div? b = some c → |a.value / b.value| < 10 ^ 18 → RoundedTwice (a.value / b.value) c.value) :=
  ⟨fun h small => (mul?_rounded h).twice small, fun h small => (div?_rounded h).twice small⟩

/-- `0.00000000049999999995` and `1.0000000001` have a product of `5 * 10 ^ -10 - 5 * 10 ^ -30`. -/
def shortOfHalf : Amount := ⟨false, 49999999995, 20, by decide, by decide⟩

def overOne : Amount := ⟨false, 10000000001, 10, by decide, by decide⟩

def step : Amount := ⟨false, 1, 9, by decide, by decide⟩

theorem shortOfHalf_product : shortOfHalf.value * overOne.value = 499999999999999999995 / 10 ^ 30 := by
  norm_num [shortOfHalf, overOne, value, decimal]

theorem results_rounded_twice_lifted :
    shortOfHalf.mul? overOne = some step ∧ Lifted (shortOfHalf.value * overOne.value) ∧
      step.value = halfAway places (shortOfHalf.value * overOne.value) + 1 / 10 ^ places := by
  have product : shortOfHalf.mul? overOne = some step := by decide +kernel
  have first : shortOfHalf.product? overOne =
      some ⟨false, 5000000000000000000, 28, by decide, by decide⟩ := by
    decide +kernel
  have near := (product?_fits shortOfHalf overOne).nearest first
  have half : (⟨false, 5000000000000000000, 28, by decide, by decide⟩ : Amount).value = midpoint 0 := by
    norm_num [value, decimal, midpoint, places]
  rw [half] at near
  have exact_pos : 0 ≤ shortOfHalf.value * overOne.value := by
    rw [shortOfHalf_product]
    norm_num
  have lifted : Lifted (shortOfHalf.value * overOne.value) := by
    refine ⟨0, ?_, ?_⟩
    · rw [shortOfHalf_product]
      norm_num [midpoint, places]
    · rwa [abs_of_nonneg exact_pos]
  have twice :=
    (results_rounded_twice shortOfHalf overOne step).1 product (by rw [shortOfHalf_product]; norm_num)
  have h := twice.lifted lifted
  rw [if_pos exact_pos] at h
  exact ⟨product, lifted, h⟩

def tenBillion : Amount := ofInt64 10000000000

theorem tenBillion_value : tenBillion.value = 10000000000 := value_ofInt64 10000000000

/-- One more than `2 * 10 ^ 9` times as much, so that the quotient is less than half a step. -/
def farMore : Amount := ⟨false, 20000000000000000001, 0, by decide, Nat.zero_le maxScale⟩

/-- Less than half a step comes to a whole step. -/
theorem lifted_past_nearest :
    (¬ ∀ a b c : Amount, a.mul? b = some c → |a.value * b.value| < 10 ^ 18 →
        c.value = halfAway places (a.value * b.value)) ∧
      ¬ ∀ a b c : Amount, b.isZero = false → a.div? b = some c → |a.value / b.value| < 10 ^ 18 →
        c.value = halfAway places (a.value / b.value) := by
  have hstep : step.value ≠ 0 := by norm_num [step, value, decimal]
  constructor
  · intro h
    have hc := h shortOfHalf overOne step (by decide +kernel) (by rw [shortOfHalf_product]; norm_num)
    rw [shortOfHalf_product] at hc
    apply hstep
    rw [hc]
    norm_num [halfAway, wholeAway, places]
  · intro h
    have hq : tenBillion.value / farMore.value = 10000000000 / 20000000000000000001 := by
      rw [tenBillion_value]
      norm_num [farMore, value, decimal]
    have hc := h tenBillion farMore step (by decide) (by decide +kernel) (by rw [hq]; norm_num)
    rw [hq] at hc
    apply hstep
    rw [hc]
    norm_num [halfAway, wholeAway, places]

end YieldVault.Amount
