import Mathlib.Algebra.Order.Field.Rat
import Mathlib.Tactic.FieldSimp
import Mathlib.Tactic.Linarith
import Mathlib.Tactic.Positivity
import YieldVault.Amount.Arithmetic

/-!
# Values of amounts

The rational number that an amount stands for. The order of amounts, their signs, the larger of two
and the opposite of one are what they are for the values. The values on a grid of `10 ^ -p` are the
multiples of it, and an amount lies on every grid that is at least as fine as its scale.
-/

namespace YieldVault

theorem tenPow_cast (n : Nat) : (tenPow n : ℚ) = 10 ^ n := by
  unfold tenPow
  simp

/-- `± m / 10 ^ s` -/
def decimal (negative : Bool) (m s : Nat) : ℚ := (if negative then -(m : ℚ) else m) / 10 ^ s

theorem decimal_zero (n : Bool) (s : Nat) : decimal n 0 s = 0 := by
  cases n <;> simp [decimal]

theorem abs_decimal (n : Bool) (m s : Nat) : |decimal n m s| = m / 10 ^ s := by
  cases n <;> simp [decimal, abs_div]

theorem decimal_not (n : Bool) (m s : Nat) : decimal (!n) m s = -decimal n m s := by
  cases n <;> simp [decimal, neg_div]

/-- Where the coefficient is zero the sign does not matter. -/
theorem decimal_and (n : Bool) {b : Bool} {m : Nat} (s : Nat) (h : b = false → m = 0) :
    decimal (n && b) m s = decimal n m s := by
  cases b with
  | true => rw [Bool.and_true]
  | false =>
    rw [h rfl, decimal_zero, decimal_zero]

/-- Zeros behind the last digit change nothing. -/
theorem decimal_mul_tenPow (n : Bool) (m s j : Nat) : decimal n (m * tenPow j) (s + j) = decimal n m s := by
  have hj : (10 : ℚ) ^ j ≠ 0 := by positivity
  unfold decimal
  rw [pow_add, Nat.cast_mul, tenPow_cast]
  cases n <;> simp <;> field_simp

theorem decimal_ofInt (t : Int) (s : Nat) : decimal (t < 0) t.natAbs s = t / 10 ^ s := by
  unfold decimal
  congr 1
  by_cases ht : t < 0
  · have h : ((t.natAbs : ℤ) : ℚ) = -t := by
      rw [Int.ofNat_natAbs_of_nonpos (le_of_lt ht)]; push_cast; rfl
    simpa [ht] using (neg_eq_iff_eq_neg.mpr h)
  · have h : ((t.natAbs : ℤ) : ℚ) = t := by rw [Int.natAbs_of_nonneg (not_lt.mp ht)]
    simpa [ht] using h

/-! ## Grids -/

/-- A multiple of `10 ^ -p`. -/
def OnGrid (p : Nat) (x : ℚ) : Prop := ∃ k : ℤ, x * 10 ^ p = k

section
variable {p : Nat} {x y : ℚ}

theorem OnGrid.add (hx : OnGrid p x) (hy : OnGrid p y) : OnGrid p (x + y) := by
  obtain ⟨k, hk⟩ := hx
  obtain ⟨l, hl⟩ := hy
  exact ⟨k + l, by rw [add_mul, hk, hl]; push_cast; rfl⟩

theorem OnGrid.neg (hx : OnGrid p x) : OnGrid p (-x) := by
  obtain ⟨k, hk⟩ := hx
  exact ⟨-k, by rw [neg_mul, hk]; push_cast; rfl⟩

theorem OnGrid.sub (hx : OnGrid p x) (hy : OnGrid p y) : OnGrid p (x - y) := by
  rw [sub_eq_add_neg]
  exact hx.add hy.neg

theorem OnGrid.zero (p : Nat) : OnGrid p 0 := ⟨0, by simp⟩

theorem OnGrid.mono (hx : OnGrid p x) {q : Nat} (hq : p ≤ q) : OnGrid q x := by
  obtain ⟨k, hk⟩ := hx
  obtain ⟨d, rfl⟩ := Nat.exists_eq_add_of_le hq
  exact ⟨k * 10 ^ d, by rw [pow_add, ← mul_assoc, hk]; push_cast; rfl⟩

theorem OnGrid.abs_eq (hx : OnGrid p x) : ∃ m : ℕ, |x| * 10 ^ p = m := by
  obtain ⟨k, hk⟩ := hx
  have hp : |(10 : ℚ) ^ p| = 10 ^ p := abs_of_pos (by positivity)
  exact ⟨k.natAbs, by rw [Nat.cast_natAbs, Int.cast_abs, ← hk, abs_mul, hp]⟩

theorem onGrid_decimal (n : Bool) (m s : Nat) : OnGrid s (decimal n m s) := by
  refine ⟨if n then -m else m, ?_⟩
  have h : (10 : ℚ) ^ s ≠ 0 := by positivity
  cases n <;> simp [decimal, h]

/-- A point of a grid that is at most half a step above another is not above it. -/
theorem OnGrid.le_of_near (hx : OnGrid p x) (hy : OnGrid p y) (h : (x - y) * 10 ^ p ≤ 1 / 2) : x ≤ y := by
  obtain ⟨k, hk⟩ := hx
  obtain ⟨l, hl⟩ := hy
  have hkl : (k : ℚ) - l ≤ 1 / 2 := by rw [← hk, ← hl, ← sub_mul]; exact h
  have hle : k ≤ l := by
    by_contra hc
    have h₁ : l + 1 ≤ k := by omega
    have h₂ : (l : ℚ) + 1 ≤ k := by exact_mod_cast h₁
    linarith
  have hle' : x * 10 ^ p ≤ y * 10 ^ p := by rw [hk, hl]; exact_mod_cast hle
  exact le_of_mul_le_mul_right hle' (by positivity)

end

namespace Amount

/-- The number that an amount stands for. -/
def value (a : Amount) : ℚ := decimal a.negative a.coeff a.scale

theorem value_eq (a : Amount) : a.value = a.signed / 10 ^ a.scale := by
  unfold value decimal signed
  cases a.negative <;> simp

theorem abs_value (a : Amount) : |a.value| = a.coeff / 10 ^ a.scale := abs_decimal ..

theorem abs_value_mul_pow (a : Amount) : |a.value| * 10 ^ a.scale = a.coeff := by
  have hp : (10 : ℚ) ^ a.scale ≠ 0 := by positivity
  rw [abs_value, div_mul_cancel₀ _ hp]

theorem value_onGrid (a : Amount) {p : Nat} (h : a.scale ≤ p) : OnGrid p a.value :=
  (onGrid_decimal ..).mono h

@[simp] theorem value_zero : zero.value = 0 := decimal_zero false 0

theorem value_ofInt64 (n : Int64) : (ofInt64 n).value = n.toInt := by
  have h : (ofInt64 n).value = n.toInt / 10 ^ 0 := decimal_ofInt n.toInt 0
  rw [h, pow_zero, div_one]

@[simp] theorem value_neg (a : Amount) : a.neg.value = -a.value := decimal_not ..

/-! ## Order -/

theorem against_cast (a b : Amount) : (a.against b : ℚ) = a.value * (10 ^ a.scale * 10 ^ b.scale) := by
  have h : (10 : ℚ) ^ a.scale ≠ 0 := by positivity
  rw [value_eq, against]
  push_cast
  rw [tenPow_cast]
  field_simp

theorem lt_iff_value {a b : Amount} : a < b ↔ a.value < b.value := by
  have hp : (0 : ℚ) < 10 ^ a.scale * 10 ^ b.scale := by positivity
  show a.against b < b.against a ↔ _
  rw [← Int.cast_lt (R := ℚ), against_cast, against_cast, mul_comm (10 ^ b.scale : ℚ)]
  exact mul_lt_mul_iff_left₀ hp

theorem le_iff_value {a b : Amount} : a ≤ b ↔ a.value ≤ b.value := by
  have h : a ≤ b ↔ ¬ b < a := by
    show a.against b ≤ b.against a ↔ ¬ b.against a < a.against b
    omega
  rw [h, lt_iff_value, not_lt]

theorem beq_iff_value {a b : Amount} : (a == b) = true ↔ a.value = b.value := by
  have h : (a == b) = true ↔ a ≤ b ∧ b ≤ a := by
    show (a.against b == b.against a) = true ↔ a.against b ≤ b.against a ∧ b.against a ≤ a.against b
    rw [beq_iff_eq]
    omega
  rw [h, le_iff_value, le_iff_value]
  exact ⟨fun ⟨h₁, h₂⟩ => le_antisymm h₁ h₂, fun he => ⟨he.le, he.ge⟩⟩

theorem value_max (a b : Amount) : (max a b).value = max a.value b.value := by
  show (if b < a then a else b).value = _
  by_cases h : b < a
  · rw [if_pos h, max_eq_left (lt_iff_value.mp h).le]
  · rw [if_neg h, max_eq_right (not_lt.mp fun hc => h (lt_iff_value.mpr hc))]

/-! ## Sign -/

theorem isZero_iff {a : Amount} : a.isZero = true ↔ a.value = 0 := by
  have h : a.value = 0 ↔ |a.value| = 0 := abs_eq_zero.symm
  have hp : (10 : ℚ) ^ a.scale ≠ 0 := by positivity
  rw [h, abs_value, isZero, beq_iff_eq, div_eq_zero_iff]
  simp [hp]

theorem value_of_isZero {a : Amount} (h : a.isZero = true) : a.value = 0 := isZero_iff.mp h

theorem value_pos_iff_of_not_isZero {a : Amount} (h : a.isZero = false) :
    0 < a.value ↔ a.negative = false := by
  have hc : 0 < a.coeff := by
    unfold isZero at h
    rw [beq_eq_false_iff_ne] at h
    omega
  have hp : (0 : ℚ) < a.coeff / 10 ^ a.scale := by positivity
  unfold value decimal
  cases a.negative with
  | false => simpa using hp
  | true => simp only [if_true, neg_div]; simpa using hp.le

theorem isPositive_iff {a : Amount} : a.isPositive = true ↔ 0 < a.value := by
  cases h : a.isZero with
  | true => simp [isPositive, h, value_of_isZero h]
  | false => rw [value_pos_iff_of_not_isZero h]; simp [isPositive, h]

theorem value_eq_zero_of_not_isPositive {a : Amount} (h : ¬ a.isPositive = true) (ha : 0 ≤ a.value) :
    a.value = 0 :=
  le_antisymm (not_lt.mp fun hlt => h (isPositive_iff.mpr hlt)) ha

theorem isNegative_iff {a : Amount} : a.isNegative = true ↔ a.value < 0 := by
  cases h : a.isZero with
  | true => simp [isNegative, h, value_of_isZero h]
  | false =>
    have hz : a.value ≠ 0 := fun hv => by rw [isZero_iff.mpr hv] at h; cases h
    have hn : a.value < 0 ↔ ¬ 0 < a.value :=
      ⟨fun hv => not_lt.mpr hv.le, fun hv => lt_of_le_of_ne (not_lt.mp hv) hz⟩
    rw [hn, value_pos_iff_of_not_isZero h]
    simp [isNegative, h]

theorem coeff_add_one_le (a : Amount) : (a.coeff : ℚ) + 1 ≤ bound := by
  have h := a.coeff_lt
  exact_mod_cast h

theorem smallest_le {a : Amount} (h : 0 < a.value) : 1 / 10 ^ maxScale ≤ a.value := by
  have hv : a.value = a.coeff / 10 ^ a.scale := by rw [← abs_value, abs_of_pos h]
  have hc : (1 : ℚ) ≤ a.coeff := by
    rw [Nat.one_le_cast, Nat.one_le_iff_ne_zero]
    intro hz
    rw [hv, hz] at h
    simp at h
  have hpow : (10 : ℚ) ^ a.scale ≤ 10 ^ maxScale := pow_le_pow_right₀ (by norm_num) a.scale_le
  rw [hv]
  exact div_le_div₀ (by positivity) hc (by positivity) hpow

end Amount

end YieldVault
