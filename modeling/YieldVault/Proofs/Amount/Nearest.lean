import YieldVault.Proofs.Amount.Value

/-!
# Nearest amounts

An amount cannot hold every number. What a sum, a product or a quotient has no room for is rounded to
a grid, and that grid is as fine as it can be: of 28 digits, or else the next finer one has no room
for the number. Of two points of the grid that are as near, the even one is taken. Two facts follow from
this alone. Rounding crosses no amount, so a number that some amount stands for is not changed by it;
and a number that is small enough keeps its first ten digits.
-/

namespace YieldVault.Amount

/-- The whole number nearest to `x` is past every coefficient. -/
def Overflows (x : ℚ) : Prop := (bound : ℚ) - 1 / 2 ≤ |x|

/-- Some amount stands for `x`. -/
def Representable (x : ℚ) : Prop := ∃ a : Amount, a.value = x

/-- `y` is `x` on a grid of `t` digits that cannot be refined, and the even one of two that are as near. -/
structure Rounds (t : Nat) (x y : ℚ) : Prop where
  grid : OnGrid t y
  near : |y - x| * 10 ^ t ≤ 1 / 2
  even : |y - x| * 10 ^ t = 1 / 2 → OnGrid t (y / 2)
  room : ¬ Overflows (x * 10 ^ t)
  full : y = x ∨ t = maxScale ∨ Overflows (x * 10 ^ (t + 1))

/-- `y` is `x` with as many digits as an amount can hold. -/
def Nearest (x y : ℚ) : Prop := ∃ t ≤ maxScale, Rounds t x y

theorem Overflows.mono {x y : ℚ} (h : Overflows x) (hxy : |x| ≤ |y|) : Overflows y := le_trans h hxy

theorem overflows_neg {x : ℚ} : Overflows (-x) ↔ Overflows x := by
  unfold Overflows
  rw [abs_neg]

theorem not_overflows_value (a : Amount) : ¬ Overflows a.value := by
  have hc := a.coeff_add_one_le
  have hp : (1 : ℚ) ≤ 10 ^ a.scale := one_le_pow₀ (by norm_num)
  have hle : (a.coeff : ℚ) / 10 ^ a.scale ≤ a.coeff := div_le_self (by positivity) hp
  unfold Overflows
  rw [abs_value]
  linarith

/-- What has room on some grid has room on every coarser one. -/
theorem Overflows.mul_pow {x : ℚ} {s t : Nat} (h : Overflows (x * 10 ^ s)) (hs : s ≤ t) :
    Overflows (x * 10 ^ t) := by
  have hp : (10 : ℚ) ^ s ≤ 10 ^ t := pow_le_pow_right₀ (by norm_num) hs
  refine h.mono ?_
  rw [abs_mul, abs_mul, abs_of_pos (by positivity : (0 : ℚ) < 10 ^ s),
    abs_of_pos (by positivity : (0 : ℚ) < 10 ^ t)]
  exact mul_le_mul_of_nonneg_left hp (abs_nonneg x)

theorem representable_of_room {t : Nat} {x : ℚ} (grid : OnGrid t x) (ht : t ≤ maxScale)
    (room : |x| * 10 ^ t < bound) :
    Representable x := by
  obtain ⟨k, hk⟩ := grid
  have hx : x = decimal (k < 0) k.natAbs t := by
    rw [decimal_ofInt, ← hk]
    field_simp
  have hb : k.natAbs < bound := by
    have hp : (10 : ℚ) ^ t ≠ 0 := by positivity
    rw [hx, abs_decimal, div_mul_cancel₀ _ hp] at room
    exact_mod_cast room
  exact ⟨⟨k < 0, k.natAbs, t, hb, ht⟩, hx.symm⟩

theorem Rounds.inRange {t : Nat} {x y : ℚ} (h : Rounds t x y) : ¬ Overflows x := by
  intro ho
  have h₀ : Overflows (x * 10 ^ 0) := by simpa using ho
  exact h.room (h₀.mul_pow (Nat.zero_le t))

theorem Nearest.representable {x y : ℚ} (h : Nearest x y) : Representable y := by
  obtain ⟨t, ht, hr⟩ := h
  have hp : (0 : ℚ) < 10 ^ t := by positivity
  have htri := mul_le_mul_of_nonneg_right (abs_sub_abs_le_abs_sub y x) hp.le
  have near := hr.near
  have room := hr.room
  unfold Overflows at room
  rw [abs_mul, abs_of_pos hp, not_le] at room
  exact representable_of_room hr.grid ht (by linarith)

theorem Nearest.refl (a : Amount) : Nearest a.value a.value := by
  refine ⟨a.scale, a.scale_le, a.value_onGrid le_rfl, by simp, by simp, ?_, .inl rfl⟩
  have hc := a.coeff_add_one_le
  unfold Overflows
  rw [abs_mul, abs_of_pos (by positivity : (0 : ℚ) < 10 ^ a.scale), abs_value_mul_pow]
  linarith

theorem Nearest.neg {x y : ℚ} (h : Nearest x y) : Nearest (-x) (-y) := by
  obtain ⟨t, ht, grid, near, even, room, full⟩ := h
  refine ⟨t, ht, grid.neg, ?_, ?_, ?_, ?_⟩
  · rw [neg_sub_neg, abs_sub_comm]
    exact near
  · rw [neg_sub_neg, abs_sub_comm, neg_div]
    exact fun tie => (even tie).neg
  · rw [neg_mul, overflows_neg]
    exact room
  · rw [neg_inj, neg_mul, overflows_neg]
    exact full

/-! ## Rounding crosses no amount -/

/-- What the next finer grid has no room for is rounded to no coefficient of it either. -/
theorem Rounds.past {t : Nat} {x y : ℚ} (h : Rounds t x y) (full : Overflows (x * 10 ^ (t + 1))) :
    (bound : ℚ) ≤ |y| * 10 ^ (t + 1) := by
  have hp : (0 : ℚ) < 10 ^ t := by positivity
  obtain ⟨m, hm⟩ := h.grid.abs_eq
  have hxy : |x| * 10 ^ t ≤ |y| * 10 ^ t + 1 / 2 := by
    have htri := abs_sub_abs_le_abs_sub x y
    rw [abs_sub_comm] at htri
    have hmul := mul_le_mul_of_nonneg_right htri hp.le
    have hnear := h.near
    linarith
  unfold Overflows at full
  rw [abs_mul, abs_of_pos (by positivity : (0 : ℚ) < 10 ^ (t + 1)), pow_succ] at full
  have hge : (bound : ℚ) - 11 / 2 ≤ m * 10 := by linarith
  have hm₁ : 7922816251426433759354395034 ≤ m := by
    by_contra hc
    have hm₂ : m ≤ 7922816251426433759354395033 := by omega
    have hm₃ : (m : ℚ) ≤ 7922816251426433759354395033 := by exact_mod_cast hm₂
    norm_num [bound] at hge
    linarith
  have hm₄ : (7922816251426433759354395034 : ℚ) ≤ m := by exact_mod_cast hm₁
  rw [pow_succ, ← mul_assoc, hm]
  norm_num [bound]
  linarith

theorem Nearest.le_value {x y : ℚ} (h : Nearest x y) {b : Amount} (hb : x ≤ b.value) : y ≤ b.value := by
  obtain ⟨t, ht, hr⟩ := h
  have grid := hr.grid
  have near := hr.near
  have hp : (0 : ℚ) < 10 ^ t := by positivity
  have hyx : (y - x) * 10 ^ t ≤ 1 / 2 := (mul_le_mul_of_nonneg_right (le_abs_self _) hp.le).trans near
  have hxb : x * 10 ^ t ≤ b.value * 10 ^ t := mul_le_mul_of_nonneg_right hb hp.le
  rcases le_or_gt b.scale t with hs | hs
  · -- the amount lies on the grid too
    exact grid.le_of_near (b.value_onGrid hs) (by linarith)
  · -- the amount has more digits than `y`, and so it is smaller than `x`
    have hbound : |b.value| * 10 ^ (t + 1) ≤ bound - 1 := by
      have hle : (10 : ℚ) ^ (t + 1) ≤ 10 ^ b.scale := pow_le_pow_right₀ (by norm_num) hs
      have hc := b.coeff_add_one_le
      calc |b.value| * 10 ^ (t + 1) ≤ |b.value| * 10 ^ b.scale := by gcongr
        _ = b.coeff := b.abs_value_mul_pow
        _ ≤ bound - 1 := by linarith
    rcases hr.full with rfl | rfl | full
    · exact hb
    · exact absurd (lt_of_lt_of_le hs b.scale_le) (lt_irrefl _)
    · have hp' : (0 : ℚ) < 10 ^ (t + 1) := by positivity
      rcases le_or_gt 0 x with hx | hx
      · -- above zero `x` would be past the amount
        unfold Overflows at full
        rw [abs_of_nonneg (mul_nonneg hx hp'.le)] at full
        have hle := mul_le_mul_of_nonneg_right (hb.trans (le_abs_self b.value)) hp'.le
        linarith
      · -- below zero `y` is past the amount
        have hy : y ≤ 0 := by
          refine grid.le_of_near (OnGrid.zero t) ?_
          have hx' := mul_nonpos_of_nonpos_of_nonneg hx.le hp.le
          linarith
        have hpast := hr.past full
        rw [abs_of_nonpos hy] at hpast
        have hle := mul_le_mul_of_nonneg_right (neg_abs_le b.value) hp'.le
        have hle' : y * 10 ^ (t + 1) ≤ b.value * 10 ^ (t + 1) := by linarith
        exact le_of_mul_le_mul_right hle' hp'

theorem Nearest.value_le {x y : ℚ} (h : Nearest x y) {b : Amount} (hb : b.value ≤ x) : b.value ≤ y := by
  have hn := h.neg.le_value (b := b.neg) (by rw [value_neg]; linarith)
  rw [value_neg] at hn
  linarith

theorem Nearest.nonneg {x y : ℚ} (h : Nearest x y) (hx : 0 ≤ x) : 0 ≤ y := by
  have h₀ := h.value_le (b := zero) (by rw [value_zero]; exact hx)
  rwa [value_zero] at h₀

/-- What some amount stands for is not changed by rounding. -/
theorem Nearest.eq {x y : ℚ} (h : Nearest x y) (hx : Representable x) : y = x := by
  obtain ⟨b, rfl⟩ := hx
  exact le_antisymm (h.le_value le_rfl) (h.value_le le_rfl)

/-! ## Small numbers -/

/-- A number of at most `7 * 10 ^ 18` keeps ten digits behind the point. -/
theorem Nearest.error_le {x y : ℚ} (h : Nearest x y) (hy : |y| ≤ 7 * 10 ^ 18 + 1) :
    |y - x| ≤ 1 / 2 / 10 ^ 10 := by
  obtain ⟨t, ht, grid, near, -, -, full⟩ := h
  have hp : (0 : ℚ) < 10 ^ t := by positivity
  rcases le_or_gt 10 t with h₁₀ | h₁₀
  · have hle : (10 : ℚ) ^ 10 ≤ 10 ^ t := pow_le_pow_right₀ (by norm_num) h₁₀
    rw [le_div_iff₀ (by positivity)]
    calc |y - x| * 10 ^ 10 ≤ |y - x| * 10 ^ t := by gcongr
      _ ≤ 1 / 2 := near
  · rcases full with rfl | rfl | full
    · rw [sub_self, abs_zero]
      positivity
    · exact absurd h₁₀ (by decide)
    · -- coarser grids are for larger numbers
      exfalso
      have hle : (10 : ℚ) ^ (t + 1) ≤ 10 ^ 10 := pow_le_pow_right₀ (by norm_num) h₁₀
      have hx : |x| ≤ |y| + |y - x| := by
        have := abs_sub_abs_le_abs_sub x y
        rw [abs_sub_comm] at this
        linarith
      unfold Overflows at full
      rw [abs_mul, abs_of_pos (by positivity : (0 : ℚ) < 10 ^ (t + 1))] at full
      have h₁ : |y| * 10 ^ (t + 1) ≤ (7 * 10 ^ 18 + 1) * 10 ^ 10 := by gcongr
      have h₂ : |y - x| * 10 ^ (t + 1) ≤ 5 := by rw [pow_succ]; linarith
      have h₃ : |x| * 10 ^ (t + 1) ≤ |y| * 10 ^ (t + 1) + |y - x| * 10 ^ (t + 1) := by
        rw [← add_mul]; gcongr
      norm_num [bound] at full h₁
      linarith

/-! ## Dropped digits -/

/-- `c` is the whole number nearest to `z`, and the even one of two. -/
structure HalfEven (c : Nat) (z : ℚ) : Prop where
  near : |(c : ℚ) - z| ≤ 1 / 2
  even : |(c : ℚ) - z| = 1 / 2 → 2 ∣ c

/-- Up from half a step on and down below it is never more than half a step away. -/
theorem half_near (q : Nat) {f : ℚ} {up : Prop} [Decidable up] (h₀ : 0 ≤ f) (h₁ : f ≤ 1) (hu : up → 1 / 2 ≤ f)
    (hd : ¬ up → f ≤ 1 / 2) : |((if up then q + 1 else q : Nat) : ℚ) - (q + f)| ≤ 1 / 2 := by
  rw [abs_le]
  by_cases h : up
  · have hf := hu h
    rw [if_pos h]
    push_cast
    constructor <;> linarith
  · have hf := hd h
    rw [if_neg h]
    constructor <;> linarith

/-- At half a step up from an odd number and down to an even one. -/
theorem HalfEven.step (q : Nat) {f : ℚ} {up : Prop} [Decidable up] (h₀ : 0 ≤ f) (h₁ : f ≤ 1)
    (hu : up → 1 / 2 ≤ f) (hd : ¬ up → f ≤ 1 / 2) (tie : f = 1 / 2 → (up ↔ q % 2 = 1)) :
    HalfEven (if up then q + 1 else q) (q + f) := by
  refine ⟨half_near q h₀ h₁ hu hd, fun he => ?_⟩
  by_cases h : up
  · rw [if_pos h] at he ⊢
    have hf : f = 1 / 2 := by
      push_cast at he
      rw [add_sub_add_left_eq_sub, abs_of_nonneg (sub_nonneg.mpr h₁)] at he
      linarith
    have hodd := (tie hf).mp h
    omega
  · rw [if_neg h] at he ⊢
    have hf : f = 1 / 2 := by
      rw [sub_add_cancel_left, abs_neg, abs_of_nonneg h₀] at he
      exact he
    have hodd := (tie hf).not.mp h
    omega

/-- A number is its quotient by `d` and the fraction that the remainder is of `d`. -/
theorem cast_div_eq (m : Nat) {d : Nat} (hd : 0 < d) : (m : ℚ) / d = (m / d : Nat) + (m % d : Nat) / d := by
  have hd' : (d : ℚ) ≠ 0 := by positivity
  have hm : (m : ℚ) = d * (m / d : Nat) + (m % d : Nat) := by exact_mod_cast (Nat.div_add_mod m d).symm
  field_simp
  linarith

theorem fraction_lt_one {r d : Nat} (h : r < d) : (r : ℚ) / d < 1 := by
  have hr : (r : ℚ) < d := by exact_mod_cast h
  have hd : (0 : ℚ) < d := lt_of_le_of_lt (by positivity) hr
  exact (div_lt_one hd).mpr hr

theorem half_le_fraction {r d : Nat} (hd : 0 < d) (h : d ≤ 2 * r) : 1 / 2 ≤ (r : ℚ) / d := by
  have hd' : (0 : ℚ) < d := by exact_mod_cast hd
  have hr : (d : ℚ) ≤ 2 * r := by exact_mod_cast h
  rw [le_div_iff₀ hd']
  linarith

theorem fraction_le_half {r d : Nat} (hd : 0 < d) (h : 2 * r ≤ d) : (r : ℚ) / d ≤ 1 / 2 := by
  have hd' : (0 : ℚ) < d := by exact_mod_cast hd
  have hr : 2 * (r : ℚ) ≤ d := by exact_mod_cast h
  rw [div_le_iff₀ hd']
  linarith

theorem fraction_lt_half {r d : Nat} (hd : 0 < d) (h : 2 * r < d) : (r : ℚ) / d < 1 / 2 := by
  have hd' : (0 : ℚ) < d := by exact_mod_cast hd
  have hr : 2 * (r : ℚ) < d := by exact_mod_cast h
  rw [div_lt_iff₀ hd']
  linarith

theorem fraction_eq_half {r d : Nat} (hd : 0 < d) (h : (r : ℚ) / d = 1 / 2) : 2 * r = d := by
  have hd' : (d : ℚ) ≠ 0 := by positivity
  rw [div_eq_iff hd'] at h
  have h₂ : (2 : ℚ) * r = d := by linarith
  exact_mod_cast h₂

theorem halfEven_near (m d : Nat) : HalfEven (halfEven m d) (m / 10 ^ d) := by
  have hp := tenPow_pos d
  have hr := Nat.mod_lt m hp
  rw [← tenPow_cast, cast_div_eq m hp]
  refine .step _ (by positivity) (fraction_lt_one hr).le (fun h => half_le_fraction hp ?_)
    (fun h => fraction_le_half hp ?_) (fun h => ?_)
  · omega
  · omega
  · have htie := fraction_eq_half hp h
    omega

theorem halfUp_near (m d : Nat) : |(halfUp m d : ℚ) - m / 10 ^ d| ≤ 1 / 2 := by
  have hp := tenPow_pos d
  have hr := Nat.mod_lt m hp
  rw [← tenPow_cast, cast_div_eq m hp]
  refine half_near _ (by positivity) (fraction_lt_one hr).le (fun h => half_le_fraction hp h)
    (fun h => fraction_le_half hp ?_)
  omega

theorem halfEven_zero (m : Nat) : halfEven m 0 = m := by
  simp [halfEven, tenPow_zero, Nat.mod_one]

/-- The largest coefficient is odd, so that half a step above it is rounded up and has no room. -/
theorem halfEven_lt_bound_iff {m d : Nat} (h : m / tenPow d < bound) :
    halfEven m d < bound ↔ 2 * m < (2 * bound - 1) * tenPow d := by
  have hm := Nat.div_add_mod m (tenPow d)
  have hr := Nat.mod_lt m (tenPow_pos d)
  have heven : bound % 2 = 0 := by decide
  have hexp : (2 * bound - 1) * tenPow d = 2 * (tenPow d * bound) - tenPow d := by
    rw [Nat.sub_mul, Nat.one_mul, Nat.mul_assoc, Nat.mul_comm bound]
  rw [hexp]
  unfold halfEven
  dsimp only
  generalize m / tenPow d = q at *
  generalize m % tenPow d = r at *
  generalize tenPow d = T at *
  generalize bound = B at *
  rcases Nat.lt_or_ge (q + 1) B with hq | hq
  · have hlt : T * (q + 2) ≤ T * B := Nat.mul_le_mul_left T hq
    rw [Nat.mul_add] at hlt
    constructor
    · intro _
      omega
    · intro _
      split <;> omega
  · have hq' : q + 1 = B := by omega
    have he : T * q + T = T * B := by rw [← hq', Nat.mul_succ]
    split
    · constructor <;> intro _ <;> omega
    · constructor <;> intro _ <;> omega

theorem overflows_decimal_iff {n : Bool} {m s : Nat} :
    Overflows (decimal n m s) ↔ (2 * bound - 1) * tenPow s ≤ 2 * m := by
  have hp : (0 : ℚ) < 10 ^ s := by positivity
  have hc : ((((2 * bound - 1) * tenPow s : Nat) : ℚ) ≤ ((2 * m : Nat) : ℚ)) ↔
      ((bound : ℚ) - 1 / 2) * 10 ^ s ≤ m := by
    have hb : ((2 * bound - 1 : Nat) : ℚ) = 2 * bound - 1 := by norm_num [bound]
    push_cast [hb, tenPow_cast]
    constructor <;> intro h <;> linarith
  rw [← Nat.cast_le (α := ℚ), hc]
  unfold Overflows
  rw [abs_decimal, le_div_iff₀ hp]

/-! ## Fitting -/

theorem excess_eq_some {m d room e : Nat} (h : excess m d room = some e) :
    d ≤ e ∧ e ≤ d + room ∧ m / tenPow e < bound ∧ (d < e → bound ≤ m / tenPow (e - 1)) := by
  induction room generalizing d with
  | zero =>
    unfold excess at h
    split at h
    · cases h
      exact ⟨le_rfl, le_rfl, ‹_›, fun hd => absurd hd (lt_irrefl _)⟩
    · cases h
  | succ room ih =>
    unfold excess at h
    split at h
    · cases h
      exact ⟨le_rfl, Nat.le_add_right _ _, ‹_›, fun hd => absurd hd (lt_irrefl _)⟩
    · rename_i hd
      obtain ⟨h₁, h₂, h₃, h₄⟩ := ih h
      refine ⟨by omega, by omega, h₃, fun _ => ?_⟩
      rcases Nat.lt_or_ge (d + 1) e with he | he
      · exact h₄ he
      · have he' : e - 1 = d := by omega
        rw [he']
        exact not_lt.mp hd

theorem excess_eq_none {m d room : Nat} (h : excess m d room = none) : bound ≤ m / tenPow (d + room) := by
  induction room generalizing d with
  | zero =>
    unfold excess at h
    split at h
    · cases h
    · exact not_lt.mp ‹_›
  | succ room ih =>
    unfold excess at h
    split at h
    · cases h
    · have := ih h
      rwa [Nat.add_right_comm] at this

/-- The decimals that are left when `d` of `d + t` digits are dropped. -/
theorem decimal_mul_pow (n : Bool) (m d t : Nat) : decimal n m (d + t) * 10 ^ t = decimal n m d := by
  have ht : (10 : ℚ) ^ t ≠ 0 := by positivity
  unfold decimal
  rw [pow_add]
  field_simp

theorem abs_decimal_sub (n : Bool) (c m d t : Nat) :
    |decimal n c t - decimal n m (d + t)| * 10 ^ t = |(c : ℚ) - m / 10 ^ d| := by
  have ht : |(10 : ℚ) ^ t| = 10 ^ t := abs_of_pos (by positivity)
  have hc : decimal n c t * 10 ^ t = decimal n c 0 := by
    have := decimal_mul_pow n c 0 t
    rwa [Nat.zero_add] at this
  rw [← ht, ← abs_mul, sub_mul, decimal_mul_pow, hc]
  cases n with
  | false => simp [decimal]
  | true =>
    rw [← abs_neg]
    simp [decimal, neg_div, add_comm, sub_eq_add_neg]

theorem onGrid_decimal_half (n : Bool) {c : Nat} (t : Nat) (h : 2 ∣ c) : OnGrid t (decimal n c t / 2) := by
  obtain ⟨e, rfl⟩ := h
  have he : decimal n (2 * e) t / 2 = decimal n e t := by
    unfold decimal
    push_cast
    cases n <;> simp <;> field_simp
  rw [he]
  exact onGrid_decimal ..

theorem rounds_decimal (n : Bool) {c m d t : Nat} (near : HalfEven c (m / 10 ^ d))
    (room : ¬ Overflows (decimal n m d))
    (full : d = 0 ∧ c = m ∨ t = maxScale ∨ 0 < d ∧ Overflows (decimal n m (d - 1))) :
    Rounds t (decimal n m (d + t)) (decimal n c t) := by
  refine ⟨onGrid_decimal .., by rw [abs_decimal_sub]; exact near.near, ?_, by rwa [decimal_mul_pow], ?_⟩
  · rw [abs_decimal_sub]
    exact fun tie => onGrid_decimal_half n t (near.even tie)
  rcases full with ⟨rfl, rfl⟩ | rfl | ⟨hd, full⟩
  · left
    rw [Nat.zero_add]
  · exact .inr (.inl rfl)
  · have hdt : d + t = d - 1 + (t + 1) := by omega
    rw [hdt, decimal_mul_pow]
    exact .inr (.inr full)

theorem overflows_of_bound_le {n : Bool} {m s : Nat} (h : bound ≤ m / tenPow s) :
    Overflows (decimal n m s) := by
  have hm := (Nat.le_div_iff_mul_le (tenPow_pos s)).mp h
  rw [overflows_decimal_iff, Nat.sub_mul, Nat.one_mul, Nat.mul_assoc]
  omega

theorem halfEven_le (m d : Nat) : halfEven m d ≤ m / tenPow d + 1 := by
  unfold halfEven
  dsimp only
  split <;> omega

theorem halfEven_eq_bound {m d : Nat} (hlt : m / tenPow d < bound) (h : ¬ halfEven m d < bound) :
    halfEven m d = bound := by
  have hle := halfEven_le m d
  omega

/-- Rounding up to the bound takes one more digit, and what is left is still the nearest. -/
theorem halfEven_bound_near {m d : Nat} (h : halfEven m d = bound) :
    HalfEven (halfEven bound 1) (m / 10 ^ (d + 1)) := by
  refine ⟨?_, fun _ => by decide⟩
  have hc : halfEven bound 1 = 7922816251426433759354395034 := by decide
  have hdiv : (m : ℚ) / 10 ^ (d + 1) = m / 10 ^ d / 10 := by rw [pow_succ, div_div]
  have hnear := (halfEven_near m d).near
  rw [h, abs_le] at hnear
  rw [hc, hdiv, abs_le]
  norm_num [bound] at hnear ⊢
  constructor <;> linarith

/-- All that an operation whose exact result is `x` can come to. -/
inductive Fits (x : ℚ) : Option Amount → Prop
  | overflow (h : Overflows x) : Fits x none
  | near {a : Amount} (h : ¬ Overflows x) (nearest : Nearest x a.value) : Fits x (some a)

theorem Fits.exact (a : Amount) : Fits a.value (some a) := .near a.not_overflows_value (.refl a)

theorem Fits.nearest {x : ℚ} {a : Amount} {r : Option Amount} (h : Fits x r) (hr : r = some a) :
    Nearest x a.value := by
  subst hr
  cases h with
  | near _ nearest => exact nearest

theorem Fits.eq_none_iff {x : ℚ} {r : Option Amount} (h : Fits x r) : r = none ↔ Overflows x := by
  cases h with
  | overflow h => simp [h]
  | near h _ => simp [h]

theorem Fits.make {x : ℚ} {n : Bool} {c t : Nat} (hc : c < bound) (ht : t ≤ maxScale)
    (hr : Rounds t x (decimal n c t)) : Fits x (make? n c t) := by
  have hm : make? n c t = some ⟨n, c, t, hc, ht⟩ := make?_eq_some_iff.mpr ⟨rfl, rfl, rfl⟩
  rw [hm]
  exact .near hr.inRange ⟨t, ht, hr⟩

theorem fit_fits (n : Bool) (m s : Nat) : Fits (decimal n m s) (fit n m s) := by
  have hp : ∀ d, 0 < tenPow d := tenPow_pos
  unfold fit
  cases he : excess m (s - maxScale) (s - (s - maxScale)) with
  | none =>
    have hb := excess_eq_none he
    have hs : s - maxScale + (s - (s - maxScale)) = s := by omega
    rw [hs] at hb
    exact .overflow (overflows_of_bound_le hb)
  | some d =>
    obtain ⟨h₁, h₂, hlt, hfull⟩ := excess_eq_some he
    obtain ⟨t, rfl⟩ : ∃ t, s = d + t := ⟨s - d, by omega⟩
    have ht : t ≤ maxScale := by omega
    simp only [bind, Option.bind]
    split
    · rename_i hq
      have hn : ¬ Overflows (decimal n m d) := by
        rw [overflows_decimal_iff]
        exact not_le.mpr ((halfEven_lt_bound_iff hlt).mp hq)
      rw [Nat.add_sub_cancel_left]
      refine .make hq ht (rounds_decimal n (halfEven_near m d) hn ?_)
      rcases Nat.eq_zero_or_pos d with rfl | hd
      · exact .inl ⟨rfl, halfEven_zero m⟩
      · rcases Nat.lt_or_ge (d + t - maxScale) d with hlt' | hge
        · exact .inr (.inr ⟨hd, overflows_of_bound_le (hfull hlt')⟩)
        · exact .inr (.inl (by omega))
    · rename_i hq
      have hov : Overflows (decimal n m d) := by
        rw [overflows_decimal_iff]
        exact not_lt.mp fun hm => hq ((halfEven_lt_bound_iff hlt).mpr hm)
      split
      · rename_i hdt
        obtain ⟨u, rfl⟩ : ∃ u, t = 1 + u := ⟨t - 1, by omega⟩
        have hq' := halfEven_eq_bound hlt hq
        have hn : ¬ Overflows (decimal n m (d + 1)) := by
          have hm := (Nat.div_lt_iff_lt_mul (hp d)).mp hlt
          rw [overflows_decimal_iff, tenPow_succ]
          unfold bound at *
          omega
        rw [hq', ← Nat.add_assoc, Nat.add_sub_cancel_left]
        exact .make (by decide) (by omega)
          (rounds_decimal n (halfEven_bound_near hq') hn (.inr (.inr ⟨Nat.succ_pos d, hov⟩)))
      · rename_i hdt
        obtain rfl : t = 0 := by omega
        exact .overflow hov

/-! ## Rounding to places -/

theorem reduce_value (rule : Nat → Nat → Nat) (le : ∀ m d, rule m d ≤ m) (a : Amount) {p : Nat}
    (h : p < a.scale) :
    (a.reduce rule le p).value = decimal a.negative (rule a.coeff (a.scale - p)) p := by
  unfold reduce
  rw [dif_neg (not_le.mpr h)]
  refine decimal_and _ _ fun hb => ?_
  simp only [Bool.or_eq_false_iff, bne_eq_false_iff_eq] at hb
  exact hb.2

theorem reduce_of_scale_le (rule : Nat → Nat → Nat) (le : ∀ m d, rule m d ≤ m) {a : Amount} {p : Nat}
    (h : a.scale ≤ p) :
    a.reduce rule le p = a := by
  unfold reduce
  rw [dif_pos h]

theorem round_value (a : Amount) {p : Nat} (h : p < a.scale) :
    (a.round p).value = decimal a.negative (halfUp a.coeff (a.scale - p)) p := reduce_value _ _ a h

theorem round_of_scale_le {a : Amount} {p : Nat} (h : a.scale ≤ p) : a.round p = a := reduce_of_scale_le _ _ h

theorem round_onGrid (a : Amount) (p : Nat) : OnGrid p (a.round p).value := by
  rcases Nat.lt_or_ge p a.scale with h | h
  · rw [round_value a h]
    exact onGrid_decimal ..
  · rw [round_of_scale_le h]
    exact a.value_onGrid h

theorem round_near (a : Amount) (p : Nat) : |(a.round p).value - a.value| * 10 ^ p ≤ 1 / 2 := by
  rcases Nat.lt_or_ge p a.scale with h | h
  · have hs : a.value = decimal a.negative a.coeff (a.scale - p + p) := by rw [Nat.sub_add_cancel h.le]; rfl
    rw [round_value a h, hs, abs_decimal_sub]
    exact halfUp_near _ _
  · rw [round_of_scale_le h, sub_self, abs_zero, zero_mul]
    norm_num

theorem round_nonneg {a : Amount} (h : 0 ≤ a.value) (p : Nat) : 0 ≤ (a.round p).value := by
  refine (OnGrid.zero p).le_of_near (a.round_onGrid p) ?_
  have hp : (0 : ℚ) < 10 ^ p := by positivity
  have hle := mul_le_mul_of_nonneg_right (neg_abs_le ((a.round p).value - a.value)) hp.le
  have hn := a.round_near p
  have ha := mul_nonneg h hp.le
  linarith

/-! ## Products and quotients

They are rounded twice: to an amount, and then to `places` digits. -/

def Rounded (x : ℚ) (c : Amount) : Prop := ∃ a : Amount, Nearest x a.value ∧ c = a.round places

theorem rounded_zero {x : ℚ} (h : x = 0) : Rounded x zero :=
  ⟨zero, by rw [h, ← value_zero]; exact .refl zero, (round_of_scale_le (by decide)).symm⟩

theorem Rounded.onGrid {x : ℚ} {c : Amount} (h : Rounded x c) : OnGrid places c.value := by
  obtain ⟨a, _, rfl⟩ := h
  exact a.round_onGrid places

theorem Rounded.inRange {x : ℚ} {c : Amount} (h : Rounded x c) : ¬ Overflows x := by
  obtain ⟨_, ⟨_, _, near⟩, _⟩ := h
  exact near.inRange

theorem Rounded.nonneg {x : ℚ} {c : Amount} (h : Rounded x c) (hx : 0 ≤ x) : 0 ≤ c.value := by
  obtain ⟨a, near, rfl⟩ := h
  exact round_nonneg (near.nonneg hx) places

/-- Half a step of each of the two grids. -/
theorem Rounded.error_le {x : ℚ} {c : Amount} (h : Rounded x c) (hc : |c.value| ≤ 7 * 10 ^ 18) :
    |c.value - x| ≤ 11 / 2 / 10 ^ 10 := by
  obtain ⟨a, near, rfl⟩ := h
  have h₁ : |(a.round places).value - a.value| ≤ 1 / 2 / 10 ^ 9 := by
    rw [le_div_iff₀ (by positivity)]
    exact a.round_near places
  have h₂ : |a.value| ≤ 7 * 10 ^ 18 + 1 := by
    have h := abs_sub_abs_le_abs_sub a.value (a.round places).value
    rw [abs_sub_comm] at h
    linarith
  calc |(a.round places).value - x| ≤ |(a.round places).value - a.value| + |a.value - x| := abs_sub_le ..
    _ ≤ 1 / 2 / 10 ^ 9 + 1 / 2 / 10 ^ 10 := add_le_add h₁ (near.error_le h₂)
    _ = 11 / 2 / 10 ^ 10 := by norm_num

end YieldVault.Amount
