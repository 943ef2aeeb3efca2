import Mathlib.Tactic.Ring
import YieldVault.Amount.Division
import YieldVault.Proofs.Amount.Nearest

/-!
# Quotients

The long division keeps one equation: the digits so far, together with the fraction that the remainder
is of the divisor, are the exact quotient, moved to the scale that has been reached. Whichever way it
ends, the last digit is rounded by that fraction, and it ends short of an exact quotient only when the
next digit has no room. So a quotient, where there is one, is the nearest amount to the exact one; and
there is none only where the exact one is out of range.
-/

namespace YieldVault.Amount

namespace Division

/-- The division by `d` is on its way to `x`. -/
structure Approaches (d : Nat) (x : ℚ) (st : State) : Prop where
  eq : (st.q : ℚ) + st.r / d = x * 10 ^ st.s
  rest : st.r < d
  room : st.q < bound
  scale : st.s ≤ maxScale

/-- The division has come to the nearest that an amount can hold. -/
structure Reaches (x : ℚ) (st : State) : Prop where
  scale : 0 ≤ st.s
  bounded : st.s ≤ maxScale
  rounds : Rounds st.s.toNat x (decimal false st.q st.s.toNat)
  room : st.q < bound

variable {d : Nat} {x : ℚ} {st : State}

theorem Approaches.eq_at (h : Approaches d x st) {t : Nat} (ht : st.s = t) :
    (st.q : ℚ) + st.r / d = x * 10 ^ t := by
  rw [← zpow_natCast, ← ht]
  exact h.eq

theorem Approaches.fraction (h : Approaches d x st) : 0 ≤ (st.r : ℚ) / d ∧ (st.r : ℚ) / d ≤ 1 :=
  ⟨by positivity, (fraction_lt_one h.rest).le⟩

theorem extend_eq (h : Approaches d x st) (k : Nat) :
    ((extend d k st).q : ℚ) + (extend d k st).r / d = x * 10 ^ (extend d k st).s := by
  have hd : 0 < d := Nat.zero_lt_of_lt h.rest
  have hdiv := cast_div_eq (st.r * tenPow k) hd
  have hz : (10 : ℚ) ^ (st.s + (k : ℤ)) = 10 ^ st.s * 10 ^ k := by
    rw [zpow_add₀ (by norm_num), zpow_natCast]
  unfold extend
  dsimp only
  rw [hz, ← mul_assoc, ← h.eq, Nat.cast_add, add_assoc, ← hdiv]
  push_cast
  rw [tenPow_cast]
  ring

theorem Approaches.extend (h : Approaches d x st) {k : Nat} (hs : st.s + k ≤ maxScale)
    (hq : (extend d k st).q < bound) : Approaches d x (extend d k st) :=
  ⟨extend_eq h k, Nat.mod_lt _ (Nat.zero_lt_of_lt h.rest), hq, hs⟩

theorem rounds_of_scaled {c t : Nat} {y : ℚ} (hy : y = x * 10 ^ t) (near : HalfEven c y) (h₀ : 0 ≤ y)
    (room : y < (bound : ℚ) - 1 / 2) (full : (c : ℚ) = y ∨ t = maxScale ∨ Overflows (x * 10 ^ (t + 1))) :
    Rounds t x (decimal false c t) := by
  subst hy
  have hp : (10 : ℚ) ^ t ≠ 0 := by positivity
  have hc : decimal false c t = c / 10 ^ t := by simp [decimal]
  have hsub : |(c : ℚ) / 10 ^ t - x| * 10 ^ t = |(c : ℚ) - x * 10 ^ t| := by
    have ht : |(10 : ℚ) ^ t| = 10 ^ t := abs_of_pos (by positivity)
    rw [← ht, ← abs_mul, ht, sub_mul, div_mul_cancel₀ _ hp]
  refine ⟨onGrid_decimal .., ?_, fun tie => onGrid_decimal_half false t (near.even ?_), ?_, ?_⟩
  · rw [hc, hsub]
    exact near.near
  · rwa [hc, hsub] at tie
  · unfold Overflows
    rw [abs_of_nonneg h₀]
    exact not_le.mpr room
  · refine full.imp_left fun h => ?_
    rw [hc, h, mul_div_cancel_right₀ _ hp]

theorem halfEven_self (c : Nat) : HalfEven c c := ⟨by simp, by simp⟩

/-! ## The ways to end -/

theorem reaches_of_exact (h : Approaches d x st) (hr : st.r = 0) (hs : 0 ≤ st.s) : Reaches x st := by
  obtain ⟨t, ht⟩ := Int.eq_ofNat_of_zero_le hs
  have he := h.eq_at ht
  rw [hr, Nat.cast_zero, zero_div, add_zero] at he
  have hq : (st.q : ℚ) + 1 ≤ bound := by exact_mod_cast h.room
  refine ⟨hs, h.scale, ?_, h.room⟩
  rw [ht, Int.toNat_natCast]
  exact rounds_of_scaled he (halfEven_self st.q) (by positivity) (by linarith) (.inl rfl)

/-- One digit less, where the fraction `f` of a last digit tells `inexact` from an exact quotient. -/
theorem shorten_near (q : Nat) {f : ℚ} (h₀ : 0 ≤ f) (h₁ : f < 1) {inexact : Bool}
    (hf : inexact = false ↔ f = 0) :
    HalfEven (shorten q inexact) ((q + f) / 10) := by
  have hq : (q : ℚ) = 10 * (q / 10 : Nat) + (q % 10 : Nat) := by exact_mod_cast (Nat.div_add_mod q 10).symm
  have he : ((q : ℚ) + f) / 10 = (q / 10 : Nat) + ((q % 10 : Nat) + f) / 10 := by rw [hq]; ring
  have hr : q % 10 < 10 := Nat.mod_lt _ (by decide)
  have hr' : ((q % 10 : Nat) : ℚ) ≤ 9 := by exact_mod_cast Nat.le_of_lt_succ hr
  rw [he]
  unfold shorten
  refine .step _ (by positivity) (by linarith) (fun hu => ?_) (fun hd => ?_) (fun tie => ?_)
  · have h5 : 5 ≤ q % 10 := by omega
    have h5' : (5 : ℚ) ≤ (q % 10 : Nat) := by exact_mod_cast h5
    linarith
  · rcases Nat.lt_or_ge (q % 10) 5 with h5 | h5
    · have h4 : ((q % 10 : Nat) : ℚ) ≤ 4 := by exact_mod_cast Nat.le_of_lt_succ h5
      linarith
    · have h5' : q % 10 = 5 := by omega
      have hi : inexact = false := by
        cases inexact with
        | false => rfl
        | true => exact absurd (Or.inr ⟨h5', Or.inl rfl⟩) hd
      rw [hf.mp hi, h5']
      norm_num
  · -- a last digit of five with nothing behind it
    have h5 : q % 10 = 5 := by
      have hle : ((q % 10 : Nat) : ℚ) ≤ 5 := by linarith
      have hlt : (4 : ℚ) < (q % 10 : Nat) := by linarith
      have hle' : q % 10 ≤ 5 := by exact_mod_cast hle
      have hlt' : 4 < q % 10 := by exact_mod_cast hlt
      omega
    have hf₀ : f = 0 := by
      rw [h5] at tie
      push_cast at tie
      linarith
    simp [h5, hf.mpr hf₀]

/-- A digit was dropped from `y`, which is past every coefficient but not by a whole digit. -/
theorem reaches_of_dropped {c r : Nat} {s : Int} {i : Bool} {y : ℚ} (hs : 1 ≤ s) (hs' : s ≤ maxScale)
    (hy : y = x * 10 ^ s) (near : HalfEven c (y / 10)) (full : (bound : ℚ) - 1 / 2 ≤ y)
    (small : y < ((bound : ℚ) - 1 / 2) * 10) : Reaches x ⟨c, r, s - 1, i⟩ := by
  obtain ⟨t, ht⟩ := Int.eq_ofNat_of_zero_le (show 0 ≤ s - 1 by omega)
  have hst : s = ((t + 1 : Nat) : ℤ) := by push_cast; omega
  rw [hst, zpow_natCast] at hy
  have hc : (c : ℚ) < bound := by
    have := (abs_le.mp near.near).2
    linarith
  have h₀ : (0 : ℚ) ≤ (bound : ℚ) - 1 / 2 := by norm_num [bound]
  refine ⟨show 0 ≤ s - 1 by omega, show s - 1 ≤ maxScale by omega, ?_, by exact_mod_cast hc⟩
  dsimp only
  rw [ht, Int.toNat_natCast]
  refine rounds_of_scaled ?_ near (by linarith) (by linarith) (.inr (.inr ?_))
  · rw [hy, pow_succ]
    ring
  · unfold Overflows
    rw [← hy]
    exact full.trans (le_abs_self y)

/-- A block adds less than one to the quotient before it is moved. -/
theorem extend_small (h : Approaches d x st) {k : Nat} (hk : k ≤ block) (hroom : st.q * tenPow k < bound) :
    ((extend d k st).q : ℚ) + (extend d k st).r / d < ((bound : ℚ) - 1 / 2) * 10 := by
  have hz : (10 : ℚ) ^ (st.s + (k : ℤ)) = 10 ^ st.s * 10 ^ k := by
    rw [zpow_add₀ (by norm_num), zpow_natCast]
  have hmoved : ((extend d k st).q : ℚ) + (extend d k st).r / d = st.q * 10 ^ k + st.r / d * 10 ^ k := by
    rw [extend_eq h k]
    show x * 10 ^ (st.s + (k : ℤ)) = _
    rw [hz, ← mul_assoc, ← h.eq, add_mul]
  have hq : (st.q : ℚ) * 10 ^ k < bound := by
    rw [← tenPow_cast]
    exact_mod_cast hroom
  have hp : (10 : ℚ) ^ k ≤ 10 ^ 9 := pow_le_pow_right₀ (by norm_num) hk
  have hf : (st.r : ℚ) / d * 10 ^ k ≤ 1 * 10 ^ 9 := mul_le_mul h.fraction.2 hp (by positivity) (by norm_num)
  rw [hmoved]
  norm_num [bound] at hq ⊢
  linarith

theorem reaches_of_outgrown (h : Approaches d x st) {k : Nat} (hk : k ≤ block)
    (hroom : st.q * tenPow k < bound) (hs : 1 ≤ (extend d k st).s) (hs' : (extend d k st).s ≤ maxScale)
    (hq : bound ≤ (extend d k st).q) :
    Reaches x { extend d k st with
      q := shorten (extend d k st).q ((extend d k st).r != 0), s := (extend d k st).s - 1 } := by
  have he := extend_eq h k
  have hq' : (bound : ℚ) ≤ (extend d k st).q := by exact_mod_cast hq
  have hr : (extend d k st).r < d := Nat.mod_lt _ (Nat.zero_lt_of_lt h.rest)
  have hf : (0 : ℚ) ≤ (extend d k st).r / d := by positivity
  refine reaches_of_dropped hs hs' he ?_ (by linarith) (extend_small h hk hroom)
  have hd' : (d : ℚ) ≠ 0 := by exact_mod_cast (Nat.zero_lt_of_lt h.rest).ne'
  refine shorten_near _ hf (fraction_lt_one hr) ?_
  rw [bne_eq_false_iff_eq, div_eq_zero_iff, Nat.cast_eq_zero, or_iff_left hd']

/-- The largest coefficient is odd, so that it is kept only by less than half a step. -/
theorem sum_lt_of_down {q r : Nat} (hq : q < bound) (hd : 0 < d) (h : ¬ (d < 2 * r ∨ 2 * r = d ∧ q % 2 = 1)) :
    (q : ℚ) + r / d < bound - 1 / 2 := by
  have heven : bound % 2 = 0 := by decide
  rcases Nat.lt_or_ge (q + 1) bound with hlt | hge
  · have hf : (r : ℚ) / d ≤ 1 / 2 := fraction_le_half hd (by omega)
    have hq' : (q : ℚ) + 1 + 1 ≤ bound := by exact_mod_cast hlt
    linarith
  · have hf : (r : ℚ) / d < 1 / 2 := fraction_lt_half hd (by omega)
    have hq' : (q : ℚ) + 1 ≤ bound := by exact_mod_cast hq
    linarith

theorem close_near (q : Nat) {r : Nat} (hr : r < d) :
    HalfEven (if d < 2 * r ∨ 2 * r = d ∧ q % 2 = 1 then q + 1 else q) (q + r / d) := by
  have hd : 0 < d := Nat.zero_lt_of_lt hr
  refine .step q (by positivity) (fraction_lt_one hr).le (fun hu => half_le_fraction hd ?_)
    (fun hn => fraction_le_half hd ?_) (fun tie => ?_)
  · omega
  · omega
  · have htie := fraction_eq_half hd tie
    omega

/-- The last digit is rounded by the remainder, when there is no room for another one. -/
theorem reaches_of_close {st' : State} (h : Approaches d x st) (hs : 0 ≤ st.s)
    (full : st.s = maxScale ∨ bound ≤ st.q * 10) (hc : close d st = some st') : Reaches x st' := by
  have hd : 0 < d := Nat.zero_lt_of_lt h.rest
  obtain ⟨h₀, h₁⟩ := h.fraction
  obtain ⟨t, ht⟩ := Int.eq_ofNat_of_zero_le hs
  have he := h.eq_at ht
  have hfull : t = maxScale ∨ Overflows (x * 10 ^ (t + 1)) := by
    refine full.imp (fun h => by rw [ht] at h; exact_mod_cast h) fun hq => ?_
    have hq' : (bound : ℚ) ≤ st.q * 10 := by exact_mod_cast hq
    unfold Overflows
    rw [pow_succ, ← mul_assoc, ← he, abs_of_nonneg (by positivity)]
    linarith
  have near := close_near st.q h.rest
  unfold close at hc
  split at hc
  · rename_i hup
    have hf : 1 / 2 ≤ (st.r : ℚ) / d := half_le_fraction hd (by omega)
    split at hc
    · rename_i hq
      cases hc
      have hq' : (st.q : ℚ) + 1 + 1 ≤ bound := by exact_mod_cast hq
      refine ⟨hs, h.scale, ?_, hq⟩
      dsimp only
      rw [ht, Int.toNat_natCast]
      rw [if_pos hup] at near
      exact rounds_of_scaled he near (by positivity) (by linarith) (.inr hfull)
    · -- the coefficient would be the bound, and a digit has to go
      rename_i hq
      split at hc
      · cases hc
      · rename_i hs'
        cases hc
        have hq' : st.q + 1 = bound := by have := h.room; omega
        have hq'' : (st.q : ℚ) + 1 = bound := by exact_mod_cast hq'
        have hb : shorten bound false = 7922816251426433759354395034 := by decide
        refine reaches_of_dropped (by omega) h.scale h.eq ⟨?_, fun _ => ?_⟩ (by linarith)
          (by norm_num [bound] at hq'' ⊢; linarith)
        · rw [hq', hb, abs_le]
          norm_num [bound] at hq'' ⊢
          constructor <;> linarith
        · rw [hq']
          decide
  · rename_i hdown
    have hsum : (st.q : ℚ) + st.r / d < bound - 1 / 2 := sum_lt_of_down h.room hd hdown
    cases hc
    refine ⟨hs, h.scale, ?_, h.room⟩
    rw [ht, Int.toNat_natCast]
    rw [if_neg hdown] at near
    exact rounds_of_scaled he near (by positivity) hsum (.inr hfull)

/-! ## The loop -/

theorem room_spec (q : Nat) (s : Int) (k : Nat) :
    room q s k ≤ k ∧ (0 < room q s k → s + room q s k ≤ maxScale ∧ q * tenPow (room q s k) < bound) ∧
      (room q s k < k → maxScale < s + (room q s k + 1 : Nat) ∨ bound ≤ q * tenPow (room q s k + 1)) := by
  induction k with
  | zero => exact ⟨le_rfl, fun h => absurd h (lt_irrefl _), fun h => absurd h (lt_irrefl _)⟩
  | succ k ih =>
    obtain ⟨h₁, h₂, h₃⟩ := ih
    unfold room
    split
    · rename_i hk
      exact ⟨le_rfl, fun _ => hk, fun h => absurd h (lt_irrefl _)⟩
    · rename_i hk
      refine ⟨by omega, h₂, fun _ => ?_⟩
      rcases Nat.lt_or_ge (room q s k) k with hlt | hge
      · exact h₃ hlt
      · rw [Nat.le_antisymm h₁ hge]
        omega

theorem loop_reaches (n : Nat) {st' : State} (h : Approaches d x st) (hl : loop d n st = some st') :
    Reaches x st' := by
  induction n generalizing st with
  | zero => cases hl
  | succ n ih =>
    unfold loop at hl
    split at hl
    · rename_i hr
      split at hl
      · cases hl
        exact reaches_of_exact h hr ‹_›
      · rename_i hs
        dsimp only at hl
        split at hl
        · rename_i hq
          refine ih (h.extend ?_ ?_) hl
          · unfold maxScale
            omega
          · simp only [extend, hr, Nat.zero_mul, Nat.zero_div, Nat.add_zero]
            exact hq
        · cases hl
    · rename_i hr
      obtain ⟨hle, hroom, hzero⟩ := room_spec st.q st.s block
      have h' : Approaches d x { st with inexact := true } := ⟨h.eq, h.rest, h.room, h.scale⟩
      dsimp only at hl
      split at hl
      · cases hl
      · rename_i hneg
        split at hl
        · rename_i hx
          rw [hx] at hneg
          have hs : 0 ≤ st.s := not_lt.mp fun hlt => hneg ⟨by decide, by simpa using hlt⟩
          have hfull := hzero (by rw [hx]; decide)
          rw [hx] at hfull
          refine reaches_of_close h' hs (hfull.imp_left fun hm => ?_) hl
          have := h.scale
          show st.s = maxScale
          push_cast at hm
          omega
        · rename_i hx
          obtain ⟨hscale, hfit⟩ := hroom (Nat.pos_of_ne_zero hx)
          split at hl
          · exact ih (h'.extend hscale ‹_›) hl
          · rename_i hq
            split at hl
            · cases hl
            · rename_i hs
              cases hl
              exact reaches_of_outgrown h' hle hfit (by omega) hscale (not_lt.mp hq)

/-! ## The ways to fail -/

/-- At a scale of zero or less nothing is left to drop. -/
theorem overflows_of_outgrown {s : Int} {y : ℚ} (hy : y = x * 10 ^ s) (hs : s ≤ 0)
    (full : (bound : ℚ) - 1 / 2 ≤ y) :
    Overflows x := by
  have hp : (0 : ℚ) < 10 ^ s := zpow_pos (by norm_num) s
  have hle : (10 : ℚ) ^ s ≤ 1 := zpow_le_one_of_nonpos₀ (by norm_num) hs
  calc (bound : ℚ) - 1 / 2 ≤ y := full
    _ ≤ |x| * 10 ^ s := by rw [hy]; exact mul_le_mul_of_nonneg_right (le_abs_self x) hp.le
    _ ≤ |x| := mul_le_of_le_one_right (abs_nonneg x) hle

theorem overflows_of_extend (h : Approaches d x st) {k : Nat} (hs : st.s + k ≤ 0)
    (hq : bound ≤ (extend d k st).q) :
    Overflows x := by
  refine overflows_of_outgrown (extend_eq h k) hs ?_
  have hq' : (bound : ℚ) ≤ (extend d k st).q := by exact_mod_cast hq
  have hf : (0 : ℚ) ≤ (extend d k st).r / d := by positivity
  linarith

theorem le_extend (d k : Nat) (st : State) : st.q * tenPow k ≤ (extend d k st).q := Nat.le_add_right ..

theorem overflows_of_close (h : Approaches d x st) (hs : 0 ≤ st.s) (hc : close d st = none) :
    Overflows x := by
  unfold close at hc
  split at hc
  · rename_i hup
    split at hc
    · cases hc
    · rename_i hq
      split at hc
      · rename_i hs'
        refine overflows_of_outgrown h.eq (by omega) ?_
        have hq' : (bound : ℚ) ≤ st.q + 1 := by exact_mod_cast not_lt.mp hq
        have hf : 1 / 2 ≤ (st.r : ℚ) / d := half_le_fraction (Nat.zero_lt_of_lt h.rest) (by omega)
        linarith
      · cases hc
  · cases hc

/-- A division with a block left for every digit fails only where the quotient is out of range. -/
theorem overflows_of_loop {n : Nat} (h : Approaches d x st) (hn : maxScale < st.s + n)
    (hl : loop d n st = none) :
    Overflows x := by
  induction n generalizing st with
  | zero =>
    have := h.scale
    omega
  | succ n ih =>
    unfold loop at hl
    split at hl
    · rename_i hr
      split at hl
      · cases hl
      · rename_i hs
        dsimp only at hl
        split at hl
        · rename_i hq
          refine ih (h.extend ?_ ?_) ?_ hl
          · unfold maxScale
            omega
          · simp only [extend, hr, Nat.zero_mul, Nat.zero_div, Nat.add_zero]
            exact hq
          · simp only [extend, block]
            omega
        · rename_i hq
          exact overflows_of_extend h (by omega) ((not_lt.mp hq).trans (le_extend ..))
    · obtain ⟨_, hroom, hlast⟩ := room_spec st.q st.s block
      have h' : Approaches d x { st with inexact := true } := ⟨h.eq, h.rest, h.room, h.scale⟩
      dsimp only at hl
      split at hl
      · -- not even the digits before the point have room
        rename_i hneg
        refine overflows_of_extend (k := room st.q st.s block + 1) h (by omega) (le_trans ?_ (le_extend ..))
        rcases hlast hneg.1 with hm | hq
        · unfold maxScale at hm
          omega
        · exact hq
      · rename_i hneg
        split at hl
        · rename_i hx
          rw [hx] at hneg
          exact overflows_of_close h' (not_lt.mp fun hlt => hneg ⟨by decide, by simpa using hlt⟩) hl
        · rename_i hx
          obtain ⟨hscale, _⟩ := hroom (Nat.pos_of_ne_zero hx)
          split at hl
          · refine ih (h'.extend hscale ‹_›) ?_ hl
            simp only [extend]
            omega
          · rename_i hq
            split at hl
            · rename_i hs
              refine overflows_of_extend h' ?_ (not_lt.mp hq)
              simp only [extend] at hs ⊢
              omega
            · cases hl

/-! ## Trailing zeros -/

theorem decimal_drop {q s k : Nat} (n : Bool) (hk : k ≤ s) (hq : q % tenPow k = 0) :
    decimal n (q / tenPow k) (s - k) = decimal n q s := by
  obtain ⟨c, rfl⟩ := Nat.dvd_of_mod_eq_zero hq
  obtain ⟨t, rfl⟩ := Nat.exists_eq_add_of_le hk
  rw [Nat.mul_div_cancel_left c (tenPow_pos k), Nat.add_sub_cancel_left, Nat.mul_comm, Nat.add_comm]
  exact (decimal_mul_tenPow n c t k).symm

theorem dropMany_decimal (b : Bool) (k n : Nat) (p : Nat × Nat) :
    decimal b (dropMany k n p).1 (dropMany k n p).2 = decimal b p.1 p.2 := by
  induction n generalizing p with
  | zero => rfl
  | succ n ih =>
    obtain ⟨q, s⟩ := p
    unfold dropMany
    split
    · rename_i h
      rw [ih]
      exact decimal_drop b h.1 h.2.1
    · rfl

theorem dropOnce_decimal (b : Bool) (k : Nat) (p : Nat × Nat) :
    decimal b (dropOnce k p).1 (dropOnce k p).2 = decimal b p.1 p.2 := by
  unfold dropOnce
  split
  · rename_i h
    exact decimal_drop b h.1 h.2
  · rfl

theorem trim_decimal (b : Bool) (q s : Nat) : decimal b (trim q s).1 (trim q s).2 = decimal b q s := by
  unfold trim
  rw [dropOnce_decimal, dropOnce_decimal, dropOnce_decimal, dropMany_decimal]

theorem dropMany_le (k n : Nat) (p : Nat × Nat) : (dropMany k n p).1 ≤ p.1 ∧ (dropMany k n p).2 ≤ p.2 := by
  induction n generalizing p with
  | zero => exact ⟨le_rfl, le_rfl⟩
  | succ n ih =>
    obtain ⟨q, s⟩ := p
    unfold dropMany
    split
    · obtain ⟨h₁, h₂⟩ := ih (q / tenPow k, s - k)
      exact ⟨h₁.trans (Nat.div_le_self ..), h₂.trans (Nat.sub_le ..)⟩
    · exact ⟨le_rfl, le_rfl⟩

theorem dropOnce_le (k : Nat) (p : Nat × Nat) : (dropOnce k p).1 ≤ p.1 ∧ (dropOnce k p).2 ≤ p.2 := by
  unfold dropOnce
  split
  · exact ⟨Nat.div_le_self .., Nat.sub_le ..⟩
  · exact ⟨le_rfl, le_rfl⟩

theorem trim_le (q s : Nat) : (trim q s).1 ≤ q ∧ (trim q s).2 ≤ s := by
  unfold trim
  have h₈ := dropMany_le 8 4 (q, s)
  have h₄ := dropOnce_le 4 (dropMany 8 4 (q, s))
  have h₂ := dropOnce_le 2 (dropOnce 4 (dropMany 8 4 (q, s)))
  have h₁ := dropOnce_le 1 (dropOnce 2 (dropOnce 4 (dropMany 8 4 (q, s))))
  exact ⟨h₁.1.trans (h₂.1.trans (h₄.1.trans h₈.1)), h₁.2.trans (h₂.2.trans (h₄.2.trans h₈.2))⟩

end Division

/-! ## The quotient -/

/-- The quotient of the magnitudes of two amounts. -/
def ratio (a b : Amount) : ℚ := (a.coeff : ℚ) / b.coeff / 10 ^ ((a.scale : ℤ) - b.scale)

theorem value_div (a b : Amount) :
    a.value / b.value = if a.negative != b.negative then -ratio a b else ratio a b := by
  have ha : (10 : ℚ) ^ a.scale ≠ 0 := by positivity
  have hb : (10 : ℚ) ^ b.scale ≠ 0 := by positivity
  unfold ratio
  rw [zpow_sub₀ (by norm_num), zpow_natCast, zpow_natCast]
  unfold value decimal
  cases a.negative <;> cases b.negative <;> simp <;> field_simp

theorem approaches_start (a : Amount) {b : Amount} (hb : b.isZero = false) :
    Division.Approaches b.coeff (ratio a b) ⟨a.coeff / b.coeff, a.coeff % b.coeff,
      (a.scale : ℤ) - b.scale, false⟩ := by
  have hpos : 0 < b.coeff := by
    unfold isZero at hb
    rw [beq_eq_false_iff_ne] at hb
    omega
  have hz : (10 : ℚ) ^ ((a.scale : ℤ) - b.scale) ≠ 0 := zpow_ne_zero _ (by norm_num)
  refine ⟨?_, Nat.mod_lt _ hpos, Nat.lt_of_le_of_lt (Nat.div_le_self ..) a.coeff_lt, ?_⟩
  · dsimp only
    rw [← cast_div_eq _ hpos, ratio, div_mul_cancel₀ _ hz]
  · have := a.scale_le
    show (a.scale : ℤ) - b.scale ≤ maxScale
    unfold maxScale
    omega

theorem overflows_value_div {a b : Amount} : Overflows (a.value / b.value) ↔ Overflows (ratio a b) := by
  rw [value_div]
  split
  · exact overflows_neg
  · exact Iff.rfl

theorem nearest_value_div {a b : Amount} {q s : Nat} (h : Nearest (ratio a b) (decimal false q s)) :
    Nearest (a.value / b.value) (decimal (a.negative != b.negative) q s) := by
  rw [value_div]
  cases a.negative != b.negative with
  | false => exact h
  | true =>
    have hneg := decimal_not false q s
    rw [Bool.not_false] at hneg
    rw [hneg]
    exact h.neg

theorem quotient?_fits (a : Amount) {b : Amount} (hb : b.isZero = false) :
    Fits (a.value / b.value) (a.quotient? b) := by
  unfold quotient?
  rw [if_neg (by simp [hb])]
  split
  · rename_i ha
    rw [value_of_isZero ha, zero_div, ← value_zero]
    exact .exact zero
  · cases hl : Division.loop b.coeff (2 * maxScale + 1)
      ⟨a.coeff / b.coeff, a.coeff % b.coeff, (a.scale : ℤ) - b.scale, false⟩ with
    | none =>
      refine .overflow (overflows_value_div.mpr (Division.overflows_of_loop (approaches_start a hb) ?_ hl))
      have := b.scale_le
      show (maxScale : ℤ) < (a.scale : ℤ) - b.scale + ((2 * maxScale + 1 : Nat) : ℤ)
      unfold maxScale
      omega
    | some st =>
      obtain ⟨hs, hs', hr, hroom⟩ := Division.loop_reaches _ (approaches_start a hb) hl
      simp only [bind, Option.bind]
      -- whatever is trimmed, the digits of the result are those of the division
      generalize hp : (if st.inexact = true then Division.trim st.q st.s.toNat else (st.q, st.s.toNat)) = p
      have hle : p.1 ≤ st.q ∧ p.2 ≤ st.s.toNat := by
        rw [← hp]
        split
        · exact Division.trim_le ..
        · exact ⟨le_rfl, le_rfl⟩
      have hd : decimal (a.negative != b.negative) p.1 p.2 =
          decimal (a.negative != b.negative) st.q st.s.toNat := by
        rw [← hp]
        split
        · exact Division.trim_decimal ..
        · rfl
      obtain ⟨q, s⟩ := p
      have hq : q < bound := Nat.lt_of_le_of_lt hle.1 hroom
      have ht : s ≤ 28 := by
        have := hle.2
        unfold maxScale at hs'
        omega
      have hm : make? (a.negative != b.negative && q != 0) q s =
          some ⟨a.negative != b.negative && q != 0, q, s, hq, ht⟩ := make?_eq_some_iff.mpr ⟨rfl, rfl, rfl⟩
      rw [hm]
      refine .near (overflows_value_div.not.mpr hr.inRange) ?_
      show Nearest (a.value / b.value) (decimal (a.negative != b.negative && q != 0) q s)
      rw [decimal_and _ _ (fun h => by simpa using h), hd]
      exact nearest_value_div ⟨_, by omega, hr⟩

theorem div?_eq_none_iff {a b : Amount} (hb : b.isZero = false) :
    a.div? b = none ↔ Overflows (a.value / b.value) := by
  unfold div?
  rw [Option.map_eq_none_iff]
  exact (quotient?_fits a hb).eq_none_iff

theorem div?_rounded {a b c : Amount} (h : a.div? b = some c) : Rounded (a.value / b.value) c := by
  obtain ⟨q, hq, rfl⟩ := Option.map_eq_some_iff.mp h
  have hb : b.isZero = false := by
    by_contra hz
    simp [quotient?, hz] at hq
  exact ⟨q, (quotient?_fits a hb).nearest hq, rfl⟩

end YieldVault.Amount
