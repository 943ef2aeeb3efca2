import YieldVault.Proofs.Amount.Layout
import YieldVault.Proofs.Amount.Wire

/-!
# Shortest texts

Of all amounts with one value there is one without a zero at the end of its fraction and without a sign before
nothing. Its text is the one that is shown, so a text and a value determine each other, and whatever has no
more digits than a reader takes comes back exactly.
-/

namespace YieldVault

namespace Amount

/-- No zero at the end of the fraction, and no sign before nothing. -/
structure Shortest (a : Amount) : Prop where
  last : 0 < a.scale → a.coeff % 10 ≠ 0
  sign : a.negative = true → a.coeff ≠ 0

/-! ## Trailing zeros -/

theorem stripZeros_value (n : Bool) (c s : Nat) :
    decimal n (stripZeros c s).1 (stripZeros c s).2 = decimal n c s := by
  induction s generalizing c with
  | zero => rfl
  | succ s ih =>
    unfold stripZeros
    split
    · rename_i h
      obtain ⟨d, rfl⟩ := Nat.dvd_of_mod_eq_zero h
      rw [ih, Nat.mul_div_cancel_left d (by decide), Nat.mul_comm 10 d]
      exact (decimal_mul_tenPow n d s 1).symm
    · rfl

theorem stripZeros_last (c s : Nat) : 0 < (stripZeros c s).2 → (stripZeros c s).1 % 10 ≠ 0 := by
  induction s generalizing c with
  | zero => intro h; cases h
  | succ s ih =>
    unfold stripZeros
    split
    · exact ih _
    · rename_i h
      exact fun _ => h

theorem value_normalize (a : Amount) : a.normalize.value = a.value := by
  unfold normalize
  split
  · rename_i h
    rw [value_zero, value_of_isZero h]
  · exact stripZeros_value ..

theorem shortest_normalize (a : Amount) : a.normalize.Shortest := by
  have hv := a.value_normalize
  unfold normalize at hv ⊢
  split at hv
  · rename_i h
    rw [if_pos h]
    exact ⟨fun h => absurd h (by decide), fun h => absurd h (by decide)⟩
  · rename_i h
    rw [if_neg h]
    refine ⟨stripZeros_last _ _, fun _ hz => h ?_⟩
    rw [isZero_iff, ← hv, ← isZero_iff, isZero]
    exact beq_iff_eq.mpr hz

/-! ## One for each value -/

section
variable {a b : Amount}

/-- The last digit of the fraction is on no coarser grid. -/
theorem Shortest.scale_le (h : a.Shortest) {p : Nat} (grid : OnGrid p a.value) : a.scale ≤ p := by
  by_contra hp
  obtain ⟨j, hj⟩ := Nat.exists_eq_add_of_lt (not_le.mp hp)
  obtain ⟨m, hm⟩ := grid.abs_eq
  have hc : (a.coeff : ℚ) = (10 * (m * 10 ^ j) : ℕ) := by
    rw [← abs_value_mul_pow, hj, pow_succ, pow_add, Nat.cast_mul, Nat.cast_mul, ← hm]
    push_cast
    ring
  have hten : a.coeff = 10 * (m * 10 ^ j) := by exact_mod_cast hc
  exact h.last (by omega) (by rw [hten, Nat.mul_mod_right])

theorem Shortest.negative_iff (h : a.Shortest) : a.negative = true ↔ a.value < 0 := by
  rw [← isNegative_iff]
  constructor
  · intro hn
    simp [isNegative, isZero, hn, h.sign hn]
  · intro hn
    exact (Bool.and_eq_true_iff.mp hn).2

theorem Shortest.unique (ha : a.Shortest) (hb : b.Shortest) (h : a.value = b.value) : a = b := by
  have hs : a.scale = b.scale :=
    le_antisymm (ha.scale_le (h ▸ b.value_onGrid le_rfl)) (hb.scale_le (h ▸ a.value_onGrid le_rfl))
  have hc : a.coeff = b.coeff := by
    have hq : (a.coeff : ℚ) = b.coeff := by rw [← abs_value_mul_pow, ← abs_value_mul_pow, h, hs]
    exact_mod_cast hq
  have hn : a.negative = b.negative := by rw [Bool.eq_iff_iff, ha.negative_iff, hb.negative_iff, h]
  obtain ⟨_, _, _, _, _⟩ := a
  obtain ⟨_, _, _, _, _⟩ := b
  cases hs
  cases hc
  cases hn
  rfl

theorem normalize_eq_iff : a.normalize = b.normalize ↔ a.value = b.value := by
  refine ⟨fun h => ?_, fun h => a.shortest_normalize.unique b.shortest_normalize ?_⟩
  · rw [← a.value_normalize, h, b.value_normalize]
  · rw [a.value_normalize, h, b.value_normalize]

end

/-! ## Shown and read -/

theorem ofWire_display (a : Amount) : ofWire a.display = some a.normalize := by
  rw [display, ofWire_wire, dropZeroSign_eq_self_iff.mpr a.shortest_normalize.sign]

theorem display_eq_iff {a b : Amount} : a.display = b.display ↔ a.value = b.value := by
  rw [← normalize_eq_iff]
  refine ⟨fun h => ?_, fun h => congrArg wire h⟩
  have hw := a.ofWire_display
  rw [h, b.ofWire_display] at hw
  exact (Option.some.inj hw).symm

theorem toList_display (a : Amount) : a.display.toList = a.normalize.layout.chars := String.toList_ofList

theorem ofText_display {a : Amount} (h : OnGrid places a.value) :
    ∃ b, ofText a.display = .ok b ∧ b.value = a.value := by
  have hs : a.normalize.scale ≤ places := a.shortest_normalize.scale_le (a.value_normalize.symm ▸ h)
  obtain ⟨b, hb, hl⟩ := Layout.ofChars_chars (l := a.normalize.layout) a.normalize.coeff_lt hs
  have hv : b.value = a.normalize.value := congrArg Layout.value hl
  refine ⟨b, ?_, hv.trans a.value_normalize⟩
  rw [ofText, toList_display, hb]

end Amount

/-- The lenient reader gets the magnitude of a shown amount, cut down to its places. -/
theorem Entry.ofText_display (a : Amount) :
    ∃ b, Entry.ofText a.display = .value b ∧ b.value = cutDown Amount.places |a.value| := by
  obtain ⟨b, hb, hv⟩ := Layout.entry_chars (l := a.normalize.layout) a.normalize.coeff_lt
  have hn : a.normalize.layout.value = a.value := a.value_normalize
  refine ⟨b, ?_, hn ▸ hv⟩
  rw [Entry.ofText, Amount.toList_display, hb]

namespace Amount

/-- What is shown is read back: exactly up to nine digits behind the point, and cut down to them from there
on. Two amounts are shown alike only if they are equal. -/
theorem display_reads_back :
    (∀ a : Amount, OnGrid 9 a.value → ∃ b, ofText a.display = .ok b ∧ b.value = a.value) ∧
      (∀ a : Amount, OnGrid 9 a.value → 0 ≤ a.value → ∃ b, Entry.ofText a.display = .value b ∧
        b.value = a.value) ∧
      (∀ a b : Amount, a.display = b.display ↔ a.value = b.value) ∧
      (∀ a : Amount, 0 ≤ a.value → ∃ b, Entry.ofText a.display = .value b ∧ b.value = cutDown 9 a.value) := by
  have lenient : ∀ a : Amount, 0 ≤ a.value → ∃ b, Entry.ofText a.display = .value b ∧
      b.value = cutDown 9 a.value := by
    intro a h
    obtain ⟨b, hb, hv⟩ := Entry.ofText_display a
    exact ⟨b, hb, by rw [hv, abs_of_nonneg h]; rfl⟩
  refine ⟨fun a => ofText_display, fun a grid h => ?_, fun a b => display_eq_iff, lenient⟩
  obtain ⟨b, hb, hv⟩ := lenient a h
  exact ⟨b, hb, by rw [hv, cutDown_of_onGrid grid]⟩

/-- `-12.500000000000` -/
def paddedDebt : Amount := ⟨true, 12500000000000, 12, by decide, by decide⟩

/-- All 29 digits that a coefficient has room for, 28 of them behind the point. -/
def longest : Amount := { extreme false with scale := maxScale, scale_le := le_rfl }

theorem display_reads_back_examples :
    (paddedDebt.display = "-12.5" ∧ ∃ b, ofText "-12.5" = .ok b ∧ b.value = paddedDebt.value) ∧
      ∃ b, Entry.ofText "7.9228162514264337593543950335" = .value b ∧ b.value = cutDown 9 longest.value := by
  have shown : paddedDebt.display = "-12.5" := by decide +kernel
  have shown' : longest.display = "7.9228162514264337593543950335" := by decide +kernel
  have grid : OnGrid 9 paddedDebt.value := ⟨-12500000000, by norm_num [paddedDebt, value, decimal]⟩
  have nonneg : zero ≤ longest := by decide
  refine ⟨⟨shown, shown ▸ display_reads_back.1 paddedDebt grid⟩, ?_⟩
  rw [← shown']
  exact display_reads_back.2.2.2 longest (value_zero ▸ le_iff_value.mp nonneg)

end Amount

end YieldVault
