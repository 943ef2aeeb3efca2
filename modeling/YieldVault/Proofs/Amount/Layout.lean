import YieldVault.Amount.Text
import YieldVault.Proofs.Amount.Order
import YieldVault.Proofs.Entry.Start
import YieldVault.Proofs.Text.Numeral

/-!
# Laid out digits and their readers

The digits of a layout write its coefficient, and as many of them as its scale says stand behind the point. So
either reader gets the coefficient back: the strict one with its sign, from the text as it is; the lenient one
without a sign, and cut down to the places that it reads, from any text that differs from the layout's in
nothing but what the lenient reader drops.
-/

namespace YieldVault

namespace Text

theorem not_blank_of_isDigit {c : Char} (h : c.isDigit = true) : isBlank c = false := by
  simp only [Char.isDigit, Bool.and_eq_true, decide_eq_true_eq] at h
  have hge : 48 ≤ c.toNat := h.1
  have hle : c.toNat ≤ 57 := h.2
  simp only [isBlank, blankRanges, List.any_cons, List.any_nil, Bool.or_false, Bool.or_eq_false_iff,
    Bool.and_eq_false_iff, decide_eq_false_iff_not]
  omega

theorem Digits.notMem {ds : List Char} (h : Digits ds) {c : Char} (hc : c.isDigit = false) : c ∉ ds := by
  intro hmem
  rw [h c hmem] at hc
  cases hc

end Text

theorem Entry.sanitizeChars_digits {ds : List Char} (h : Text.Digits ds) : sanitizeChars ds = ds := by
  unfold sanitizeChars
  rw [List.filter_eq_self]
  intro c hc
  rw [h c hc]
  rfl

namespace Layout

variable (l : Layout)

/-- The number that a layout shows. -/
def value : ℚ := decimal l.negative l.coeff l.scale

theorem abs_value : |l.value| = decimal false l.coeff l.scale := abs_decimal ..

/-! ## Digits -/

theorem length_fractionDigits : l.fractionDigits.length = l.scale := by
  unfold fractionDigits
  split
  · rename_i h
    simp [h]
  · rename_i h
    exact Text.length_padded (Nat.pos_of_ne_zero h) (Nat.mod_lt _ (tenPow_pos _))

theorem digits_integerDigits : Text.Digits l.integerDigits := fun _ => Text.isDigit_of_mem_digits

theorem digits_fractionDigits : Text.Digits l.fractionDigits := by
  intro c hc
  unfold fractionDigits at hc
  split at hc
  · cases hc
  · exact Text.isDigit_of_mem_padded hc

theorem digits_digits : Text.Digits (l.integerDigits ++ l.fractionDigits) := by
  intro c hc
  exact (List.mem_append.mp hc).elim (l.digits_integerDigits c) (l.digits_fractionDigits c)

theorem number_digits : Text.number (l.integerDigits ++ l.fractionDigits) = l.coeff := by
  have hf : Text.number l.fractionDigits = l.coeff % tenPow l.scale := by
    unfold fractionDigits
    split
    · rename_i h
      rw [h, tenPow_zero, Nat.mod_one]
      rfl
    · exact Text.number_padded _ _
  rw [Text.number_append, l.length_fractionDigits, hf, integerDigits, Text.number_digits]
  exact Nat.div_add_mod' ..

/-- The point stands before the digits of the fraction. -/
theorem splits : Amount.Splits (l.integerDigits ++ l.fraction) l.integerDigits l.fractionDigits := by
  have hi : '.' ∉ l.integerDigits := l.digits_integerDigits.notMem (by decide)
  unfold fraction
  by_cases h : l.scale = 0
  · have hf : l.fractionDigits = [] := List.length_eq_zero_iff.mp (l.length_fractionDigits.trans h)
    rw [if_pos h, hf, List.append_nil]
    exact .whole hi
  · rw [if_neg h]
    exact .point hi _

/-! ## The strict reader -/

theorem mem_chars {c : Char} (h : c ∈ l.chars) : c = '-' ∨ c = '.' ∨ c.isDigit = true := by
  unfold chars sign fraction at h
  simp only [List.mem_append] at h
  rcases h with (h | h) | h
  · split at h <;> simp_all
  · exact .inr (.inr (l.digits_integerDigits c h))
  · split at h
    · cases h
    · rcases List.mem_cons.mp h with rfl | h
      · exact .inr (.inl rfl)
      · exact .inr (.inr (l.digits_fractionDigits c h))

theorem not_blank_of_mem_chars {c : Char} (h : c ∈ l.chars) : Text.isBlank c = false := by
  rcases l.mem_chars h with rfl | rfl | h
  · decide
  · decide
  · exact Text.not_blank_of_isDigit h

theorem trims_chars : Text.Trims l.chars l.chars where
  blanks := ⟨[], [], by simp, by simp⟩
  first _ h := l.not_blank_of_mem_chars (List.mem_of_mem_head? h)
  last _ h := l.not_blank_of_mem_chars (List.mem_of_getLast? h)

theorem signs_chars : Amount.Signs l.chars l.negative (l.integerDigits ++ l.fraction) := by
  obtain ⟨c, cs, hcs, hc⟩ := Text.digits_eq_cons (l.coeff / tenPow l.scale)
  unfold chars sign
  cases l.negative with
  | true => exact .minus _
  | false =>
    refine .plain ?_
    unfold integerDigits
    rw [hcs]
    rintro ⟨⟩
    cases hc

theorem dissects_chars : Amount.Dissects l.chars l.negative l.integerDigits l.fractionDigits :=
  ⟨_, _, l.trims_chars, l.signs_chars, l.splits⟩

/-- A layout of no more than the places that are read is read as it is. -/
theorem ofChars_chars {l : Layout} (coeff_lt : l.coeff < Amount.bound) (scale_le : l.scale ≤ Amount.places) :
    ∃ a, Amount.ofChars l.chars = .ok a ∧ a.layout = l := by
  have hne : l.integerDigits ++ l.fractionDigits ≠ [] := by
    simp [integerDigits, Text.digits_ne_nil]
  rcases Amount.ofChars_of_dissects l.dissects_chars with ⟨hnil, _⟩ | ⟨_, h⟩
  · exact absurd hnil hne
  · rw [l.length_fractionDigits] at h
    generalize Amount.ofChars l.chars = r at h
    cases h with
    | invalidDigit other => exact absurd l.digits_digits other
    | tooManyDecimals digits long => omega
    | overflow digits short large =>
      rw [l.number_digits] at large
      omega
    | @ok a digits short sign coeff scale =>
      rw [l.number_digits] at coeff
      refine ⟨a, rfl, ?_⟩
      unfold Amount.layout
      rw [sign, coeff, scale]

/-! ## The lenient reader -/

theorem number_cut (k : Nat) :
    Text.number (l.integerDigits ++ l.fractionDigits.take k) = l.coeff / tenPow (l.scale - k) := by
  have h := Text.number_take l.digits_digits (l.integerDigits.length + k)
  rwa [List.take_length_add_append, l.number_digits, List.length_append, l.length_fractionDigits,
    Nat.add_sub_add_left] at h

theorem sanitizeChars_fraction : Entry.sanitizeChars l.fraction = l.fraction := by
  have h := Entry.sanitizeChars_digits l.digits_fractionDigits
  unfold fraction
  split
  · rfl
  · unfold Entry.sanitizeChars at *
    rw [List.filter_cons_of_pos (by decide), h]

theorem sanitizeChars_sign : Entry.sanitizeChars l.sign = [] := by
  unfold sign
  cases l.negative <;> rfl

/-- Whatever stands between the digits before the point, if the reader drops it. -/
theorem sanitizeChars_dressed {cs : List Char} (h : Entry.sanitizeChars cs = l.integerDigits) :
    Entry.sanitizeChars (l.sign ++ cs ++ l.fraction) = l.integerDigits ++ l.fraction := by
  have hs := l.sanitizeChars_sign
  have hf := l.sanitizeChars_fraction
  unfold Entry.sanitizeChars at *
  rw [List.filter_append, List.filter_append, hs, h, hf, List.nil_append]

theorem starts : Entry.Starts (l.integerDigits ++ l.fraction) l.integerDigits (l.fractionDigits.take 9) :=
  ⟨_, _, _, l.splits, .whole (l.digits_fractionDigits.notMem (by decide)), rfl⟩

/-- What is left of the layout's text when its sign is dropped is read without the sign and cut down to the
places that are read. -/
theorem entry_of_sanitized {l : Layout} {cs : List Char} (coeff_lt : l.coeff < Amount.bound)
    (clean : Entry.sanitizeChars cs = l.integerDigits ++ l.fraction) :
    ∃ a, Entry.ofChars cs = .value a ∧ a.value = cutDown Amount.places |l.value| := by
  have hstart : Entry.Starts (Entry.sanitizeChars cs) l.integerDigits (l.fractionDigits.take 9) :=
    clean ▸ l.starts
  have hr := Entry.reads_ofChars cs
  rw [hstart.eq] at hr
  have hnum := l.number_cut 9
  obtain ⟨a, ha, sign, coeff, scale⟩ := hr.value (by
    rw [hnum]
    exact (Nat.div_le_self ..).trans_lt coeff_lt)
  refine ⟨a, ha, ?_⟩
  rw [hnum] at coeff
  rw [List.length_take, l.length_fractionDigits] at scale
  have hv : a.value = decimal false (l.coeff / tenPow (l.scale - 9)) (min 9 l.scale) := by
    unfold Amount.value
    rw [sign, coeff, scale]
  rw [hv, l.abs_value]
  rcases Nat.lt_or_ge 9 l.scale with hs | hs
  · have hd : l.scale = l.scale - 9 + 9 := (Nat.sub_add_cancel hs.le).symm
    rw [Nat.min_eq_left hs.le]
    conv_rhs => rw [hd]
    exact (Amount.cutDown_decimal ..).symm
  · rw [Nat.min_eq_right hs, Nat.sub_eq_zero_of_le hs, tenPow_zero, Nat.div_one]
    exact (cutDown_of_onGrid ((onGrid_decimal ..).mono hs)).symm

theorem entry_chars {l : Layout} (coeff_lt : l.coeff < Amount.bound) :
    ∃ a, Entry.ofChars l.chars = .value a ∧ a.value = cutDown Amount.places |l.value| := by
  apply entry_of_sanitized coeff_lt
  apply sanitizeChars_dressed
  exact Entry.sanitizeChars_digits l.digits_integerDigits

end Layout

end YieldVault
