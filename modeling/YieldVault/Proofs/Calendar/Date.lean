import YieldVault.Calendar.Date
import YieldVault.Proofs.Text.Numeral

/-!
# Dates are read as they are written

The numbers of a date are written with digits that end at a dash or at the end of the text, the year of four
digits exactly when it needs no sign. So each reader takes in one number and stops where the next one starts.
-/

namespace YieldVault.Date

theorem skipBlanks_digit {c : Char} (h : c.isDigit = true) (rest : List Char) :
    skipBlanks (c :: rest) = c :: rest := by
  have hb : Text.isBlank c = false := by
    simp only [Char.isDigit, Bool.and_eq_true, decide_eq_true_eq] at h
    have h₁ : 48 ≤ c.toNat := h.1
    have h₂ : c.toNat ≤ 57 := h.2
    simp [Text.isBlank, Text.blankRanges]
    omega
  unfold skipBlanks
  rw [List.dropWhile_cons_of_neg (by simp [hb])]

theorem skipBlanks_digits {ds : List Char} (hne : ds ≠ []) (hd : ∀ c ∈ ds, c.isDigit = true)
    (rest : List Char) :
    skipBlanks (ds ++ rest) = ds ++ rest := by
  obtain ⟨c, cs, rfl⟩ := List.exists_cons_of_ne_nil hne
  exact skipBlanks_digit (hd c (by simp)) _

/-- Digits within the limit are read up to the place where they end. -/
theorem readNumber_digits {limit : Option Nat} {ds rest : List Char} (hne : ds ≠ [])
    (hd : ∀ c ∈ ds, c.isDigit = true) (hl : ∀ n ∈ limit, ds.length ≤ n) (hr : Text.NoDigit rest) :
    readNumber limit (ds ++ rest) = some (Text.number ds, rest) := by
  unfold readNumber
  rw [Text.takeWhile_isDigit hd hr]
  cases limit with
  | none => simp [hne]
  | some n => simp [hne, List.take_of_length_le (hl n rfl)]

theorem noDigit_dash (rest : List Char) : Text.NoDigit ('-' :: rest) := by
  intro c hc
  cases hc
  rfl

theorem readYear_unsigned {c : Char} (hc : c.isDigit = true) (cs : List Char) :
    readYear (c :: cs) = (readNumber (some 4) (c :: cs)).map fun x => ((x.1 : Int), x.2) := by
  have hminus : c ≠ '-' := by rintro rfl; cases hc
  have hplus : c ≠ '+' := by rintro rfl; cases hc
  unfold readYear
  rw [skipBlanks_digit hc]
  split
  · rename_i he
    cases he
    exact absurd rfl hminus
  · rename_i he
    cases he
    exact absurd rfl hplus
  · rfl

theorem readYear_yearChars (y : Int) (rest : List Char) :
    readYear (yearChars y ++ '-' :: rest) = some (y, '-' :: rest) := by
  have hread : ∀ (limit : Option Nat) (n : Nat), (∀ k ∈ limit, (Text.padded 4 n).length ≤ k) →
      readNumber limit (Text.padded 4 n ++ '-' :: rest) = some (n, '-' :: rest) := by
    intro limit n hl
    rw [readNumber_digits (Text.padded_ne_nil 4 n) (fun c hc => Text.isDigit_of_mem_padded hc) hl
      (noDigit_dash rest), Text.number_padded]
  unfold yearChars
  by_cases hy : 0 ≤ y ∧ y ≤ 9999
  · rw [if_pos hy]
    have hlt : y.toNat < tenPow 4 := by
      show y.toNat < 10000
      omega
    have hl : (Text.padded 4 y.toNat).length = 4 := Text.length_padded (by decide) hlt
    have hr := hread (some 4) y.toNat fun k hk => by cases hk; omega
    obtain ⟨c, cs, hcs⟩ := List.exists_cons_of_ne_nil (Text.padded_ne_nil 4 y.toNat)
    have hc : c.isDigit = true := Text.isDigit_of_mem_padded (w := 4) (n := y.toNat) (by rw [hcs]; simp)
    rw [hcs, List.cons_append] at hr ⊢
    rw [readYear_unsigned hc, hr]
    simp [Int.toNat_of_nonneg hy.1]
  · rw [if_neg hy]
    have hr := hread none y.natAbs fun k hk => by cases hk
    by_cases hneg : y < 0
    · rw [if_pos hneg, List.cons_append]
      show (readNumber none (Text.padded 4 y.natAbs ++ '-' :: rest)).map (fun x => (-(x.1 : Int), x.2)) = _
      rw [hr, Option.map_some, show -(y.natAbs : Int) = y by omega]
    · rw [if_neg hneg, List.cons_append]
      show (readNumber none (Text.padded 4 y.natAbs ++ '-' :: rest)).map (fun x => ((x.1 : Int), x.2)) = _
      rw [hr, Option.map_some, show (y.natAbs : Int) = y by omega]

theorem readPart_padded {n : Nat} (h : n < 100) {rest : List Char} (hr : Text.NoDigit rest) :
    readPart '-' ('-' :: (Text.padded 2 n ++ rest)) = some (n, rest) := by
  have hd : ∀ c ∈ Text.padded 2 n, c.isDigit = true := fun c hc => Text.isDigit_of_mem_padded hc
  have hl : (Text.padded 2 n).length = 2 := Text.length_padded (by decide) h
  unfold readPart
  rw [show skipBlanks ('-' :: (Text.padded 2 n ++ rest)) = '-' :: (Text.padded 2 n ++ rest) from rfl]
  simp only [if_true]
  rw [skipBlanks_digits (Text.padded_ne_nil 2 n) hd,
    readNumber_digits (Text.padded_ne_nil 2 n) hd (fun k hk => by cases hk; omega) hr, Text.number_padded]

theorem of?_self (t : Date) : of? t.year t.month t.day = some t := by
  unfold of?
  rw [dif_pos ⟨⟨t.year_ge, t.year_le⟩, ⟨t.month_ge, t.month_le⟩, t.day_ge, t.day_le⟩]

theorem day_lt (t : Date) : t.day < 100 := by
  have h := t.day_le
  have hm : daysInMonth t.year t.month ≤ 31 := by
    unfold daysInMonth
    split
    · split <;> decide
    · split <;> decide
  omega

theorem ofText_toText (t : Date) : ofText t.toText = some t := by
  have hm : t.month < 100 := Nat.lt_of_le_of_lt t.month_le (by decide)
  unfold ofText toText ofChars
  rw [String.toList_ofList]
  have hfront : readFront t.chars = some (t, []) := by
    have hd := readPart_padded t.day_lt (show Text.NoDigit [] from fun c hc => by cases hc)
    rw [List.append_nil] at hd
    unfold readFront chars
    rw [List.append_assoc, List.cons_append, readYear_yearChars]
    simp [readPart_padded hm (noDigit_dash _), hd, of?_self]
  rw [hfront]
  rfl

end YieldVault.Date
