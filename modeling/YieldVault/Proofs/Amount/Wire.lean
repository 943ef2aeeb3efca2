import YieldVault.Amount.Text
import YieldVault.Amount.Wire
import YieldVault.Proofs.Text.Numeral

/-!
# Amounts on the wire

An amount is read from its own wire text as it was written, except that a zero comes back
without its sign. The plain form never gives a zero with a sign; only an exponent that moves all
digits past the last decimal does.
-/

namespace YieldVault.Amount

/-- A zero loses its sign. -/
def dropZeroSign (a : Amount) : Amount := { a with negative := a.negative && a.coeff != 0 }

/-- What is left of a negative amount that an exponent has made too small. -/
def vanished : Amount := (zeroAt 28).neg

theorem dropZeroSign_eq_self_iff {a : Amount} : a.dropZeroSign = a ↔ (a.negative = true → a.coeff ≠ 0) := by
  obtain ⟨negative, coeff, scale, _, _⟩ := a
  cases negative <;> simp [dropZeroSign]

theorem dropZeroSign_dropZeroSign (a : Amount) : a.dropZeroSign.dropZeroSign = a.dropZeroSign := by
  rw [dropZeroSign_eq_self_iff]
  intro h
  simp only [dropZeroSign, Bool.and_eq_true, bne_iff_ne] at h
  exact h.2

namespace Wire

/-! ## Reading what was written -/

/-- What has been read after some more digits. -/
def Progress.feed (p : Progress) (ds : List Char) : Progress :=
  ⟨Nat.ofDigitChars 10 ds p.coeff, if p.point then p.scale + ds.length else p.scale,
    p.digit || !ds.isEmpty, p.point⟩

theorem le_ofDigitChars (ds : List Char) (m : Nat) : m ≤ Nat.ofDigitChars 10 ds m := by
  induction ds generalizing m with
  | nil => exact Nat.le_refl m
  | cons c ds ih =>
    rw [Nat.ofDigitChars_cons]
    have := ih (10 * m + (c.toNat - '0'.toNat))
    omega

theorem magnitude_digit {p : Progress} {c : Char} (hc : c.isDigit = true)
    (hm : 10 * p.coeff + (c.toNat - '0'.toNat) < bound) (hs : p.scale < maxScale) (rest : List Char) :
    magnitude p (c :: rest) = magnitude (p.feed [c]) rest := by
  have hdot : c ≠ '.' := by rintro rfl; cases hc
  have hlow : c ≠ '_' := by rintro rfl; cases hc
  have hp : p.feed [c] =
      ⟨p.coeff * 10 + (c.toNat - '0'.toNat), if p.point then p.scale + 1 else p.scale, true, p.point⟩ := by
    simp [Progress.feed, Nat.ofDigitChars_cons, Nat.mul_comm]
  rw [hp, magnitude]
  · simp only [hc, if_true]
    rw [if_pos ⟨by omega, hs⟩]
  · exact hdot
  · exact hlow

theorem Progress.feed_cons (p : Progress) (c : Char) (ds : List Char) :
    p.feed (c :: ds) = (p.feed [c]).feed ds := by
  unfold feed
  cases p.point <;> simp [Nat.ofDigitChars_cons, Nat.add_comm, Nat.add_left_comm]

/-- Digits that the coefficient and the scale have room for are taken in one by one. -/
theorem magnitude_digits {p : Progress} {ds : List Char} (hd : ∀ c ∈ ds, c.isDigit = true)
    (hc : (p.feed ds).coeff < bound) (hs : (p.feed ds).scale ≤ maxScale)
    (hp : p.point = false → p.scale < maxScale) (rest : List Char) :
    magnitude p (ds ++ rest) = magnitude (p.feed ds) rest := by
  induction ds generalizing p with
  | nil => cases p; simp [Progress.feed]
  | cons c ds ih =>
    rw [p.feed_cons] at hc hs ⊢
    have hone : (p.feed [c]).coeff < bound := Nat.lt_of_le_of_lt (le_ofDigitChars ds _) hc
    have hroom : p.scale < maxScale := by
      by_cases hpt : p.point = true
      · simp [Progress.feed, hpt] at hs
        omega
      · exact hp (by simpa using hpt)
    rw [List.cons_append,
      magnitude_digit (hd c (by simp)) (by simpa [Progress.feed, Nat.ofDigitChars_cons] using hone) hroom]
    refine ih (fun x hx => hd x (by simp [hx])) hc hs fun hpt => ?_
    have hpt' : p.point = false := hpt
    simpa [Progress.feed, hpt'] using hp hpt'

theorem magnitude_integer {n : Nat} (h : n < bound) (rest : List Char) :
    magnitude ⟨0, 0, false, false⟩ (Text.digits n ++ rest) = magnitude ⟨n, 0, true, false⟩ rest := by
  have hn : Nat.ofDigitChars 10 (Text.digits n) 0 = n := Text.number_digits n
  have hfeed : Progress.feed ⟨0, 0, false, false⟩ (Text.digits n) = ⟨n, 0, true, false⟩ := by
    simp [Progress.feed, hn, Text.digits_ne_nil]
  rw [magnitude_digits (fun c hc => Text.isDigit_of_mem_digits hc) (by rw [hfeed]; exact h)
    (by rw [hfeed]; exact Nat.zero_le _) (fun _ => by decide), hfeed]

theorem magnitude_layout (a : Amount) :
    magnitude ⟨0, 0, false, false⟩ (a.layout.integerDigits ++ a.layout.fraction) =
      some (a.coeff, a.scale) := by
  have hq : a.coeff / tenPow a.scale < bound := Nat.lt_of_le_of_lt (Nat.div_le_self _ _) a.coeff_lt
  rw [show a.layout.integerDigits = Text.digits (a.coeff / tenPow a.scale) from rfl, magnitude_integer hq]
  by_cases hs : a.scale = 0
  · simp [Layout.fraction, layout, hs, magnitude, tenPow_zero]
  · let r := a.coeff % tenPow a.scale
    have hlen : (Text.padded a.scale r).length = a.scale :=
      Text.length_padded (Nat.pos_of_ne_zero hs) (Nat.mod_lt _ (tenPow_pos _))
    -- the fraction digits are read on top of the integer part
    have hval : Nat.ofDigitChars 10 (Text.padded a.scale r) (a.coeff / tenPow a.scale) = a.coeff := by
      rw [Nat.ofDigitChars_eq_ofDigitChars_zero, hlen]
      have hn : Nat.ofDigitChars 10 (Text.padded a.scale r) 0 = r := Text.number_padded _ _
      rw [hn]
      exact Nat.div_add_mod a.coeff (tenPow a.scale)
    have hfeed : Progress.feed ⟨a.coeff / tenPow a.scale, 0, true, true⟩ (Text.padded a.scale r) =
        ⟨a.coeff, a.scale, true, true⟩ := by
      simp [Progress.feed, hval, hlen]
    have hfrac : a.layout.fraction = '.' :: Text.padded a.scale r := by
      simp [Layout.fraction, Layout.fractionDigits, layout, hs, r]
    rw [hfrac, magnitude]
    simp only [Bool.false_eq_true, if_false]
    rw [← List.append_nil (Text.padded a.scale r),
      magnitude_digits (fun c hc => Text.isDigit_of_mem_padded hc)
      (by rw [hfeed]; exact a.coeff_lt) (by rw [hfeed]; exact a.scale_le) (by simp), hfeed]
    rfl

/-- A sign, or none before a digit, and then an unsigned text. -/
theorem plain_signed (negative : Bool) {c : Char} (hc : c.isDigit = true) (cs : List Char) :
    plain ((if negative then ['-'] else []) ++ c :: cs) =
      (magnitude ⟨0, 0, false, false⟩ (c :: cs)).bind fun x => make? (negative && x.1 != 0) x.1 x.2 := by
  cases negative with
  | true => rfl
  | false =>
    have hminus : c ≠ '-' := by rintro rfl; cases hc
    have hplus : c ≠ '+' := by rintro rfl; cases hc
    simp only [plain, Bool.false_eq_true, if_false, List.nil_append]
    split
    · rename_i he
      cases he
      exact absurd rfl hminus
    · rename_i he
      cases he
      exact absurd rfl hplus
    · rfl

theorem plain_layout (a : Amount) : plain a.layout.chars = some a.dropZeroSign := by
  have hm := magnitude_layout a
  obtain ⟨c, cs, hcs, hc⟩ := Text.digits_eq_cons (a.coeff / tenPow a.scale)
  have hi : a.layout.integerDigits = c :: cs := hcs
  rw [hi, List.cons_append] at hm
  rw [Layout.chars, hi, List.append_assoc, List.cons_append]
  show plain ((if a.negative then ['-'] else []) ++ c :: (cs ++ a.layout.fraction)) = some a.dropZeroSign
  rw [plain_signed a.negative hc, hm]
  exact make?_eq_some_iff.mpr ⟨rfl, rfl, rfl⟩

/-! ## Zeros with a sign -/

theorem plain_ne_zero {cs : List Char} {a : Amount} (h : plain cs = some a) :
    a.negative = true → a.coeff ≠ 0 := by
  intro hneg
  obtain ⟨x, _, hx⟩ := Option.bind_eq_some_iff.mp h
  obtain ⟨hn, hc, _⟩ := make?_eq_some_iff.mp hx
  rw [hneg] at hn
  have := (Bool.and_eq_true_iff.mp hn.symm).2
  simpa [hc] using this

theorem raise_ne_zero {a b : Amount} {n : Nat} (h : raise a n = some b)
    (ha : a.negative = true → a.coeff ≠ 0) :
    b.negative = true → b.coeff ≠ 0 := by
  unfold raise at h
  split at h
  · obtain ⟨hn, hc, _⟩ := make?_eq_some_iff.mp h
    rw [hn, hc]
    exact ha
  · split at h
    · cases h
    · obtain ⟨hn, hc, _⟩ := make?_eq_some_iff.mp h
      rw [hn, hc]
      intro hneg
      exact Nat.mul_ne_zero (ha hneg) (Nat.ne_of_gt (tenPow_pos _))

theorem lower_ne_zero_or_vanished {a b : Amount} {n : Nat} (h : lower a n = some b)
    (ha : a.negative = true → a.coeff ≠ 0) : (b.negative = true → b.coeff ≠ 0) ∨ b = vanished := by
  unfold lower at h
  split at h
  · cases h
  · split at h
    · left
      obtain ⟨hn, hc, _⟩ := make?_eq_some_iff.mp h
      rw [hn, hc]
      exact ha
    · obtain ⟨_, _, hs⟩ := make?_eq_some_iff.mp h
      by_cases hb : b.negative = true ∧ b.coeff = 0
      · right
        obtain ⟨negative, coeff, scale, _, _⟩ := b
        obtain ⟨rfl, rfl⟩ := hb
        subst hs
        rfl
      · exact .inl fun hneg hz => hb ⟨hneg, hz⟩

end Wire

theorem ofWire_wire (a : Amount) : ofWire a.wire = some a.dropZeroSign := by
  unfold ofWire wire ofWireChars
  rw [String.toList_ofList, Wire.plain_layout]
  rfl

/-- A zero with a sign is what an exponent has left of a negative amount. -/
theorem dropZeroSign_or_vanished {s : String} {a : Amount} (h : ofWire s = some a) :
    a.dropZeroSign = a ∨ a = vanished ∧ ∃ c ∈ s.toList, Wire.isExponentMark c = true := by
  rw [dropZeroSign_eq_self_iff]
  rcases Option.or_eq_some_iff.mp h with hp | ⟨_, hsci⟩
  · exact .inl (Wire.plain_ne_zero hp)
  · obtain ⟨base, hb, hx⟩ := Option.bind_eq_some_iff.mp hsci
    have hbase := Wire.plain_ne_zero hb
    split at hx
    · cases hx
    · rename_i mark e hd
      obtain ⟨n, _, hl⟩ := Option.bind_eq_some_iff.mp hx
      rcases Wire.lower_ne_zero_or_vanished hl hbase with hne | rfl
      · exact .inl hne
      · refine .inr ⟨rfl, mark, ?_, ?_⟩
        · exact (List.dropWhile_suffix _).mem (by rw [hd]; simp)
        · have := List.head?_dropWhile_not (fun c => !Wire.isExponentMark c) s.toList
          rw [hd] at this
          simpa using this
    · obtain ⟨n, _, hr⟩ := Option.bind_eq_some_iff.mp hx
      exact .inl (Wire.raise_ne_zero hr hbase)

end YieldVault.Amount
