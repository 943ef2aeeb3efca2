import YieldVault.Power
import YieldVault.Text.Numeral

/-!
# Numerals are read as they are written

What every reader of digits relies on: a written number is a list of digits without a needless zero in
front, its digits write the number, zeros on the left change neither, and the first digits write what is
left when the others are dropped.
-/

namespace YieldVault.Text

theorem digits_ne_nil (n : Nat) : digits n ≠ [] := Nat.toDigits_ne_nil

theorem isDigit_of_mem_digits {n : Nat} {c : Char} (h : c ∈ digits n) : c.isDigit = true :=
  Nat.isDigit_of_mem_toDigits (by decide) (by decide) h

theorem digits_eq_cons (n : Nat) : ∃ c cs, digits n = c :: cs ∧ c.isDigit = true := by
  obtain ⟨c, cs, h⟩ := List.exists_cons_of_ne_nil (digits_ne_nil n)
  exact ⟨c, cs, h, isDigit_of_mem_digits (n := n) (by simp [h])⟩

theorem number_digits (n : Nat) : number (digits n) = n := Nat.ofDigitChars_toDigits (by decide) (by decide)

theorem natural?_digits (n : Nat) : natural? (digits n) = some n := by
  have h : (digits n).all Char.isDigit = true := List.all_eq_true.mpr fun c hc => isDigit_of_mem_digits hc
  simp [natural?, digits_ne_nil, h, number_digits]

theorem head?_digits_ne_zero {n : Nat} (h : 0 < n) : (digits n).head? ≠ some '0' := by
  induction n using Nat.strongRecOn with
  | ind n ih =>
    unfold digits at ih ⊢
    by_cases hn : n < 10
    · rw [Nat.toDigits_of_lt_base hn]
      simp
      omega
    · -- the first digit is that of `n / 10`
      have first := ih (n / 10) (by omega) (by omega)
      obtain ⟨c, cs, hc⟩ := List.exists_cons_of_ne_nil (Nat.toDigits_ne_nil (n := n / 10) (b := 10))
      rw [Nat.toDigits_of_base_le (by decide) (by omega), hc]
      rw [hc] at first
      exact first

theorem eq_nil_of_digits_eq_cons {n : Nat} {ds : List Char} (h : digits n = '0' :: ds) : ds = [] := by
  by_cases hn : n = 0
  · subst hn
    cases h
    rfl
  · have hz := head?_digits_ne_zero (Nat.pos_of_ne_zero hn)
    rw [h] at hz
    exact absurd rfl hz

/-! ## Padding -/

theorem isDigit_of_mem_padded {w n : Nat} {c : Char} (h : c ∈ padded w n) : c.isDigit = true := by
  rcases List.mem_append.mp h with hz | hd
  · rw [List.eq_of_mem_replicate hz]
    decide
  · exact isDigit_of_mem_digits hd

theorem padded_ne_nil (w n : Nat) : padded w n ≠ [] := by
  intro h
  exact digits_ne_nil n (List.append_eq_nil_iff.mp h).2

theorem number_padded (w n : Nat) : number (padded w n) = n := by
  unfold number padded List.leftpad
  rw [Nat.ofDigitChars_append, Nat.ofDigitChars_replicate_zero, Nat.mul_zero]
  exact number_digits n

theorem length_padded {w n : Nat} (hw : 0 < w) (h : n < tenPow w) : (padded w n).length = w := by
  have hl : (digits n).length ≤ w := (Nat.length_toDigits_le_iff (by decide) hw).mpr h
  unfold padded
  rw [List.length_leftpad]
  omega

/-! ## Digits in a row -/

theorem number_append (xs ys : List Char) : number (xs ++ ys) = number xs * tenPow ys.length + number ys := by
  unfold number
  rw [Nat.ofDigitChars_append, Nat.ofDigitChars_eq_ofDigitChars_zero, Nat.mul_comm]
  rfl

theorem number_lt {ds : List Char} (h : ∀ c ∈ ds, c.isDigit = true) : number ds < tenPow ds.length := by
  induction ds with
  | nil => decide
  | cons c ds ih =>
    have hrest := ih fun x hx => h x (by simp [hx])
    have hc : number [c] < 10 := by
      have hd := h c (by simp)
      simp only [Char.isDigit, Bool.and_eq_true, decide_eq_true_eq] at hd
      have hle : c.toNat ≤ 57 := hd.2
      simp only [number, Nat.ofDigitChars_cons, Nat.ofDigitChars_nil]
      show 10 * 0 + (c.toNat - 48) < 10
      omega
    have hmul := Nat.mul_le_mul_right (tenPow ds.length) (Nat.le_of_lt_succ hc)
    rw [← List.singleton_append, number_append, List.length_append, List.length_singleton,
      Nat.add_comm 1, tenPow_succ]
    omega

/-- The first `k` digits write what is left when the others are dropped. -/
theorem number_take {ds : List Char} (h : ∀ c ∈ ds, c.isDigit = true) (k : Nat) :
    number (ds.take k) = number ds / tenPow (ds.length - k) := by
  have hr : number (ds.drop k) < tenPow (ds.length - k) := by
    rw [← List.length_drop]
    exact number_lt fun c hc => h c (List.mem_of_mem_drop hc)
  have hds : number ds = number (ds.take k) * tenPow (ds.length - k) + number (ds.drop k) := by
    rw [← List.length_drop, ← number_append, List.take_append_drop]
  rw [hds, Nat.add_comm, Nat.add_mul_div_right _ _ (tenPow_pos _), Nat.div_eq_of_lt hr, Nat.zero_add]

/-! ## Where digits end -/

def NoDigit (cs : List Char) : Prop := ∀ c ∈ cs.head?, c.isDigit = false

theorem takeWhile_isDigit {ds rest : List Char} (hd : ∀ c ∈ ds, c.isDigit = true) (hr : NoDigit rest) :
    (ds ++ rest).takeWhile Char.isDigit = ds := by
  rw [List.takeWhile_append_of_pos hd]
  cases rest with
  | nil => simp
  | cons c rest => simp [hr c rfl]

theorem dropWhile_isDigit {ds rest : List Char} (hd : ∀ c ∈ ds, c.isDigit = true) (hr : NoDigit rest) :
    (ds ++ rest).dropWhile Char.isDigit = rest := by
  rw [List.dropWhile_append_of_pos hd]
  cases rest with
  | nil => simp
  | cons c rest => simp [hr c rfl]

end YieldVault.Text
