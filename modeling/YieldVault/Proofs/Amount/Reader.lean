import Mathlib.Algebra.Group.Nat.Defs
import Mathlib.Data.List.DropRight
import YieldVault.Amount.Reader

/-!
# The strict reader

Every text falls apart in one way: blanks at both ends, a sign, what stands before the first point and what
stands behind it. The answer of the strict reader is decided by these parts alone. It accepts a sign and
digits on either side of the point, and names the first thing that is wrong with any other text.
-/

namespace YieldVault

namespace Text

def Digits (cs : List Char) : Prop := ∀ c ∈ cs, c.isDigit = true

theorem digits_iff {cs : List Char} : Digits cs ↔ cs.all Char.isDigit = true := List.all_eq_true.symm

/-! ## Blanks at both ends -/

/-- `core` is left of `cs` when the blanks at both ends are gone. -/
structure Trims (cs core : List Char) : Prop where
  blanks : ∃ l r : List Char, (∀ c ∈ l ++ r, isBlank c = true) ∧ cs = l ++ (core ++ r)
  first : ∀ c ∈ core.head?, isBlank c = false
  last : ∀ c ∈ core.getLast?, isBlank c = false

theorem dropWhile_of_head {p : Char → Bool} {cs : List Char} (h : ∀ c ∈ cs.head?, p c = false) :
    cs.dropWhile p = cs := by
  cases cs with
  | nil => rfl
  | cons c cs => simp [h c rfl]

theorem head_of_dropWhile {p : Char → Bool} {cs : List Char} {c : Char} (h : c ∈ (cs.dropWhile p).head?) :
    p c = false := by
  have hn := List.head?_dropWhile_not p cs
  rw [Option.mem_def.mp h] at hn
  exact hn

theorem trims_trimChars (cs : List Char) : Trims cs (trimChars cs) := by
  let back := (cs.dropWhile isBlank).reverse
  have hcore : trimChars cs ++ (back.takeWhile isBlank).reverse = cs.dropWhile isBlank := by
    unfold trimChars
    rw [← List.reverse_append, List.takeWhile_append_dropWhile, List.reverse_reverse]
  refine ⟨⟨cs.takeWhile isBlank, (back.takeWhile isBlank).reverse, ?_, ?_⟩, ?_, ?_⟩
  · intro c hc
    rw [List.mem_append, List.mem_reverse] at hc
    exact hc.elim List.mem_takeWhile_imp List.mem_takeWhile_imp
  · rw [hcore, List.takeWhile_append_dropWhile]
  · intro c hc
    have hne : trimChars cs ≠ [] := by
      intro h
      simp [h] at hc
    have hhead : c ∈ (cs.dropWhile isBlank).head? := by
      rw [← hcore, List.head?_append_of_ne_nil _ hne]
      exact hc
    exact head_of_dropWhile hhead
  · intro c hc
    unfold trimChars at hc
    rw [List.getLast?_reverse] at hc
    exact head_of_dropWhile hc

theorem Trims.eq {cs core : List Char} (h : Trims cs core) : trimChars cs = core := by
  obtain ⟨⟨l, r, blank, rfl⟩, first, last⟩ := h
  have hl : ∀ c ∈ l, isBlank c = true := fun c hc => blank c (List.mem_append_left r hc)
  have hr : ∀ c ∈ r, isBlank c = true := fun c hc => blank c (List.mem_append_right l hc)
  unfold trimChars
  rw [List.dropWhile_append_of_pos hl]
  by_cases hcore : core = []
  · subst hcore
    simp [List.dropWhile_eq_nil_iff.mpr hr]
  · have hfront : (core ++ r).dropWhile isBlank = core ++ r :=
      dropWhile_of_head (by rwa [List.head?_append_of_ne_nil _ hcore])
    have hback : core.reverse.dropWhile isBlank = core.reverse :=
      dropWhile_of_head (by rwa [List.head?_reverse])
    rw [hfront, List.reverse_append, List.dropWhile_append_of_pos (by simpa using hr), hback,
      List.reverse_reverse]

end Text

namespace Amount

/-! ## The parts of a text -/

/-- What stands before the first point and what stands behind it. -/
inductive Splits : List Char → List Char → List Char → Prop
  | whole {cs : List Char} (h : '.' ∉ cs) : Splits cs cs []
  | point {cs : List Char} (h : '.' ∉ cs) (fraction : List Char) : Splits (cs ++ '.' :: fraction) cs fraction

/-- A minus sign in front, or none. -/
inductive Signs : List Char → Bool → List Char → Prop
  | minus (body : List Char) : Signs ('-' :: body) true body
  | plain {body : List Char} (h : body.head? ≠ some '-') : Signs body false body

/-- A text with its sign and what stands before and behind the point. -/
structure Dissects (cs : List Char) (negative : Bool) (whole fraction : List Char) : Prop where
  parts : ∃ core body, Text.Trims cs core ∧ Signs core negative body ∧ Splits body whole fraction

theorem splits_splitPoint (cs : List Char) : Splits cs (splitPoint cs).1 (splitPoint cs).2 := by
  have hpoint : '.' ∉ cs.takeWhile (· ≠ '.') := by
    intro h
    simpa using List.mem_takeWhile_imp h
  have hcs : cs.takeWhile (· ≠ '.') ++ cs.dropWhile (· ≠ '.') = cs := List.takeWhile_append_dropWhile
  unfold splitPoint
  cases hd : cs.dropWhile (· ≠ '.') with
  | nil =>
    rw [hd, List.append_nil] at hcs
    rw [hcs] at hpoint ⊢
    exact .whole hpoint
  | cons c rest =>
    have hc : c = '.' := by
      have hhead : c ∈ (cs.dropWhile (· ≠ '.')).head? := by
        rw [hd]
        rfl
      simpa using Text.head_of_dropWhile hhead
    have h := Splits.point hpoint rest
    rw [hd, hc] at hcs
    rwa [hcs] at h

theorem all_ne_point {cs : List Char} (h : '.' ∉ cs) : ∀ c ∈ cs, decide (c ≠ '.') = true := by
  intro c hc
  simpa using ne_of_mem_of_not_mem hc h

theorem Splits.eq {cs whole fraction : List Char} (h : Splits cs whole fraction) :
    splitPoint cs = (whole, fraction) := by
  unfold splitPoint
  cases h with
  | whole h =>
    rw [List.takeWhile_eq_self_iff.mpr (all_ne_point h), List.dropWhile_eq_nil_iff.mpr (all_ne_point h)]
    rfl
  | point h fraction =>
    rw [List.takeWhile_append_of_pos (all_ne_point h), List.dropWhile_append_of_pos (all_ne_point h)]
    simp

theorem exists_signs (cs : List Char) : ∃ negative body, Signs cs negative body := by
  by_cases h : cs.head? = some '-'
  · obtain ⟨body, rfl⟩ := List.head?_eq_some_iff.mp h
    exact ⟨true, body, .minus body⟩
  · exact ⟨false, cs, .plain h⟩

theorem exists_dissects (cs : List Char) :
    ∃ negative whole fraction, Dissects cs negative whole fraction := by
  obtain ⟨negative, body, sign⟩ := exists_signs (Text.trimChars cs)
  exact ⟨negative, _, _, _, body, Text.trims_trimChars cs, sign, splits_splitPoint body⟩

/-! ## What the parts come to -/

/-- All that the digits `ds`, the last `n` of them behind the point, can come to. -/
inductive Assembles (negative : Bool) (ds : List Char) (n : Nat) : Except ReadError Amount → Prop
  | invalidDigit (other : ¬ Text.Digits ds) : Assembles negative ds n (.error .invalidDigit)
  | tooManyDecimals (digits : Text.Digits ds) (long : places < n) :
    Assembles negative ds n (.error .tooManyDecimals)
  | overflow (digits : Text.Digits ds) (short : n ≤ places) (large : bound ≤ Text.number ds) :
    Assembles negative ds n (.error .overflow)
  | ok {a : Amount} (digits : Text.Digits ds) (short : n ≤ places) (sign : a.negative = negative)
    (coeff : a.coeff = Text.number ds) (scale : a.scale = n) : Assembles negative ds n (.ok a)

theorem ofParts_assembles (whole fraction : List Char) :
    Assembles false (whole ++ fraction) fraction.length (ofParts whole fraction) := by
  have hall : (whole.all Char.isDigit && fraction.all Char.isDigit) = true ↔
      Text.Digits (whole ++ fraction) := by
    rw [Text.digits_iff, List.all_append]
  unfold ofParts
  by_cases hd : Text.Digits (whole ++ fraction)
  · rw [hall.mpr hd]
    by_cases hf : places < fraction.length
    · simpa [hf] using Assembles.tooManyDecimals hd hf
    · have hs : fraction.length ≤ 28 := by
        unfold places at hf
        omega
      rw [not_lt] at hf
      simp only [Bool.not_true, Bool.false_eq_true, if_false, not_lt.mpr hf]
      split
      · rename_i a ha
        obtain ⟨hn, hc, hs⟩ := make?_eq_some_iff.mp ha
        exact .ok hd hf hn hc hs
      · rename_i ha
        refine .overflow hd hf (not_lt.mp fun hlt => ?_)
        simp [make?, hlt, hs] at ha
  · rw [Bool.eq_false_iff.mpr (hall.not.mpr hd)]
    exact .invalidDigit hd

theorem Assembles.neg {ds : List Char} {n : Nat} {r : Except ReadError Amount} (h : Assembles false ds n r) :
    Assembles true ds n (r.map neg) := by
  cases h with
  | invalidDigit other => exact .invalidDigit other
  | tooManyDecimals digits long => exact .tooManyDecimals digits long
  | overflow digits short large => exact .overflow digits short large
  | ok digits short sign coeff scale => exact .ok digits short (by simp [Amount.neg, sign]) coeff scale

theorem ofUnsigned_of_splits {body whole fraction : List Char} (h : Splits body whole fraction) :
    ofUnsigned body = if whole ++ fraction = [] then .error .empty else ofParts whole fraction := by
  unfold ofUnsigned
  rw [h.eq]
  split
  · rename_i he
    cases he
    rfl
  · rename_i w f hne he
    cases he
    rw [if_neg]
    intro hnil
    obtain ⟨rfl, rfl⟩ := List.append_eq_nil_iff.mp hnil
    exact hne rfl rfl

theorem ofChars_of_signs {cs core body : List Char} {negative : Bool} (trims : Text.Trims cs core)
    (sign : Signs core negative body) :
    ofChars cs = if negative then (ofUnsigned body).map neg else ofUnsigned body := by
  unfold ofChars
  rw [trims.eq]
  cases sign with
  | minus body => rfl
  | plain hhead =>
    split
    · simp at hhead
    · rfl

theorem ofChars_of_dissects {cs : List Char} {negative : Bool} {whole fraction : List Char}
    (h : Dissects cs negative whole fraction) :
    (whole ++ fraction = [] ∧ ofChars cs = .error .empty) ∨
      (whole ++ fraction ≠ [] ∧ Assembles negative (whole ++ fraction) fraction.length (ofChars cs)) := by
  obtain ⟨core, body, trims, sign, splits⟩ := h
  have hparts := ofParts_assembles whole fraction
  rw [ofChars_of_signs trims sign, ofUnsigned_of_splits splits]
  by_cases hnil : whole ++ fraction = []
  · rw [if_pos hnil]
    refine .inl ⟨hnil, ?_⟩
    cases negative <;> rfl
  · rw [if_neg hnil]
    refine .inr ⟨hnil, ?_⟩
    cases negative with
    | false => exact hparts
    | true => exact hparts.neg

/-- The answer to a sign and to what stands before and behind the point, `ds` together and `n`
of it behind. -/
structure Answers (r : Except ReadError Amount) (negative : Bool) (ds : List Char) (n : Nat) : Prop where
  accepted : (∃ a, r = .ok a) ↔ ds ≠ [] ∧ Text.Digits ds ∧ n ≤ 9 ∧ Text.number ds < 2 ^ 96
  amount : ∀ a, r = .ok a → a.negative = negative ∧ a.coeff = Text.number ds ∧ a.scale = n
  empty : r = .error .empty ↔ ds = []
  invalidDigit : r = .error .invalidDigit ↔ ∃ c ∈ ds, c.isDigit = false
  tooManyDecimals : r = .error .tooManyDecimals ↔ ds ≠ [] ∧ Text.Digits ds ∧ 9 < n
  overflow : r = .error .overflow ↔ ds ≠ [] ∧ Text.Digits ds ∧ n ≤ 9 ∧ 2 ^ 96 ≤ Text.number ds

theorem answers_empty (negative : Bool) (n : Nat) : Answers (.error .empty) negative [] n := by
  constructor <;> simp

theorem Assembles.answers {negative : Bool} {ds : List Char} {n : Nat} {r : Except ReadError Amount}
    (h : Assembles negative ds n r) (some : ds ≠ []) : Answers r negative ds n := by
  have hother : (∃ c ∈ ds, c.isDigit = false) ↔ ¬ Text.Digits ds := by simp [Text.Digits]
  -- each answer comes with a condition that excludes those of all others
  cases h with
  | invalidDigit other => constructor <;> simp [*]
  | tooManyDecimals digits long =>
    have hlong : ¬ n ≤ 9 := not_le.mpr long
    unfold places at long
    constructor <;> simp [*]
  | overflow digits short large =>
    unfold places at short
    unfold bound at large
    constructor <;> simp [*]
  | @ok a digits short sign coeff scale =>
    have hc := a.coeff_lt
    unfold places at short
    unfold bound at hc
    rw [coeff] at hc
    constructor <;> simp [*]

/-- Every text has its parts, and they decide what the strict reader answers. -/
theorem strict_reader_decides (s : String) :
    (∃ negative whole fraction, Dissects s.toList negative whole fraction) ∧
      ∀ negative whole fraction, Dissects s.toList negative whole fraction →
        Answers (ofText s) negative (whole ++ fraction) fraction.length := by
  refine ⟨exists_dissects s.toList, fun negative whole fraction h => ?_⟩
  unfold ofText
  rcases ofChars_of_dissects h with ⟨hnil, he⟩ | ⟨hsome, ha⟩
  · rw [he, hnil]
    exact answers_empty negative fraction.length
  · exact ha.answers hsome

theorem dissects_padded : Dissects "\u3000-007.10 ".toList true ['0', '0', '7'] ['1', '0'] := by
  have hpoint : '.' ∉ ['0', '0', '7'] := by decide
  refine ⟨_, _, ⟨⟨['\u3000'], [' '], ?_, rfl⟩, ?_, ?_⟩, .minus _, .point hpoint _⟩
  · exact List.all_eq_true.mp rfl
  · rintro c ⟨⟩
    decide
  · rintro c ⟨⟩
    decide

theorem strict_reader_decides_padded :
    ∃ a, ofText "\u3000-007.10 " = .ok a ∧ a.negative = true ∧ a.coeff = 710 ∧ a.scale = 2 := by
  have h := (strict_reader_decides "\u3000-007.10 ").2 true ['0', '0', '7'] ['1', '0'] dissects_padded
  obtain ⟨a, ha⟩ := h.accepted.mpr ⟨by decide, Text.digits_iff.mpr rfl, by decide, by decide⟩
  exact ⟨a, ha, h.amount a ha⟩

end Amount

end YieldVault
