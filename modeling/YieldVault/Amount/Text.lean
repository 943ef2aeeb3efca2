import YieldVault.Amount.Rounding
import YieldVault.Text.Numeral

/-!
# Amounts as text

Three forms: `wire` keeps the scale and the sign of zero, `display` is the shortest exact text, and
`fixed` has a given number of fractional digits. A magnitude too large for that number of digits
shows as many as its coefficient can hold.
-/

namespace YieldVault

/-- Digits as they are laid out, `scale` of them behind the point. An amount has at most 28 of
those; a layout may have more. -/
structure Layout where
  negative : Bool
  coeff : Nat
  scale : Nat
  deriving DecidableEq

namespace Layout

def integerDigits (l : Layout) : List Char := Text.digits (l.coeff / tenPow l.scale)

def fractionDigits (l : Layout) : List Char :=
  if l.scale = 0 then [] else Text.padded l.scale (l.coeff % tenPow l.scale)

def sign (l : Layout) : List Char := if l.negative then ['-'] else []

/-- At a positive scale, a point and the fraction digits. -/
def fraction (l : Layout) : List Char := if l.scale = 0 then [] else '.' :: l.fractionDigits

def chars (l : Layout) : List Char := l.sign ++ l.integerDigits ++ l.fraction

/-- Up to `n` zeros appended to the fraction, as many as the coefficient can hold. -/
def widen (l : Layout) : (n : Nat) → Layout
  | 0 => l
  | n + 1 => if l.coeff * 10 < Amount.bound then widen ⟨l.negative, l.coeff * 10, l.scale + 1⟩ n else l

/-- There is room for 32 characters besides the sign. -/
def fits (l : Layout) : Bool := (l.integerDigits ++ l.fraction).length ≤ 32

end Layout

namespace Amount

def layout (a : Amount) : Layout := ⟨a.negative, a.coeff, a.scale⟩

/-- The text that keeps every stored digit. -/
def wire (a : Amount) : String := String.ofList a.layout.chars

/-! ## Shortest text -/

/-- Trailing zeros of a fraction of `s` digits dropped from the coefficient `c`. -/
def stripZeros (c : Nat) : (s : Nat) → Nat × Nat
  | 0 => (c, 0)
  | s + 1 => if c % 10 = 0 then stripZeros (c / 10) s else (c, s + 1)

theorem stripZeros_le (c s : Nat) : (stripZeros c s).1 ≤ c ∧ (stripZeros c s).2 ≤ s := by
  induction s generalizing c with
  | zero => exact ⟨Nat.le_refl _, Nat.le_refl _⟩
  | succ s ih =>
    unfold stripZeros
    split
    · exact ⟨Nat.le_trans (ih _).1 (Nat.div_le_self _ _), Nat.le_succ_of_le (ih _).2⟩
    · exact ⟨Nat.le_refl _, Nat.le_refl _⟩

/-- The same value without trailing fractional zeros; zero loses its sign. -/
def normalize (a : Amount) : Amount :=
  if a.isZero then zero
  else
    ⟨a.negative, (stripZeros a.coeff a.scale).1, (stripZeros a.coeff a.scale).2,
      Nat.lt_of_le_of_lt (stripZeros_le _ _).1 a.coeff_lt, Nat.le_trans (stripZeros_le _ _).2 a.scale_le⟩

/-- The shortest exact text. -/
def display (a : Amount) : String := a.normalize.wire

/-! ## Fixed places -/

/-- Rounded to `p` digits and filled up with zeros to `p`; zero has no sign and at most 28 places. -/
def atPlaces (a : Amount) (p : Nat) : Layout :=
  let r := a.round p
  if r.isZero then ⟨false, 0, min p maxScale⟩ else r.layout.widen (p - r.scale)

/-- The text with `p` fractional digits. -/
def fixed (a : Amount) (p : Nat) : String := String.ofList (a.atPlaces p).chars

/-- The text with `p` fractional digits, if there is room for it. -/
def fixed? (a : Amount) (p : Nat) : Option String := if (a.atPlaces p).fits then some (a.fixed p) else none

end Amount

end YieldVault
