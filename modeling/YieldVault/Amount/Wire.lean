import YieldVault.Amount.Basic
import YieldVault.Amount.Rounding
import YieldVault.Text.Numeral

/-!
# Reading amounts from the wire

The plain form has an optional sign, digits with at most one point among them, and underscores
anywhere after the first digit. Digits past the capacity of an amount are an error in the integer
part; in the fraction the first of them rounds and the rest is dropped. An underscore at that place
stands for a digit zero as long as the coefficient is short. A text that is not plain may be a plain
one followed by `e` or `E` and an exponent.
-/

namespace YieldVault

namespace Amount

namespace Wire

/-- What has been read of the plain form. -/
structure Progress where
  coeff : Nat
  scale : Nat
  /-- A digit has been read. -/
  digit : Bool
  /-- The point has been read. -/
  point : Bool

/-- `m / 10 ^ s` rounded up when the first digit that did not fit is `d`. -/
def roundLast (m s d : Nat) : Option (Nat × Nat) :=
  if d < 5 then some (m, s)
  else if m + 1 < bound then some (m + 1, s)
  else if s = 0 then none
  else some ((m + 1 + 4) / 10, s - 1)

/-- A coefficient is short while its digits but the last write a number below this bound, a little
less than a tenth of `2 ^ 64`. -/
def shortBound : Nat := 1844674407370954906

/-- All that may follow the digit that rounds. -/
def isTail (cs : List Char) : Bool := cs.all fun c => c.isDigit || c == '_'

/-- The coefficient and the scale written by the rest of an unsigned plain text. -/
def magnitude (p : Progress) : List Char → Option (Nat × Nat)
  | [] => if p.digit then some (p.coeff, p.scale) else none
  | '.' :: rest => if p.point then none else magnitude { p with point := true } rest
  | '_' :: rest =>
    if p.scale = maxScale ∧ p.coeff / 10 < shortBound then
      if isTail rest then some (p.coeff, p.scale) else none
    else if p.digit then magnitude p rest
    else none
  | c :: rest =>
    if c.isDigit then
      let d := c.toNat - '0'.toNat
      let m := p.coeff * 10 + d
      if m < bound ∧ p.scale < maxScale then
        magnitude ⟨m, if p.point then p.scale + 1 else p.scale, true, p.point⟩ rest
      else if p.point ∧ isTail rest then roundLast p.coeff p.scale d
      else none
    else none

/-- The plain form. A zero has no sign. -/
def plain (cs : List Char) : Option Amount := do
  let (negative, rest) := match cs with
    | '-' :: rest => (true, rest)
    | '+' :: rest => (false, rest)
    | rest => (false, rest)
  let (m, s) ← magnitude ⟨0, 0, false, false⟩ rest
  make? (negative && m != 0) m s

/-- `a / 10 ^ n`, for an exponent of at most 28, rounded to the largest scale where it has to be. -/
def lower (a : Amount) (n : Nat) : Option Amount :=
  if maxScale < n then none
  else if a.scale + n ≤ maxScale then make? a.negative a.coeff (a.scale + n)
  else make? a.negative (halfUp a.coeff (a.scale + n - maxScale)) maxScale

/-- `a * 10 ^ n`; the point moves within the fraction or the result is a whole number. -/
def raise (a : Amount) (n : Nat) : Option Amount :=
  if n ≤ a.scale then make? a.negative a.coeff (a.scale - n)
  else if maxScale < n then none
  else make? a.negative (a.coeff * tenPow (n - a.scale)) 0

/-- Exponents are read below `2 ^ 32`. -/
def exponentBound : Nat := 4294967296

def isExponentMark (c : Char) : Bool := c == 'e' || c == 'E'

/-- A plain text, the exponent mark and the exponent. -/
def scientific (cs : List Char) : Option Amount := do
  let base ← plain (cs.takeWhile (!isExponentMark ·))
  match cs.dropWhile (!isExponentMark ·) with
  | [] => none
  | _ :: '-' :: e => lower base (← Text.unsigned? exponentBound e)
  | _ :: e => raise base (← Text.unsigned? exponentBound e)

end Wire

def ofWireChars (cs : List Char) : Option Amount := (Wire.plain cs).or (Wire.scientific cs)

/-- The amount that a wire text stands for. -/
def ofWire (s : String) : Option Amount := ofWireChars s.toList

end Amount

end YieldVault
