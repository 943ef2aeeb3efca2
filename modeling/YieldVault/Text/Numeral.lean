/-!
# Numerals

Digit strings in base ten as lists of characters: writing a number with a least width, and reading
the unsigned and signed integers of configuration text.
-/

namespace YieldVault.Text

/-- The decimal digits of `n`. -/
def digits (n : Nat) : List Char := Nat.toDigits 10 n

/-- The decimal digits of `n`, filled up with zeros on the left to at least `w`. -/
def padded (w n : Nat) : List Char := (digits n).leftpad w '0'

/-- The number that a list of digits writes; zero for none. -/
def number (cs : List Char) : Nat := Nat.ofDigitChars 10 cs 0

/-- The number that one or more digits write. -/
def natural? (cs : List Char) : Option Nat :=
  if cs ≠ [] ∧ cs.all Char.isDigit then some (number cs) else none

/-- Digits with an optional plus sign in front, below `limit`. -/
def unsigned? (limit : Nat) (cs : List Char) : Option Nat := do
  let n ← match cs with
    | '+' :: ds => natural? ds
    | ds => natural? ds
  if n < limit then some n else none

/-- Digits with an optional sign in front, from `-limit` to below `limit`. -/
def signed? (limit : Nat) : List Char → Option Int
  | '-' :: ds => do
    let n ← natural? ds
    if n ≤ limit then some (-(n : Int)) else none
  | cs => (unsigned? limit cs).map Int.ofNat

def natText (n : Nat) : String := String.ofList (digits n)

/-- The lowercase hexadecimal digits of `n`. -/
def hexDigits (n : Nat) : List Char := Nat.toDigits 16 n

end YieldVault.Text
