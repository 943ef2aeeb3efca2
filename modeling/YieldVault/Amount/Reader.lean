import YieldVault.Amount.Basic
import YieldVault.Text.Blank
import YieldVault.Text.Numeral

/-!
# Reading typed amounts

The strict reader takes an optional minus sign, digits and, after a point, at most `places` digits.
Digits are read exactly: a coefficient that reaches its bound is an error, never a rounding.
-/

namespace YieldVault

namespace Amount

/-- Why a text is no amount. -/
inductive ReadError where
  | empty
  | invalidDigit
  | tooManyDecimals
  | overflow
  deriving DecidableEq

def ReadError.tag : ReadError → String
  | .empty => "Empty"
  | .invalidDigit => "InvalidDigit"
  | .tooManyDecimals => "TooManyDecimals"
  | .overflow => "Overflow"

def ReadError.message : ReadError → String
  | .empty => "amount is empty"
  | .invalidDigit => "amount contains a non-digit character"
  | .tooManyDecimals => "amount has more than 9 fractional digits"
  | .overflow => "amount is too large"

/-- The amount written by the digits before and after the point, either of which may be missing. -/
def ofParts (whole fraction : List Char) : Except ReadError Amount :=
  if !(whole.all Char.isDigit && fraction.all Char.isDigit) then .error .invalidDigit
  else if places < fraction.length then .error .tooManyDecimals
  else
    match make? false (Text.number (whole ++ fraction)) fraction.length with
    | some a => .ok a
    | none => .error .overflow

/-- What stands before and after the first point; nothing after it when there is none. -/
def splitPoint (cs : List Char) : List Char × List Char :=
  (cs.takeWhile (· ≠ '.'), (cs.dropWhile (· ≠ '.')).drop 1)

/-- The strict reader, on text without surrounding blanks and sign. -/
def ofUnsigned (cs : List Char) : Except ReadError Amount :=
  match splitPoint cs with
  | ([], []) => .error .empty
  | (whole, fraction) => ofParts whole fraction

def ofChars (cs : List Char) : Except ReadError Amount :=
  match Text.trimChars cs with
  | '-' :: rest => (ofUnsigned rest).map neg
  | rest => ofUnsigned rest

/-- The strict reader. Blanks at both ends are ignored. -/
def ofText (s : String) : Except ReadError Amount := ofChars s.toList

end Amount

end YieldVault
