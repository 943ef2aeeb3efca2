import YieldVault.Amount.Reader

/-!
# Typed input

What a user types into a form is read leniently: everything but digits and points is dropped, and
of the rest the longest numeric start counts. Only a number too large for an amount is invalid.
-/

namespace YieldVault

/-- What a typed text stands for. -/
inductive Entry where
  | value (amount : Amount)
  | invalid
  deriving DecidableEq

namespace Entry

/-- Digits and points only. -/
def sanitizeChars (cs : List Char) : List Char := cs.filter fun c => c.isDigit || c == '.'

def sanitize (raw : String) : String := String.ofList (sanitizeChars raw.toList)

/-- The digits before the first point and up to `Amount.places` digits between it and the next. -/
def parts (cs : List Char) : List Char × List Char :=
  let (whole, rest) := Amount.splitPoint (sanitizeChars cs)
  (whole, (rest.takeWhile (· ≠ '.')).take Amount.places)

def ofChars (cs : List Char) : Entry :=
  match Amount.ofParts (parts cs).1 (parts cs).2 with
  | .ok a => .value a
  | .error .overflow => .invalid
  | .error _ => .value Amount.zero

/-- The lenient reader. -/
def ofText (raw : String) : Entry := ofChars raw.toList

def amount? : Entry → Option Amount
  | value a => some a
  | invalid => none

end Entry

end YieldVault
