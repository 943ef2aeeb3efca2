import YieldVault.Text.Blank
import YieldVault.Text.Numeral

/-!
# Calendar dates

Days of the Gregorian calendar, extended to all years from -262143 to 262142. Years outside 0 to
9999 are written with a sign. Reading is generous: blanks may surround every number and the sign of
the year, and only an unsigned year is limited to four digits.
-/

namespace YieldVault

def isLeapYear (y : Int) : Bool := y % 4 == 0 && (y % 100 != 0 || y % 400 == 0)

def daysInMonth (y : Int) (m : Nat) : Nat :=
  if m = 2 then (if isLeapYear y then 29 else 28)
  else if m = 4 ∨ m = 6 ∨ m = 9 ∨ m = 11 then 30
  else 31

structure Date where
  year : Int
  month : Nat
  day : Nat
  year_ge : -262143 ≤ year
  year_le : year ≤ 262142
  month_ge : 1 ≤ month
  month_le : month ≤ 12
  day_ge : 1 ≤ day
  day_le : day ≤ daysInMonth year month
  deriving DecidableEq

namespace Date

/-- The date with these numbers, if there is one. -/
def of? (y : Int) (m d : Nat) : Option Date :=
  if h : (-262143 ≤ y ∧ y ≤ 262142) ∧ (1 ≤ m ∧ m ≤ 12) ∧ 1 ≤ d ∧ d ≤ daysInMonth y m then
    some ⟨y, m, d, h.1.1, h.1.2, h.2.1.1, h.2.1.2, h.2.2.1, h.2.2.2⟩
  else none

def next? (t : Date) : Option Date :=
  if t.day < daysInMonth t.year t.month then of? t.year t.month (t.day + 1)
  else if t.month < 12 then of? t.year (t.month + 1) 1
  else of? (t.year + 1) 1 1

def previous? (t : Date) : Option Date :=
  if 1 < t.day then of? t.year t.month (t.day - 1)
  else if 1 < t.month then of? t.year (t.month - 1) (daysInMonth t.year (t.month - 1))
  else of? (t.year - 1) 12 31

/-- The day `n` days later, or the last day there is. -/
def later : Nat → Date → Date
  | 0, t => t
  | n + 1, t =>
    match t.next? with
    | some u => later n u
    | none => t

/-- The place of the day in a count of all days. -/
def dayNumber (t : Date) : Int :=
  let y := t.year - 1
  365 * y + y / 4 - y / 100 + y / 400 +
    (List.range (t.month - 1)).foldl (fun n k => n + daysInMonth t.year (k + 1)) 0 + t.day

/-! ## Writing -/

/-- Four digits, or a sign and four or more for a year outside 0 to 9999. -/
def yearChars (y : Int) : List Char :=
  if 0 ≤ y ∧ y ≤ 9999 then Text.padded 4 y.toNat
  else (if y < 0 then '-' else '+') :: Text.padded 4 y.natAbs

def chars (t : Date) : List Char :=
  yearChars t.year ++ '-' :: Text.padded 2 t.month ++ '-' :: Text.padded 2 t.day

def toText (t : Date) : String := String.ofList t.chars

def monthNames : List String :=
  ["Jan", "Feb", "Mar", "Apr", "May", "Jun", "Jul", "Aug", "Sep", "Oct", "Nov", "Dec"]

/-- Month name, day and year, as in `Jan 12, 2026`. -/
def inWords (t : Date) : String :=
  monthNames.getD (t.month - 1) "" ++ " " ++ Text.natText t.day ++ ", " ++ String.ofList (yearChars t.year)

/-! ## Reading -/

/-- A number of one to `limit` digits, and what follows; no limit if there is none. -/
def readNumber (limit : Option Nat) (cs : List Char) : Option (Nat × List Char) :=
  let ds := cs.takeWhile Char.isDigit
  let ds := match limit with
    | some n => ds.take n
    | none => ds
  if ds = [] then none else some (Text.number ds, cs.drop ds.length)

def skipBlanks (cs : List Char) : List Char := cs.dropWhile Text.isBlank

/-- A year, signed or of up to four digits. -/
def readYear (cs : List Char) : Option (Int × List Char) :=
  match skipBlanks cs with
  | '-' :: rest => (readNumber none rest).map fun (n, rest') => (-(n : Int), rest')
  | '+' :: rest => (readNumber none rest).map fun (n, rest') => ((n : Int), rest')
  | rest => (readNumber (some 4) rest).map fun (n, rest') => ((n : Int), rest')

/-- The character `c` after blanks, then a number of one or two digits after blanks. -/
def readPart (c : Char) (cs : List Char) : Option (Nat × List Char) :=
  match skipBlanks cs with
  | x :: rest => if x = c then readNumber (some 2) (skipBlanks rest) else none
  | [] => none

/-- The date at the start of a text, and what follows it. -/
def readFront (cs : List Char) : Option (Date × List Char) := do
  let (y, cs) ← readYear cs
  let (m, cs) ← readPart '-' cs
  let (d, cs) ← readPart '-' cs
  let date ← of? y m d
  some (date, cs)

def ofChars (cs : List Char) : Option Date :=
  match readFront cs with
  | some (date, rest) => if skipBlanks rest = [] then some date else none
  | none => none

def ofText (s : String) : Option Date := ofChars s.toList

end Date

end YieldVault
