import YieldVault.Calendar.Date
import YieldVault.Power
import YieldVault.Text.Quoted

/-!
# Moments

Instants of universal time: a day, a second of that day and nanoseconds. A leap second belongs to
the second before it and has a billion nanoseconds or more. Two readers: the strict one for the
common profile of timestamps, and a generous one that also takes blanks, numbers of fewer digits and
`UTC` for the zone.
-/

namespace YieldVault

structure Moment where
  date : Date
  second : Nat
  nano : Nat
  deriving DecidableEq

namespace Moment

/-- Nanoseconds in a second. -/
def billion : Nat := 1000000000

def secondsPerDay : Nat := 86400

def epoch : Moment := ⟨⟨1970, 1, 1, by decide, by decide, by decide, by decide, by decide, by decide⟩, 0, 0⟩

/-- The moment `millis` milliseconds later. -/
def later (millis : Nat) (t : Moment) : Moment :=
  let nano := t.nano + millis % 1000 * 1000000
  let second := t.second + millis / 1000 + nano / billion
  ⟨t.date.later (second / secondsPerDay), second % secondsPerDay, nano % billion⟩

/-- The moment at a local time `east` seconds ahead of universal time, by less than a day. -/
def ofLocal? (date : Date) (second nano : Nat) (east : Int) : Option Moment := do
  let s := (second : Int) - east
  if s < 0 then return ⟨← date.previous?, (s + secondsPerDay).toNat, nano⟩
  else if s < secondsPerDay then return ⟨date, s.toNat, nano⟩
  else return ⟨← date.next?, (s - secondsPerDay).toNat, nano⟩

/-! ## Writing -/

/-- A point and 3, 6 or 9 digits, the fewest that are exact; nothing for a whole second. -/
def fractionChars (nano : Nat) : List Char :=
  if nano = 0 then []
  else if nano % 1000000 = 0 then '.' :: Text.padded 3 (nano / 1000000)
  else if nano % 1000 = 0 then '.' :: Text.padded 6 (nano / 1000)
  else '.' :: Text.padded 9 nano

/-- Date and time with `zone` behind them. -/
def chars (zone : List Char) (t : Moment) : List Char :=
  let leap := if billion ≤ t.nano then 1 else 0
  t.date.chars ++ 'T' :: Text.padded 2 (t.second / 3600) ++ ':' :: Text.padded 2 (t.second / 60 % 60) ++
    ':' :: Text.padded 2 (t.second % 60 + leap) ++ fractionChars (t.nano - leap * billion) ++ zone

/-- With the zone as an offset. -/
def toText (t : Moment) : String := String.ofList (t.chars ['+', '0', '0', ':', '0', '0'])

/-- With the zone as a letter. -/
def toZulu (t : Moment) : String := String.ofList (t.chars ['Z'])

/-! ## Elapsed time -/

/-- Nanoseconds from `a` to `b`. A leap second counts where both lie on one day. -/
def nanosBetween (a b : Moment) : Int :=
  let extra : Int :=
    if a.second < b.second ∧ billion ≤ a.nano then 1
    else if b.second < a.second ∧ billion ≤ b.nano then -1
    else 0
  ((b.date.dayNumber - a.date.dayNumber) * secondsPerDay + ((b.second : Int) - a.second) + extra) * billion +
    ((b.nano : Int) - a.nano)

/-- Whole milliseconds from `a` to `b`, never below zero. -/
def elapsedMillis (a b : Moment) : Nat := (nanosBetween a b).toNat / 1000000

/-! ## Reading -/

/-- Exactly `n` digits, and what follows. -/
def fixedNumber (n : Nat) (cs : List Char) : Option (Nat × List Char) :=
  let ds := cs.take n
  if ds.length = n ∧ ds.all Char.isDigit then some (Text.number ds, cs.drop n) else none

/-- The rest after the character `c`. -/
def after (c : Char) : List Char → Option (List Char)
  | x :: rest => if x = c then some rest else none
  | [] => none

/-- The rest after the `T` or the space between date and time. -/
def afterDate : List Char → Option (List Char)
  | c :: rest => if c = 'T' ∨ c = 't' ∨ c = ' ' then some rest else none
  | [] => none

/-- The nanoseconds written by the digits behind a point; digits past the ninth are dropped. -/
def readFraction (cs : List Char) : Option (Nat × List Char) :=
  let ds := cs.takeWhile Char.isDigit
  if ds = [] then none
  else
    let kept := ds.take 9
    some (Text.number kept * tenPow (9 - kept.length), cs.dropWhile Char.isDigit)

/-- The nanoseconds behind an optional point. -/
def optionalFraction : List Char → Option (Nat × List Char)
  | '.' :: cs => readFraction cs
  | cs => some (0, cs)

/-- Seconds ahead of universal time: a letter, or a sign, hours, what `separator` takes, minutes. -/
def readZone (separator : List Char → Option (List Char)) (cs : List Char) : Option (Int × List Char) := do
  match cs with
  | [] => none
  | c :: rest =>
    if c = 'Z' ∨ c = 'z' then return (0, rest)
    else
      let sign : Int ← if c = '+' then some 1 else if c = '-' ∨ c.toNat = 0x2212 then some (-1) else none
      let (hours, rest) ← fixedNumber 2 rest
      let (minutes, rest) ← fixedNumber 2 (← separator rest)
      if hours < 24 ∧ minutes < 60 then return (sign * ((hours * 60 + minutes) * 60 : Nat), rest) else none

/-- Second of the day and nanoseconds of a time on the clock, whose last second may be the 60th. -/
def clock? (hour minute second nano : Nat) : Option (Nat × Nat) :=
  if hour < 24 ∧ minute < 60 ∧ second ≤ 60 then
    let leap := if second = 60 then 1 else 0
    some ((hour * 60 + minute) * 60 + (second - leap), leap * billion + nano)
  else none

/-- The strict reader. -/
def ofChars (cs : List Char) : Option Moment := do
  let (y, cs) ← fixedNumber 4 cs
  let (m, cs) ← fixedNumber 2 (← after '-' cs)
  let (d, cs) ← fixedNumber 2 (← after '-' cs)
  let (hour, cs) ← fixedNumber 2 (← afterDate cs)
  let (minute, cs) ← fixedNumber 2 (← after ':' cs)
  let (second, cs) ← fixedNumber 2 (← after ':' cs)
  let (nano, cs) ← optionalFraction cs
  let (east, cs) ← readZone (after ':') cs
  let date ← Date.of? y m d
  let (s, n) ← clock? hour minute second nano
  if cs = [] then ofLocal? date s n east else none

/-- Why a text is no moment. -/
inductive ReadError where
  | notAMoment (text : String)

def ReadError.message : ReadError → String
  | .notAMoment text => "FailToDateParse(" ++ Text.quoted text ++ ")"

def ofText (s : String) : Except ReadError Moment :=
  match ofChars s.toList with
  | some t => .ok t
  | none => .error (.notAMoment s)

/-! ## The generous reader -/

def isZoneSpace (c : Char) : Bool := c == ':' || Text.isBlank c

/-- `UTC` in any case, or a zone with any colons and blanks between hours and minutes. -/
def readLooseZone (cs : List Char) : Option (Int × List Char) :=
  if (cs.take 3).map Char.toUpper = ['U', 'T', 'C'] then some (0, cs.drop 3)
  else readZone (fun cs => some (cs.dropWhile isZoneSpace)) cs

def ofLooseChars (cs : List Char) : Option Moment := do
  let (date, cs) ← Date.readFront cs
  let (hour, cs) ← Date.readNumber (some 2) (Date.skipBlanks (← afterDate cs))
  let (minute, cs) ← Date.readPart ':' cs
  let (second, cs) ← Date.readPart ':' cs
  let (nano, cs) ← optionalFraction cs
  let (east, cs) ← readLooseZone (Date.skipBlanks cs)
  let (s, n) ← clock? hour minute second nano
  if Date.skipBlanks cs = [] then ofLocal? date s n east else none

/-- The reader for moments inside records. -/
def ofLoose (s : String) : Option Moment := ofLooseChars s.toList

end Moment

end YieldVault
