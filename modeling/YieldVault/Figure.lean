import YieldVault.Amount.Division
import YieldVault.Amount.Text

/-!
# Figures for people

Grouped numbers (`12,450.00`), compact dollar figures (`$2.1M`, `$800K`, `$12.34`), percentages and
shortened addresses.
-/

namespace YieldVault.Figure

/-- A comma before every third digit counted from the end. -/
def grouped : List Char → List Char
  | [] => []
  | c :: rest => if rest.length % 3 = 0 ∧ rest ≠ [] then c :: ',' :: grouped rest else c :: grouped rest

/-- `p` fractional digits and commas in the integer part. -/
def number (a : Amount) (p : Nat) : String :=
  let l := a.atPlaces p
  String.ofList (l.sign ++ grouped l.integerDigits ++ l.fraction)

def percent (a : Amount) (p : Nat) : String := a.fixed p ++ "%"

/-- `number`, if the digits have room. -/
def number? (a : Amount) (p : Nat) : Option String := (a.fixed? p).map fun _ => number a p

/-- `percent`, if the digits have room. -/
def percent? (a : Amount) (p : Nat) : Option String := (a.fixed? p).map fun _ => percent a p

def thousand : Amount := Amount.ofInt64 1000

def million : Amount := Amount.ofInt64 1000000

/-- Millions with one digit, thousands with none, and smaller sums with cents. -/
def dollars (a : Amount) : String :=
  if million ≤ a then "$" ++ ((a.div? million).getD a).fixed 1 ++ "M"
  else if thousand ≤ a then "$" ++ ((a.div? thousand).getD a).fixed 0 ++ "K"
  else "$" ++ a.fixed 2

/-- The first `front` and the last `back` characters of an address, or all of it when it is no
longer than that or not plain ASCII. -/
def address (text : String) (front back : Nat) : String :=
  let cs := text.toList
  if cs.length ≤ front + back ∨ cs.any (fun c => 128 ≤ c.toNat) then text
  else String.ofList (cs.take front ++ ['.', '.', '.'] ++ cs.drop (cs.length - back))

/-- Lengths stay below `2 ^ 64`. -/
def lengthBound : Nat := 18446744073709551616

/-- `address`, if the two lengths together are a length. -/
def address? (text : String) (front back : Nat) : Option String :=
  if front + back < lengthBound then some (address text front back) else none

/-- The form on the wallet button. -/
def shortAddress (text : String) : String := address text 6 4

end YieldVault.Figure
