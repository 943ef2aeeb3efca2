import YieldVault.Json.Basic

/-!
# Lexical elements of JSON text

Blanks are the four that the format names. A number is the longest literal of the grammar; a string
literal is decoded, with surrogate escapes joined in pairs.
-/

namespace YieldVault.Json

def isSpace (c : Char) : Bool := c == ' ' || c == '\n' || c == '\r' || c == '\t'

/-! ## String literals -/

/-- An element of a string literal: a character, or the code unit of a hexadecimal escape. -/
inductive Piece where
  | char (c : Char)
  | unit (u : Nat)

def hexValue (c : Char) : Option Nat :=
  if c.isDigit then some (c.toNat - '0'.toNat)
  else if 'a' ≤ c ∧ c ≤ 'f' then some (c.toNat - 'a'.toNat + 10)
  else if 'A' ≤ c ∧ c ≤ 'F' then some (c.toNat - 'A'.toNat + 10)
  else none

def unitOf (a b c d : Char) : Option Nat := do
  return (((← hexValue a) * 16 + (← hexValue b)) * 16 + (← hexValue c)) * 16 + (← hexValue d)

/-- The character that a short escape stands for. -/
def shortEscape : Char → Option Char
  | '"' => some '"'
  | '\\' => some '\\'
  | '/' => some '/'
  | 'b' => some (Char.ofNat 8)
  | 'f' => some (Char.ofNat 12)
  | 'n' => some '\n'
  | 'r' => some '\r'
  | 't' => some '\t'
  | _ => none

/-- The pieces up to the closing quote, and what follows it. -/
def pieces : List Char → Option (List Piece × List Char)
  | [] => none
  | '"' :: rest => some ([], rest)
  | '\\' :: 'u' :: a :: b :: c :: d :: rest => do
    let u ← unitOf a b c d
    let (ps, rest') ← pieces rest
    some (.unit u :: ps, rest')
  | '\\' :: e :: rest => do
    let c ← shortEscape e
    let (ps, rest') ← pieces rest
    some (.char c :: ps, rest')
  | c :: rest =>
    if c.toNat < 32 ∨ c = '\\' then none
    else do
      let (ps, rest') ← pieces rest
      some (.char c :: ps, rest')

def isHighSurrogate (u : Nat) : Bool := 0xd800 ≤ u && u < 0xdc00

def isLowSurrogate (u : Nat) : Bool := 0xdc00 ≤ u && u < 0xe000

/-- The text of a string literal; none with an unpaired surrogate. -/
def joined : List Piece → Option (List Char)
  | [] => some []
  | .char c :: rest => (joined rest).map (c :: ·)
  | .unit u :: .unit v :: rest =>
    if isHighSurrogate u && isLowSurrogate v then
      (joined rest).map (Char.ofNat (0x10000 + (u - 0xd800) * 0x400 + (v - 0xdc00)) :: ·)
    else if isHighSurrogate u || isLowSurrogate u then none
    else (joined (.unit v :: rest)).map (Char.ofNat u :: ·)
  | .unit u :: rest =>
    if isHighSurrogate u || isLowSurrogate u then none else (joined rest).map (Char.ofNat u :: ·)

/-! ## Numbers -/

/-- One or more digits and what follows them. -/
def someDigits (cs : List Char) : Option (List Char × List Char) :=
  match cs.takeWhile Char.isDigit with
  | [] => none
  | ds => some (ds, cs.dropWhile Char.isDigit)

/-- Digits without a needless leading zero. -/
def wholePart (cs : List Char) : Option (List Char × List Char) :=
  match someDigits cs with
  | some ('0' :: _ :: _, _) => none
  | r => r

def fractionPart : List Char → Option (List Char × List Char)
  | '.' :: cs => (someDigits cs).map fun (ds, rest) => ('.' :: ds, rest)
  | cs => some ([], cs)

def exponentDigits (mark : List Char) (cs : List Char) : Option (List Char × List Char) :=
  (someDigits cs).map fun (ds, rest) => (mark ++ ds, rest)

def exponentPart : List Char → Option (List Char × List Char)
  | e :: cs =>
    if e = 'e' ∨ e = 'E' then
      match cs with
      | '+' :: cs' => exponentDigits [e, '+'] cs'
      | '-' :: cs' => exponentDigits [e, '-'] cs'
      | _ => exponentDigits [e] cs
    else some ([], e :: cs)
  | [] => some ([], [])

/-- The number literal at the start of a text, and what follows it. -/
def numberLiteral (cs : List Char) : Option (List Char × List Char) := do
  let (sign, cs) := match cs with
    | '-' :: rest => (['-'], rest)
    | rest => ([], rest)
  let (whole, cs) ← wholePart cs
  let (fraction, cs) ← fractionPart cs
  let (exponent, cs) ← exponentPart cs
  some (sign ++ whole ++ fraction ++ exponent, cs)

/-! ## The whole text -/

def isMark (c : Char) : Bool :=
  c == '[' || c == ']' || c == ',' || c == ':' || c.toNat == 0x7b || c.toNat == 0x7d

/-- The element at the start of a text that does not start with a blank, and what follows it. -/
def nextToken : List Char → Option (Token × List Char)
  | 'n' :: 'u' :: 'l' :: 'l' :: rest => some (.null, rest)
  | 't' :: 'r' :: 'u' :: 'e' :: rest => some (.bool true, rest)
  | 'f' :: 'a' :: 'l' :: 's' :: 'e' :: rest => some (.bool false, rest)
  | '"' :: rest => (pieces rest).map fun (ps, rest') => (.text ((joined ps).map String.ofList), rest')
  | c :: rest =>
    if isMark c then some (.mark c, rest)
    else (numberLiteral (c :: rest)).map fun (literal, rest') => (.number literal, rest')
  | [] => none

/-- The elements of a text of at most `n` characters. -/
def scanWithin : (n : Nat) → List Char → Option (List Token)
  | _, [] => some []
  | 0, _ :: _ => none
  | n + 1, c :: rest =>
    if isSpace c then scanWithin n rest
    else do
      let (t, rest') ← nextToken (c :: rest)
      let ts ← scanWithin n rest'
      some (t :: ts)

/-- The elements of a text. -/
def scan (cs : List Char) : Option (List Token) := scanWithin cs.length cs

end YieldVault.Json
