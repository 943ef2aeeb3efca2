import YieldVault.Text.Numeral

/-!
# JSON values

Values as a reader sees them: the members of an object in order, with repeated names, and a number
as its literal. A string literal can hold an unpaired surrogate escape; it then has no text, and no
typed field takes it, but it may stand where nobody looks. Writing is compact.
-/

namespace YieldVault

inductive Json where
  | null
  | bool (b : Bool)
  | number (literal : List Char)
  | text (s : Option String)
  | array (items : List Json)
  | object (members : List (Option String × Json))

namespace Json

/-- A lexical element: punctuation or a value without parts. -/
inductive Token where
  | mark (c : Char)
  | null
  | bool (b : Bool)
  | number (literal : List Char)
  | text (s : Option String)

/-! ## Writing -/

/-- Inside a string literal. -/
def escaped (c : Char) : List Char :=
  if c = '"' ∨ c = '\\' then ['\\', c]
  else if c = '\n' then ['\\', 'n']
  else if c = '\r' then ['\\', 'r']
  else if c = '\t' then ['\\', 't']
  else if c.toNat = 8 then ['\\', 'b']
  else if c.toNat = 12 then ['\\', 'f']
  else if c.toNat < 32 then ['\\', 'u'] ++ (Text.hexDigits c.toNat).leftpad 4 '0'
  else [c]

/-- A text that an unpaired surrogate took away is written as null. -/
def Token.chars : Token → List Char
  | .mark c => [c]
  | .null => ['n', 'u', 'l', 'l']
  | .bool true => ['t', 'r', 'u', 'e']
  | .bool false => ['f', 'a', 'l', 's', 'e']
  | .number literal => literal
  | .text (some s) => ['"'] ++ s.toList.flatMap escaped ++ ['"']
  | .text none => ['n', 'u', 'l', 'l']

def openBrace : Token := .mark (Char.ofNat 0x7b)

def closeBrace : Token := .mark (Char.ofNat 0x7d)

mutual

/-- The elements of a value in the order in which they are written. -/
def tokens : Json → List Token
  | .null => [.null]
  | .bool b => [.bool b]
  | .number literal => [.number literal]
  | .text s => [.text s]
  | .array items => .mark '[' :: itemTokens items ++ [.mark ']']
  | .object members => openBrace :: memberTokens members ++ [closeBrace]

def itemTokens : List Json → List Token
  | [] => []
  | [j] => tokens j
  | j :: rest => tokens j ++ .mark ',' :: itemTokens rest

def memberTokens : List (Option String × Json) → List Token
  | [] => []
  | [(name, j)] => .text name :: .mark ':' :: tokens j
  | (name, j) :: rest => .text name :: .mark ':' :: tokens j ++ .mark ',' :: memberTokens rest

end

/-- The compact text of a value. -/
def render (j : Json) : String := String.ofList (j.tokens.flatMap Token.chars)

end Json

end YieldVault
