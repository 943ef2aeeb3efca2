import YieldVault.Json.Lexer

/-!
# Reading JSON text

The elements of a text are fed to a machine that keeps the unfinished arrays and objects around the
current place. Each element moves it by one step, so reading is a fold.
-/

namespace YieldVault.Json

/-- An unfinished array or object, with what it holds so far in reverse. -/
inductive Frame where
  | array (items : List Json)
  | object (members : List (Option String × Json)) (name : Option String)

/-- What the machine waits for. -/
inductive Expect where
  | value
  | itemOrEnd
  | name (members : List (Option String × Json))
  | nameOrEnd
  | colon (members : List (Option String × Json)) (name : Option String)
  /-- A comma or the end of what surrounds the finished value. -/
  | after (j : Json)

/-- The unfinished surroundings, innermost first, and what is expected next. -/
abbrev Place := List Frame × Expect

/-- The place after the element that starts a value. -/
def begin (frames : List Frame) : Token → Option Place
  | .null => some (frames, .after .null)
  | .bool b => some (frames, .after (.bool b))
  | .number literal => some (frames, .after (.number literal))
  | .text s => some (frames, .after (.text s))
  | .mark c =>
    if c = '[' then some (.array [] :: frames, .itemOrEnd)
    else if c.toNat = 0x7b then some (frames, .nameOrEnd)
    else none

/-- The place after one element. An object gets its frame with its first name. -/
def step : Place → Token → Option Place
  | (frames, .value), t => begin frames t
  | (.array [] :: frames, .itemOrEnd), .mark ']' => some (frames, .after (.array []))
  | (frames, .itemOrEnd), t => begin frames t
  | (frames, .nameOrEnd), .text name => some (frames, .colon [] name)
  | (frames, .nameOrEnd), .mark c => if c.toNat = 0x7d then some (frames, .after (.object [])) else none
  | (frames, .name members), .text name => some (frames, .colon members name)
  | (frames, .colon members name), .mark ':' => some (.object members name :: frames, .value)
  | (.array items :: frames, .after j), .mark c =>
    if c = ',' then some (.array (j :: items) :: frames, .value)
    else if c = ']' then some (frames, .after (.array (j :: items).reverse))
    else none
  | (.object members name :: frames, .after j), .mark c =>
    if c = ',' then some (frames, .name ((name, j) :: members))
    else if c.toNat = 0x7d then some (frames, .after (.object ((name, j) :: members).reverse))
    else none
  | _, _ => none

/-- The value that a text writes, if it is a JSON text. -/
def ofChars (cs : List Char) : Option Json := do
  let ts ← scan cs
  match ← ts.foldlM step ([], .value) with
  | ([], .after j) => some j
  | _ => none

def ofText (s : String) : Option Json := ofChars s.toList

end YieldVault.Json
