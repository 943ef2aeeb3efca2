import YieldVault.Text.Numeral

/-!
# Trace ids

Every submitted action carries an id. A session issues its own in order; an id that came from
outside is none of them, whatever its text. The text of an issued id has the layout of a version 4
identifier, with the serial number in the last group. A task runs inside scopes, and the innermost
one names its id.
-/

namespace YieldVault

inductive TraceId where
  | issued (serial : Nat)
  | foreign (text : String)
  deriving DecidableEq

def TraceId.text : TraceId → String
  | issued n => "00000000-0000-4000-8000-" ++ String.ofList ((Text.hexDigits n).leftpad 12 '0')
  | foreign t => t

namespace Trace

/-- The scopes around a task, innermost first. -/
abbrev Scopes := List String

def current (scopes : Scopes) : Option String := scopes.head?

/-- What a task sees that enters the scopes of `ids` one inside the other and leaves them again. -/
def seen (scopes : Scopes) : List String → List (Option String)
  | [] => [current scopes]
  | id :: ids => current scopes :: seen (id :: scopes) ids ++ [current scopes]

/-- An id with every hexadecimal digit hidden. -/
def shape (id : String) : String := id.map fun c => if c = '-' then c else 'x'

/-- The digit of an id that tells the version of its layout. -/
def version (id : String) : String := String.ofList ((id.toList.drop 14).take 1)

end Trace

end YieldVault
