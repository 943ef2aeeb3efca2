import YieldVault.Json.Basic

/-!
# Records in JSON

A record is an object or an array of its fields in order. In an object the order is free, unknown
names are passed over and a known name may stand only once. In an array, fields can be missing at
the end only.
-/

namespace YieldVault.Json

/-- The fields of a record in their own order, each with what it holds if it is there. -/
structure Record where
  /-- The record was an array. -/
  positional : Bool
  held : List (Option Json)

/-- The record with the given field names. -/
def record? (names : List String) : Json → Option Record
  | .array items =>
    if items.length ≤ names.length then
      some ⟨true, items.map some ++ List.replicate (names.length - items.length) none⟩
    else none
  | .object members => do
    let keys ← members.mapM (·.1)
    if names.any (fun name => 1 < keys.count name) then none
    else some ⟨false, names.map fun name => members.lookup (some name)⟩
  | _ => none

def text? : Json → Option String
  | .text s => s
  | _ => none

/-- Counts stay below `2 ^ 64`. -/
def countBound : Nat := 18446744073709551616

/-- A count below the bound, written without sign, fraction and exponent. -/
def count? : Json → Option UInt64
  | .number literal => do
    let n ← Text.natural? literal
    if n < countBound then some (UInt64.ofNat n) else none
  | _ => none

/-- `null` or a value that `read` takes. -/
def nullable {α : Type} (read : Json → Option α) : Json → Option (Option α)
  | .null => some none
  | j => (read j).map some

def list? {α : Type} (read : Json → Option α) : Json → Option (List α)
  | .array items => items.mapM read
  | _ => none

/-- A field that has to be there. -/
def need {α : Type} (read : Json → Option α) (held : Option Json) : Option α := held.bind read

/-- A field with a value of its own when it is not there. -/
def orElse {α : Type} (read : Json → Option α) (absent : α) : Option Json → Option α
  | some j => read j
  | none => some absent

def ofNat (n : Nat) : Json := .number (Text.digits n)

def ofString (s : String) : Json := .text (some s)

def ofOption {α : Type} (f : α → Json) : Option α → Json
  | some a => f a
  | none => .null

/-- An object with plain names. -/
def ofMembers (members : List (String × Json)) : Json := .object (members.map fun (name, j) => (some name, j))

end YieldVault.Json
