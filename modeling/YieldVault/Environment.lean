import YieldVault.Fault
import YieldVault.Text.Blank
import YieldVault.Text.Quoted

/-!
# Variables

Named texts from outside the program. A number or a flag that is set but does not read is an error
even where an unset one has a default.
-/

namespace YieldVault

/-- What each variable is set to. -/
def Environment := String → Option String

namespace Environment

/-- The environment with just these variables. -/
def ofList (entries : List (String × String)) : Environment := fun name => entries.lookup name

/-- A name is not empty and has no equals sign, and neither name nor value has a zero character. -/
def isSettable (name value : String) : Bool :=
  !name.isEmpty && !name.toList.contains '=' && (name ++ value).toList.all (·.toNat != 0)

/-- The environment with just these variables, if all of them can be set. -/
def ofList? (entries : List (String × String)) : Option Environment :=
  if entries.all fun (name, value) => isSettable name value then some (ofList entries) else none

/-- The variables of `env`, over those of `base`. -/
def orElse (env base : Environment) : Environment := fun name => (env name).or (base name)

inductive Problem where
  | missing (name : String)
  | malformed (name : String)
  deriving DecidableEq

def Problem.tag : Problem → String
  | missing _ => "MissingEnv"
  | malformed _ => "WrongFormat"

def Problem.name : Problem → String
  | missing name => name
  | malformed name => name

def Problem.describe (p : Problem) : String := p.tag ++ "(" ++ Text.quoted p.name ++ ")"

def Problem.toFault (p : Problem) : Fault := .config p.describe

def get (env : Environment) (name : String) : Except Problem String :=
  match env name with
  | some value => .ok value
  | none => .error (.missing name)

/-- The value that `read` makes of the variable. -/
def parse {α : Type} (env : Environment) (read : List Char → Option α) (name : String) :
    Except Problem α := do
  match read (← env.get name).toList with
  | some a => .ok a
  | none => .error (.malformed name)

/-- As `parse`, with a value for an unset variable. -/
def parseOr {α : Type} (env : Environment) (read : List Char → Option α) (name : String) (unset : α) :
    Except Problem α :=
  match env name with
  | some _ => env.parse read name
  | none => .ok unset

/-- An unsigned number of 64 bits, below `2 ^ 64`. -/
def word : List Char → Option Nat := Text.unsigned? 18446744073709551616

/-- A signed number of 32 bits, from `-2 ^ 31` on and below `2 ^ 31`. -/
def integer : List Char → Option Int := Text.signed? 2147483648

def truth : List Char → Option Bool
  | ['t', 'r', 'u', 'e'] => some true
  | ['f', 'a', 'l', 's', 'e'] => some false
  | _ => none

/-- `1`, `0` or a truth value between blanks. -/
def onOff (cs : List Char) : Option Bool :=
  match Text.trimChars cs with
  | ['1'] => some true
  | ['0'] => some false
  | rest => truth rest

def flag (env : Environment) (name : String) (unset : Bool) : Except Problem Bool :=
  env.parseOr onOff name unset

end Environment

end YieldVault
