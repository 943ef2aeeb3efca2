/-!
# Cancel tokens

A token is a serial number; the register knows how many were issued and which are cancelled, in the
order of cancellation. A token stays cancelled.
-/

namespace YieldVault

/-- The number of a token, counted from zero. -/
abbrev Token := Nat

structure Tokens where
  issued : Nat
  cancelled : List Token
  deriving DecidableEq

namespace Tokens

def none : Tokens := ⟨0, []⟩

/-- A fresh token. -/
def issue (ts : Tokens) : Token × Tokens := (ts.issued, { ts with issued := ts.issued + 1 })

def isCancelled (ts : Tokens) (t : Token) : Bool := ts.cancelled.contains t

def cancel (ts : Tokens) (t : Token) : Tokens :=
  if ts.isCancelled t then ts else { ts with cancelled := ts.cancelled ++ [t] }

end Tokens

end YieldVault
