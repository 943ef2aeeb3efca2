/-!
# Kinds of action

A user can put the asset into the vault or take it out.
-/

namespace YieldVault

inductive Kind where
  | deposit
  | withdraw
  deriving DecidableEq

namespace Kind

/-- In the order of the forms. -/
def all : List Kind := [deposit, withdraw]

/-- The word for the kind in records. -/
def word : Kind → String
  | deposit => "deposit"
  | withdraw => "withdraw"

def ofWord? (s : String) : Option Kind := all.find? (·.word == s)

def label : Kind → String
  | deposit => "Deposit"
  | withdraw => "Withdraw"

/-- The label while the action waits for confirmation. -/
def pendingLabel : Kind → String
  | deposit => "Depositing..."
  | withdraw => "Withdrawing..."

end Kind

end YieldVault
