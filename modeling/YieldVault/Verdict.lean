import YieldVault.Entry
import YieldVault.Figure
import YieldVault.Position

/-!
# Verdicts

What a form says about a typed amount. Nothing is said about nothing; an amount that passes has a
preview of the shares it moves; one that does not has an objection, and only the cap is a warning.
Only an accepted amount can be submitted. `==` compares what is shown, with amounts by value.
-/

namespace YieldVault

/-- What an action would move. -/
inductive Preview where
  | deposit (shares : Amount)
  | withdraw (burned received : Amount)
  deriving BEq, DecidableEq

/-- What is wrong with an amount. -/
inductive Objection where
  | notANumber
  | belowMinimum (least : Amount)
  | overWallet (balance : Amount)
  | overCap (remaining : Amount)
  | overPosition (available : Amount)
  deriving DecidableEq

def Objection.message : Objection → String
  | notANumber => "amount is not a valid number"
  | belowMinimum least => "minimum deposit is " ++ least.display ++ " USDC"
  | overWallet balance => "insufficient wallet balance: you only have " ++ Figure.number balance 2 ++ " USDC"
  | overCap remaining => "exceeds vault cap; max additional = " ++ remaining.display ++ " USDC"
  | overPosition available =>
    "exceeds withdrawable balance: you can withdraw up to " ++ Figure.number available 2 ++ " USDC"

def Objection.severity : Objection → Severity
  | overCap _ => .warning
  | _ => .error

inductive Verdict where
  | silent
  | accepted (preview : Preview)
  | refused (objection : Objection) (preview : Option Preview)
  deriving DecidableEq

namespace Verdict

def isValid : Verdict → Bool
  | accepted _ => true
  | _ => false

def severity : Verdict → Severity
  | refused objection _ => objection.severity
  | _ => .plain

/-- Empty when there is nothing to say. -/
def message : Verdict → String
  | refused objection _ => objection.message
  | _ => ""

def preview? : Verdict → Option Preview
  | silent => none
  | accepted preview => some preview
  | refused _ preview => preview

instance : BEq Verdict where
  beq v w :=
    v.isValid == w.isValid && v.severity == w.severity && v.message == w.message && v.preview? == w.preview?

/-- The preview of an action of `kind` that moves `amount` and `shares`. -/
def previewOf (kind : Kind) (amount shares : Amount) : Preview :=
  match kind with
  | .deposit => .deposit shares
  | .withdraw => .withdraw shares amount

/-- The first objection to a positive amount in range. -/
def objection? (kind : Kind) (amount : Amount) (p : Position) : Option Objection :=
  match kind with
  | .deposit =>
    if amount < p.quote.minDeposit then some (.belowMinimum p.quote.minDeposit)
    else if p.quote.walletBalance < amount then some (.overWallet p.quote.walletBalance)
    else if p.remainingCap < amount then some (.overCap p.remainingCap)
    else none
  | .withdraw => if p.userValue < amount then some (.overPosition p.userValue) else none

/-- The verdict on an entry against a position. -/
def judge (kind : Kind) (entry : Entry) (p : Position) : Verdict :=
  match entry with
  | .invalid => refused .notANumber none
  | .value amount =>
    if amount.isPositive then
      match p.sharesFor amount with
      | none => refused .notANumber none
      | some shares =>
        let preview := previewOf kind amount shares
        match objection? kind amount p with
        | some objection => refused objection (some preview)
        | none => accepted preview
    else silent

end Verdict

end YieldVault
