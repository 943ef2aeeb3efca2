import YieldVault.Amount.Text

/-!
# Quotes

What the vault offers one account at one moment. A quote is consistent when its price is positive,
nothing else is negative and the cap covers what counts against it.
-/

namespace YieldVault

structure Quote where
  /-- Asset per share. -/
  sharePrice : Amount
  /-- The most principal that the vault takes. -/
  depositCap : Amount
  /-- Principal that counts against the cap. -/
  capUsed : Amount
  minDeposit : Amount
  walletBalance : Amount
  userShares : Amount
  deriving BEq, DecidableEq

namespace Quote

/-- What makes a quote inconsistent. -/
inductive Defect where
  | price (value : Amount)
  | negative (field : String) (value : Amount)
  | overCap (used cap : Amount)
  deriving DecidableEq

def Defect.describe : Defect → String
  | price value => "share_price must be positive, got " ++ value.display
  | negative field value => field ++ " must not be negative, got " ++ value.display
  | overCap used cap =>
    "deposit_cap_used (" ++ used.display ++ ") exceeds deposit_cap (" ++ cap.display ++ ")"

/-- The fields that must not be negative, with their names. -/
def holdings (q : Quote) : List (String × Amount) :=
  [("deposit_cap", q.depositCap), ("deposit_cap_used", q.capUsed), ("min_deposit", q.minDeposit),
   ("wallet_balance", q.walletBalance), ("user_shares", q.userShares)]

/-- The first defect of a quote. -/
def defect? (q : Quote) : Option Defect :=
  if !q.sharePrice.isPositive then some (.price q.sharePrice)
  else
    match q.holdings.find? (·.2.isNegative) with
    | some (field, value) => some (.negative field value)
    | none => if q.depositCap < q.capUsed then some (.overCap q.capUsed q.depositCap) else none

end Quote

end YieldVault
