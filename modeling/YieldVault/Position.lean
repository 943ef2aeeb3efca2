import YieldVault.Amount.Arithmetic
import YieldVault.Amount.Division
import YieldVault.Fault
import YieldVault.Vault.Snapshot

/-!
# The user's position

A consistent quote together with the worth of the user's shares at its price. A position changes in
two ways only: a fresh quote replaces it, or the receipt of a settled action is folded in.
-/

namespace YieldVault

structure Position where
  quote : Quote
  /-- The worth of the user's shares. -/
  userValue : Amount
  sound : quote.defect? = none
  value_eq : quote.userShares.mul? quote.sharePrice = some userValue
  deriving DecidableEq

namespace Position

/-- Why a quote makes no position. -/
inductive Refusal where
  | defect (d : Quote.Defect)
  /-- The worth of the shares is out of range. -/
  | worth (shares : Amount)
  deriving DecidableEq

def Refusal.describe : Refusal → String
  | defect d => d.describe
  | worth shares => "position value of " ++ shares.display ++ " shares is out of range"

def Refusal.toFault (r : Refusal) : Fault := .chain r.describe

/-- The position that a quote gives. -/
def ofQuote (q : Quote) : Except Refusal Position :=
  match sound : q.defect? with
  | some d => .error (.defect d)
  | none =>
    match value_eq : q.userShares.mul? q.sharePrice with
    | some v => .ok ⟨q, v, sound, value_eq⟩
    | none => .error (.worth q.userShares)

theorem quote_of_ofQuote {q : Quote} {p : Position} (h : ofQuote q = .ok p) : p.quote = q := by
  unfold ofQuote at h
  split at h
  · cases h
  · split at h
    · cases h
      rfl
    · cases h

/-! ## Conversions -/

/-- The shares that an amount of the asset is worth. Nothing for nothing or less. -/
def sharesFor (p : Position) (amount : Amount) : Option Amount :=
  if amount.isPositive then amount.div? p.quote.sharePrice else some Amount.zero

/-- The asset that a number of shares is worth. Nothing for nothing or less. -/
def amountFor (p : Position) (shares : Amount) : Option Amount :=
  if shares.isPositive then shares.mul? p.quote.sharePrice else some Amount.zero

/-- Principal that the vault still takes. -/
def remainingCap (p : Position) : Amount := max (p.quote.depositCap.saturatingSub p.quote.capUsed) Amount.zero

/-- The user's share of the value locked, in percent. -/
def shareOfTvl (p : Position) (stats : Stats) : Amount :=
  if stats.tvl.isPositive then
    ((p.userValue.mul? (Amount.ofInt64 100)).bind (·.div? stats.tvl)).getD Amount.zero
  else Amount.zero

/-! ## Receipts -/

/-- The first alternative, or the rejection of an amount out of range. -/
def inRange (a : Option Amount) : Except Rejection Amount :=
  match a with
  | some a => .ok a
  | none => .error (.unknown "amount overflow")

/-- The quote after a settled deposit. -/
def afterDeposit (p : Position) (amount shares : Amount) : Except Rejection Quote := do
  let q := p.quote
  if q.walletBalance < amount then .error .insufficientFunds
  else
    let used ← inRange (q.capUsed.add? amount)
    if q.depositCap < used then .error .capExceeded
    else
      let held ← inRange (q.userShares.add? shares)
      return { q with
        userShares := held
        walletBalance := q.walletBalance.saturatingSub amount
        capUsed := used }

/-- The quote after a settled withdrawal. Burning the whole position can round one step past the
shares held; what is left is never below zero. -/
def afterWithdrawal (p : Position) (amount shares : Amount) : Except Rejection Quote := do
  let q := p.quote
  if p.userValue < amount then .error .insufficientFunds
  else
    let wallet ← inRange (q.walletBalance.add? amount)
    return { q with
      userShares := max (q.userShares.saturatingSub shares) Amount.zero
      walletBalance := wallet
      capUsed := max (q.capUsed.saturatingSub amount) Amount.zero }

/-- The position after the action of a receipt, or why the action is rejected. -/
def apply (p : Position) (r : Receipt) : Except Rejection Position := do
  let next ← match r.kind with
    | .deposit => p.afterDeposit r.amount r.shares
    | .withdraw => p.afterWithdrawal r.amount r.shares
  (ofQuote next).mapError fun refusal => .unknown refusal.describe

end Position

end YieldVault
