import YieldVault.Figure
import YieldVault.Position

/-!
# Panels

The texts of the four panels: what a deposit costs, what the account holds, what can be withdrawn and
how the vault does. The first three need a position, the last one only the vault's figures.
-/

namespace YieldVault.Panel

/-- An amount of the asset, with cents. -/
def asset (a : Amount) : String := Figure.number a 2 ++ " USDC"

/-- A number of shares. -/
def shares (a : Amount) : String := Figure.number a 2 ++ " yrUSDC"

structure Deposit where
  walletBalance : String
  sharePrice : String
  apy : String
  capInfo : String
  deriving DecidableEq

def deposit (p : Position) (stats : Stats) : Deposit where
  walletBalance := "Wallet balance: " ++ asset p.quote.walletBalance
  sharePrice := Figure.number p.quote.sharePrice 4 ++ " USDC per yrUSDC"
  apy := Figure.percent stats.netApy 1
  capInfo := "Vault deposit cap: " ++ Figure.dollars p.remainingCap ++ " remaining. Minimum deposit: " ++
    p.quote.minDeposit.display ++ " USDC."

/-- A line of the legend below the allocation bar. -/
structure LegendItem where
  name : String
  /-- The width of its part of the bar, in percent. -/
  width : Amount
  pct : String
  balance : String
  apy : String
  address : Option String
  deriving DecidableEq

def legendItem (a : Allocation) : LegendItem where
  name := a.name
  width := max a.pct Amount.zero
  pct := a.pct.display ++ "%"
  balance := Figure.dollars a.balance
  apy := Figure.percent a.apy 1
  address := a.address.map Figure.shortAddress

def legend (stats : Stats) : List LegendItem := stats.allocations.map legendItem

structure Portfolio where
  value : String
  /-- Only for an account with earnings. -/
  earned : Option String
  since : Option String
  shares : String
  sharePrice : String
  apy : String
  shareOfTvl : String
  allocation : List LegendItem
  deriving DecidableEq

def portfolio (p : Position) (stats : Stats) : Portfolio where
  value := "$" ++ Figure.number p.userValue 2
  earned := stats.earnings.map fun e =>
    "+$" ++ Figure.number e.earned 2 ++ " earned (+" ++ Figure.percent e.earnedPct 2 ++ ")"
  since := stats.earnings.map fun e => "since your first deposit on " ++ e.firstDeposit.inWords
  shares := Panel.shares p.quote.userShares
  sharePrice := Figure.number p.quote.sharePrice 4 ++ " USDC"
  apy := Figure.percent stats.netApy 1
  shareOfTvl := Figure.percent (p.shareOfTvl stats) 1
  allocation := legend stats

structure Withdraw where
  available : String
  breakdown : String
  deriving DecidableEq

def withdraw (p : Position) : Withdraw where
  available := "Available to withdraw: " ++ asset p.userValue
  breakdown :=
    "(" ++ shares p.quote.userShares ++ " at " ++ Figure.number p.quote.sharePrice 4 ++ " USDC/share)"

/-- The vault as a whole. -/
structure Info where
  tvl : String
  apy : String
  depositors : String
  yieldPaid : String
  vaultAddress : Option String
  allocation : List LegendItem
  deriving DecidableEq

def info (stats : Stats) : Info where
  tvl := Figure.dollars stats.tvl
  apy := Figure.percent stats.netApy 1
  depositors := Figure.number (Amount.ofUInt64 stats.depositors) 0
  yieldPaid := Figure.dollars stats.yieldPaid
  vaultAddress := stats.vaultAddress.map Figure.shortAddress
  allocation := legend stats

end YieldVault.Panel
