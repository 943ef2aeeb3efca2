import YieldVault.Calendar.Moment
import YieldVault.Vault.Kind
import YieldVault.Vault.Quote

/-!
# Snapshots and receipts

What one read of the chain delivers, and the proof of a settled action. `==` compares amounts by
value.
-/

namespace YieldVault

/-- A strategy that holds part of the vault's capital. -/
structure Allocation where
  name : String
  /-- Percent of the value locked. -/
  pct : Amount
  balance : Amount
  apy : Amount
  /-- None for capital that lies idle in the vault. -/
  address : Option String
  deriving BEq, DecidableEq

/-- What an account earned since its first deposit. -/
structure Earnings where
  earned : Amount
  earnedPct : Amount
  firstDeposit : Date
  deriving BEq, DecidableEq

/-- Figures of the whole vault. -/
structure Stats where
  /-- Total value locked. -/
  tvl : Amount
  netApy : Amount
  depositors : UInt64
  yieldPaid : Amount
  vaultAddress : Option String
  allocations : List Allocation
  earnings : Option Earnings
  deriving BEq, DecidableEq

/-- The figures before anything was read. -/
def Stats.blank : Stats := ⟨Amount.zero, Amount.zero, 0, Amount.zero, none, [], none⟩

structure Snapshot where
  quote : Quote
  stats : Stats
  deriving BEq, DecidableEq

/-- A settled action: the asset moved, the shares minted or burned, and its transaction. -/
structure Receipt where
  kind : Kind
  amount : Amount
  shares : Amount
  reference : String
  settledAt : Moment
  deriving DecidableEq

end YieldVault
