import YieldVault.Vault.Snapshot

/-!
# The sample vault

The account and the snapshot that a simulation works with when nothing else is given.
-/

namespace YieldVault.Simulation

def sampleAccount : String := "0x742d35Cc6634C0532925a3b844Bc9e7595f2bD18"

/-- An amount written with `places` decimals. -/
def scaled (coeff : Nat) (places : Nat) : Amount :=
  (Amount.ofScaled? (Int64.ofNat coeff) places).getD Amount.zero

/-- A whole amount. -/
def whole (n : Nat) : Amount := scaled n 0

def sampleQuote : Quote where
  sharePrice := scaled 10136 4
  depositCap := whole 1000000
  capUsed := whole 200000
  minDeposit := whole 10
  walletBalance := whole 12450
  userShares := scaled 1228347 2

def sampleAllocations : List Allocation :=
  [⟨"Aave V3", whole 32, whole 1340000, scaled 68 1, some "0xaaaa...bbbb"⟩,
   ⟨"Morpho Blue", whole 45, whole 1890000, scaled 82 1, some "0xcccc...dddd"⟩,
   ⟨"Aerodrome", whole 18, whole 630000, scaled 75 1, some "0xeeee...ffff"⟩,
   ⟨"Idle Buffer", whole 5, whole 340000, Amount.zero, none⟩]

def sampleStats : Stats where
  tvl := whole 2100000
  netApy := scaled 84 1
  depositors := 312
  yieldPaid := whole 180000
  vaultAddress := some "0x1234...5678"
  allocations := sampleAllocations
  earnings := (Date.of? 2026 1 12).map fun day => ⟨scaled 16420 2, scaled 132 2, day⟩

def sampleSnapshot : Snapshot := ⟨sampleQuote, sampleStats⟩

end YieldVault.Simulation
