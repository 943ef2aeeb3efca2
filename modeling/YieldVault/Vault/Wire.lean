import YieldVault.Amount.Wire
import YieldVault.Json.Reader
import YieldVault.Json.Record
import YieldVault.Vault.Snapshot

/-!
# Vault records as JSON

Amounts travel as decimal strings, dates and moments as texts. Every record is written as an object
with its fields in order, and read as `Json.record?` says.
-/

namespace YieldVault

open Json

def Amount.toJson (a : Amount) : Json := ofString a.wire

def Amount.ofJson (j : Json) : Option Amount := j.text?.bind Amount.ofWire

def Kind.toJson (k : Kind) : Json := ofString k.word

/-- The word for the kind, alone or as the name of an object's only member, which is null. -/
def Kind.ofJson : Json → Option Kind
  | .text (some s) => Kind.ofWord? s
  | .object [(some s, .null)] => Kind.ofWord? s
  | _ => none

def Date.toJson (t : Date) : Json := ofString t.toText

def Date.ofJson (j : Json) : Option Date := j.text?.bind Date.ofText

def Moment.toJson (t : Moment) : Json := ofString t.toZulu

def Moment.ofJson (j : Json) : Option Moment := j.text?.bind Moment.ofLoose

namespace Quote

def fieldNames : List String :=
  ["share_price", "deposit_cap", "deposit_cap_used", "min_deposit", "wallet_balance", "user_shares"]

def toJson (q : Quote) : Json :=
  ofMembers (fieldNames.zip
    [q.sharePrice.toJson, q.depositCap.toJson, q.capUsed.toJson, q.minDeposit.toJson, q.walletBalance.toJson,
     q.userShares.toJson])

def ofJson (j : Json) : Option Quote := do
  match (← j.record? fieldNames).held with
  | [price, cap, used, least, wallet, shares] =>
    return ⟨← need Amount.ofJson price, ← need Amount.ofJson cap, ← need Amount.ofJson used,
      ← need Amount.ofJson least, ← need Amount.ofJson wallet, ← need Amount.ofJson shares⟩
  | _ => none

end Quote

namespace Allocation

def fieldNames : List String := ["name", "pct", "balance", "apy", "address"]

def toJson (a : Allocation) : Json :=
  ofMembers (fieldNames.zip
    [ofString a.name, a.pct.toJson, a.balance.toJson, a.apy.toJson, ofOption ofString a.address])

/-- The address may be left out of an object, not of an array. -/
def ofJson (j : Json) : Option Allocation := do
  let r ← j.record? fieldNames
  match r.held with
  | [name, pct, balance, apy, address] =>
    let read := nullable Json.text?
    return ⟨← need Json.text? name, ← need Amount.ofJson pct, ← need Amount.ofJson balance,
      ← need Amount.ofJson apy, ← if r.positional then need read address else orElse read none address⟩
  | _ => none

end Allocation

namespace Earnings

def fieldNames : List String := ["earned", "earned_pct", "first_deposit"]

def toJson (e : Earnings) : Json :=
  ofMembers (fieldNames.zip [e.earned.toJson, e.earnedPct.toJson, e.firstDeposit.toJson])

def ofJson (j : Json) : Option Earnings := do
  match (← j.record? fieldNames).held with
  | [earned, pct, first] =>
    return ⟨← need Amount.ofJson earned, ← need Amount.ofJson pct, ← need Date.ofJson first⟩
  | _ => none

end Earnings

namespace Stats

def fieldNames : List String :=
  ["tvl", "net_apy", "depositors", "yield_paid", "vault_address", "allocations", "earnings"]

def toJson (s : Stats) : Json :=
  ofMembers (fieldNames.zip
    [s.tvl.toJson, s.netApy.toJson, ofNat s.depositors.toNat, s.yieldPaid.toJson,
     ofOption ofString s.vaultAddress, .array (s.allocations.map Allocation.toJson),
     ofOption Earnings.toJson s.earnings])

/-- The last three fields may be left out. -/
def ofJson (j : Json) : Option Stats := do
  match (← j.record? fieldNames).held with
  | [tvl, apy, depositors, paid, address, allocations, earnings] =>
    return ⟨← need Amount.ofJson tvl, ← need Amount.ofJson apy, ← need count? depositors,
      ← need Amount.ofJson paid, ← orElse (nullable Json.text?) none address,
      ← orElse (list? Allocation.ofJson) [] allocations, ← orElse (nullable Earnings.ofJson) none earnings⟩
  | _ => none

end Stats

namespace Snapshot

def fieldNames : List String := ["quote", "stats"]

def toJson (s : Snapshot) : Json := ofMembers (fieldNames.zip [s.quote.toJson, s.stats.toJson])

def ofJson (j : Json) : Option Snapshot := do
  match (← j.record? fieldNames).held with
  | [quote, stats] => return ⟨← need Quote.ofJson quote, ← need Stats.ofJson stats⟩
  | _ => none

/-- The snapshot that a JSON text writes. -/
def ofText (s : String) : Option Snapshot := (Json.ofText s).bind ofJson

def toText (s : Snapshot) : String := s.toJson.render

end Snapshot

namespace Receipt

def fieldNames : List String := ["kind", "amount", "shares", "reference", "settled_at"]

def toJson (r : Receipt) : Json :=
  ofMembers (fieldNames.zip
    [r.kind.toJson, r.amount.toJson, r.shares.toJson, ofString r.reference, r.settledAt.toJson])

def ofJson (j : Json) : Option Receipt := do
  match (← j.record? fieldNames).held with
  | [kind, amount, shares, reference, settled] =>
    return ⟨← need Kind.ofJson kind, ← need Amount.ofJson amount, ← need Amount.ofJson shares,
      ← need Json.text? reference, ← need Moment.ofJson settled⟩
  | _ => none

end Receipt

end YieldVault
