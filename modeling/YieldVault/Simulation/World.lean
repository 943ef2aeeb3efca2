import YieldVault.Session.Flow
import YieldVault.Simulation.Wallet

/-!
# The world around a session

The wallet, the chain reader and the settlement service that answer a session's calls. An answer is
fixed when its call goes out, except for the reference of a simulated transaction: references
are numbered in the order in which signatures arrive.
-/

namespace YieldVault.Simulation

/-! ## The chain -/

/-- Who reads the chain: always the same snapshot, or none at all, or a script. -/
inductive Reader where
  | fixed (snapshot : Option Snapshot)
  | scripted (script : Script (Except Fault Snapshot))

namespace Reader

def answer : Reader → Timed (Except Fault Snapshot) × Reader
  | fixed (some s) => (⟨0, .ok s⟩, fixed (some s))
  | fixed none => (⟨0, .error (.chain "vault contract unreachable")⟩, fixed none)
  | scripted script => script.take.map id scripted

/-- The snapshot that is read from now on, unless a script says what is read. -/
def withSnapshot (s : Snapshot) : Reader → Reader
  | fixed _ => fixed (some s)
  | scripted script => scripted script

end Reader

/-! ## Settlement -/

/-- How a scripted wallet changes the request that it signs. -/
structure Alteration where
  reference : String
  kind : Option Kind
  raw : Option String
  /-- The amount becomes unreadable. -/
  spoiled : Bool
  trace : Option TraceId

namespace Alteration

def none : Alteration := ⟨"0xref", .none, .none, false, .none⟩

def sign (a : Alteration) (r : Request) : Signed where
  reference := a.reference
  request := {
    kind := a.kind.getD r.kind
    raw := a.raw.getD r.raw
    entry := if a.spoiled then .invalid else a.raw.elim r.entry Entry.ofText
    trace := a.trace.getD r.trace }

end Alteration

/-- What a call will be answered with. -/
inductive Promise where
  | reply (r : Reply)
  /-- A signature under the next free reference. -/
  | signature (request : Request)

/-- Who signs and confirms. -/
inductive Settlement where
  | simulated (signatureDelay confirmationDelay : Nat)
      (signatureFailure confirmationFailure : Option Rejection)
  | scripted (signatures : Script (Except Rejection Alteration))
      (confirmations : Script (Except Rejection Unit))

namespace Settlement

def sign (request : Request) : Settlement → Timed Promise × Settlement
  | simulated d d' e e' =>
    (⟨d, e.elim (.signature request) fun r => .reply (.signature (.error r))⟩, simulated d d' e e')
  | scripted signatures confirmations =>
    let (t, rest) := signatures.take
    (t.map fun a => .reply (.signature (a.map (·.sign request))), scripted rest confirmations)

def confirm : Settlement → Timed (Except Rejection Unit) × Settlement
  | simulated d d' e e' => (⟨d', e'.elim (.ok ()) .error⟩, simulated d d' e e')
  | scripted signatures confirmations => confirmations.take.map id (scripted signatures)

end Settlement

/-! ## All of them -/

structure World where
  provider : Provider
  reader : Reader
  settlement : Settlement
  /-- The transaction reference with a given number. -/
  reference : Nat → String
  /-- How many references are taken. -/
  signatures : Nat

namespace World

/-- A call goes out. -/
def ask (w : World) : Call → Timed Promise × World
  | .wallet c =>
    let (t, p) := w.provider.answer c
    (t.map fun r => .reply (.wallet r), { w with provider := p })
  | .snapshot _ =>
    let (t, r) := w.reader.answer
    (t.map fun s => .reply (.snapshot s), { w with reader := r })
  | .signature request =>
    let (t, s) := w.settlement.sign request
    (t, { w with settlement := s })
  | .confirmation _ =>
    let (t, s) := w.settlement.confirm
    (t.map fun r => .reply (.confirmation r), { w with settlement := s })

/-- The answer arrives. -/
def deliver (w : World) : Promise → Reply × World
  | .reply r => (r, w)
  | .signature request =>
    let n := w.signatures + 1
    (.signature (.ok ⟨w.reference n, request⟩), { w with signatures := n })

end World

end YieldVault.Simulation
