import YieldVault.Entry
import YieldVault.Fault
import YieldVault.Text.Quoted
import YieldVault.Token
import YieldVault.Trace
import YieldVault.Vault.Snapshot

/-!
# The life of an action

An action waits for a signature, then for its confirmation, and ends settled or rejected. Each kind
of action has a slot that holds at most one action in flight, with the token that cancels it. Moves
of an action that is no longer the slot's own are refused.
-/

namespace YieldVault

inductive Phase where
  | idle
  | awaitingSignature
  | submitted (reference : String)
  | settled (receipt : Receipt)
  | rejected (reason : Rejection)
  deriving DecidableEq

namespace Phase

def inFlight : Phase → Bool
  | awaitingSignature => true
  | submitted _ => true
  | _ => false

def isTerminal : Phase → Bool
  | settled _ => true
  | rejected _ => true
  | _ => false

def name : Phase → String
  | idle => "idle"
  | awaitingSignature => "awaiting_signature"
  | submitted _ => "submitted"
  | settled _ => "settled"
  | rejected _ => "rejected"

end Phase

/-- A submitted action: the typed text, what it was read as and the id that tells it from others. -/
structure Request where
  kind : Kind
  raw : String
  entry : Entry
  trace : TraceId
  deriving DecidableEq

/-- The amount to move, which has to be positive. -/
def Request.amount (r : Request) : Except Rejection Amount :=
  match r.entry.amount?.filter (·.isPositive) with
  | some amount => .ok amount
  | none => .error (.unknown ("unusable amount " ++ Text.quoted r.raw))

/-- A request that the wallet has signed and sent, under a transaction reference. -/
structure Signed where
  reference : String
  request : Request
  deriving DecidableEq

def Signed.receipt (s : Signed) (amount shares : Amount) (now : Moment) : Receipt :=
  ⟨s.request.kind, amount, shares, s.reference, now⟩

/-- The place of one kind of action. -/
structure Slot where
  kind : Kind
  phase : Phase
  request : Option Request
  token : Option Token
  deriving DecidableEq

namespace Slot

def empty (kind : Kind) : Slot := ⟨kind, .idle, none, none⟩

/-- Why a move is refused. -/
inductive Refusal where
  | notCurrent (trace : TraceId)
  | wrongPhase (move : String) (kind : Kind) (phase : Phase)
  deriving DecidableEq

def Refusal.toFault : Refusal → Fault
  | notCurrent trace => .state ("action " ++ trace.text ++ " is no longer current")
  | wrongPhase move kind phase =>
    .state ("cannot " ++ move ++ " a " ++ kind.label ++ " action while " ++ phase.name)

/-- The slot holds the action with this id. -/
def isCurrent (s : Slot) (trace : TraceId) : Bool := s.request.any (·.trace == trace)

/-- The slot if it holds the action and its phase allows the move. -/
def allow (s : Slot) (trace : TraceId) (move : String) (phases : Phase → Bool) : Except Refusal Slot :=
  if !s.isCurrent trace then .error (.notCurrent trace)
  else if !phases s.phase then .error (.wrongPhase move s.kind s.phase)
  else .ok s

/-- A new action with the token that cancels it; none while one is in flight. -/
def begin (s : Slot) (r : Request) (ts : Tokens) : Option (Slot × Token × Tokens) :=
  if s.phase.inFlight then none
  else
    let (t, ts') := ts.issue
    some ({ s with phase := .awaitingSignature, request := some r, token := some t }, t, ts')

def sign (s : Slot) (trace : TraceId) (reference : String) : Except Refusal Slot := do
  let s ← s.allow trace "signed" (· == .awaitingSignature)
  return { s with phase := .submitted reference }

def isSubmitted : Phase → Bool
  | .submitted _ => true
  | _ => false

def settle (s : Slot) (trace : TraceId) (receipt : Receipt) : Except Refusal Slot := do
  let s ← s.allow trace "settle" isSubmitted
  return { s with phase := .settled receipt, token := none }

def reject (s : Slot) (trace : TraceId) (reason : Rejection) : Except Refusal Slot := do
  let s ← s.allow trace "reject" Phase.inFlight
  return { s with phase := .rejected reason, token := none }

/-- Back to idle, unless an action is in flight. -/
def acknowledge (s : Slot) : Except Refusal Slot :=
  if s.phase.inFlight then .error (.wrongPhase "acknowledge" s.kind s.phase)
  else .ok { s with phase := .idle, request := none }

/-- The token of the action in flight. -/
def cancellable (s : Slot) : Option Token := if s.phase.inFlight then s.token else none

/-- The action in flight is cancelled. Tells whether there was one. -/
def cancel (s : Slot) (ts : Tokens) : Tokens × Bool :=
  match s.cancellable with
  | some t => (ts.cancel t, true)
  | none => (ts, false)

end Slot

end YieldVault
