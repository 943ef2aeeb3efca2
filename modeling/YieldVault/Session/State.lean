import YieldVault.Session.Event

/-!
# The state of a session

A connection, the user's position and the vault's figures, and a form for each kind of action. A
form holds the typed text, its verdict and the slot of its actions; each change of the text has a
generation, and a verdict for an older generation is dropped. Operations give the events to publish.
-/

namespace YieldVault

structure Form where
  input : String
  generation : Nat
  verdict : Verdict
  slot : Slot
  deriving DecidableEq

def Form.empty (kind : Kind) : Form := ⟨"", 0, .silent, .empty kind⟩

/-- A change of input whose verdict is still to come. -/
structure Ticket where
  kind : Kind
  generation : Nat
  deriving DecidableEq

structure State where
  connection : Connection
  /-- Cancels the connection attempt that is under way. -/
  connectToken : Option Token
  /-- None before the first quote. -/
  position : Option Position
  stats : Stats
  deposit : Form
  withdraw : Form
  deriving DecidableEq

namespace State

def initial : State := ⟨.disconnected, none, none, .blank, .empty .deposit, .empty .withdraw⟩

def form (s : State) : Kind → Form
  | .deposit => s.deposit
  | .withdraw => s.withdraw

def withForm (s : State) (kind : Kind) (f : Form) : State :=
  match kind with
  | .deposit => { s with deposit := f }
  | .withdraw => { s with withdraw := f }

def phase (s : State) (kind : Kind) : Phase := (s.form kind).slot.phase

def withSlot (s : State) (kind : Kind) (slot : Slot) : State :=
  s.withForm kind { s.form kind with slot := slot }

/-! ## Input and verdicts -/

/-- The verdict on a text as things stand. -/
def verdictFor (s : State) (kind : Kind) (raw : String) : Verdict :=
  match s.position with
  | some p => Verdict.judge kind (Entry.ofText raw) p
  | none => .silent

def beginInput (s : State) (kind : Kind) (raw : String) : State × Ticket :=
  let f := s.form kind
  (s.withForm kind { f with input := raw, generation := f.generation + 1 }, ⟨kind, f.generation + 1⟩)

/-- The verdict for a ticket is stored unless the input has changed since. -/
def completeInput (s : State) (t : Ticket) : Option (State × Verdict) :=
  let f := s.form t.kind
  if f.generation = t.generation then
    let v := s.verdictFor t.kind f.input
    some (s.withForm t.kind { f with verdict := v }, v)
  else none

/-- The verdict on the current input, with an event if it shows something new. -/
def revalidate (s : State) (kind : Kind) : State × List Event :=
  let f := s.form kind
  let v := s.verdictFor kind f.input
  if f.verdict == v then (s, []) else (s.withForm kind { f with verdict := v }, [.verdict kind v])

def revalidateAll (s : State) : State × List Event :=
  let (s₁, e₁) := s.revalidate .deposit
  let (s₂, e₂) := s₁.revalidate .withdraw
  (s₂, e₁ ++ e₂)

/-- The text that asks for all there is: the wallet's balance, or the position cut to cents. -/
def maximum (s : State) (kind : Kind) : String :=
  match s.position, kind with
  | some p, .deposit => p.quote.walletBalance.display
  | some p, .withdraw => (p.userValue.truncate 2).display
  | none, _ => ""

/-! ## Quotes -/

def replaceQuote (s : State) (q : Quote) : Except Position.Refusal (State × List Event) := do
  let p ← Position.ofQuote q
  let (s', events) := { s with position := some p }.revalidateAll
  return (s', .quote q :: events)

def applySnapshot (s : State) (snapshot : Snapshot) : Except Position.Refusal (State × List Event) := do
  let (s', events) ← s.replaceQuote snapshot.quote
  if s'.stats == snapshot.stats then return (s', events)
  else return ({ s' with stats := snapshot.stats }, events ++ [.stats snapshot.stats])

/-! ## Settlement -/

/-- The receipt of a confirmed action and the position with it folded in. -/
def fold (s : State) (signed : Signed) (now : Moment) : Except Rejection (Receipt × Position) := do
  let amount ← signed.request.amount
  match s.position with
  | none => .error (.unknown "no vault quote loaded")
  | some p =>
    match p.sharesFor amount with
    | none => .error (.unknown "share amount out of range")
    | some shares =>
      let receipt := signed.receipt amount shares now
      return (receipt, ← p.apply receipt)

/-- What becomes of a confirmed action. -/
inductive Settlement where
  | settled (s : State) (events : List Event)
  /-- The position cannot take the action. -/
  | refused (reason : Rejection)
  /-- The slot does not wait for it. What was written before this came out stays. -/
  | stale (s : State)

/-- The confirmed action is folded into the position, its slot is settled and its form emptied. -/
def settle (s : State) (signed : Signed) (now : Moment) : Settlement :=
  let kind := signed.request.kind
  let slot := (s.form kind).slot
  if !slot.isCurrent signed.request.trace || !Slot.isSubmitted slot.phase then .stale s
  else
    match s.fold signed now with
    | .error reason => .refused reason
    | .ok (receipt, p) =>
      match slot.settle signed.request.trace receipt with
      | .error _ => .stale { s with position := some p }
      | .ok slot' =>
        let s₁ := { s with position := some p }.withSlot kind slot'
        let (s₂, ticket) := s₁.beginInput kind ""
        let (s₃, cleared) := match s₂.completeInput ticket with
          | some (s₃, v) => (s₃, [Event.verdict kind v])
          | none => (s₂, [])
        let (s₄, events) := s₃.revalidateAll
        .settled s₄ (.quote p.quote :: .phase kind (.settled receipt) :: cleared ++ events)

end State

end YieldVault
