import YieldVault.Session.Flow

/-!
# Desks

A desk is a session with the flows that are under way in it. Whatever happens at a desk is a
sequence of steps: an operation that ends at once, the start of a flow, a signal to a waiting one, or
something that a watcher does. Between two steps every flow waits.
-/

namespace YieldVault

/-- The number of a flow, in the order of starting. -/
abbrev FlowId := Nat

/-- What starts a flow. -/
inductive Errand where
  | connect
  | refresh
  | submit (kind : Kind)
  deriving DecidableEq

/-- An operation that ends at once. -/
inductive Action where
  | cancelConnect
  | acknowledgeConnection
  | disconnect
  | refreshQuote (quote : Quote)
  | setInput (kind : Kind) (raw : String)
  | beginInput (kind : Kind) (raw : String)
  | completeInput (ticket : Ticket)
  | fillMax (kind : Kind)
  | cancel (kind : Kind)
  | acknowledge (kind : Kind)
  deriving DecidableEq

/-- What an operation answers. -/
inductive Answer where
  | flag (b : Bool)
  | result (r : Except Fault Unit)
  | verdict (v : Option Verdict)
  | ticket (t : Ticket)

def Session.act (s : Session) : Action → Session × Answer
  | .cancelConnect => s.cancelConnect.map id .flag
  | .acknowledgeConnection => s.acknowledgeConnection.map id .result
  | .disconnect => s.disconnect.map id .result
  | .refreshQuote quote => (s.refreshQuote quote).map id .result
  | .setInput kind raw => (s.setInput kind raw).map id fun v => .verdict (some v)
  | .beginInput kind raw => (s.beginInput kind raw).map id .ticket
  | .completeInput ticket => (s.completeInput ticket).map id .verdict
  | .fillMax kind => (s.fillMax kind).map id fun v => .verdict (some v)
  | .cancel kind => (s.cancel kind).map id .flag
  | .acknowledge kind => (s.acknowledge kind).map id .result

/-- What those who watch a session can do. -/
inductive Watch where
  | openEvents
  | dropEvents (receiver : Nat)
  | closeEvents
  | observe
  deriving DecidableEq

def Session.watch (s : Session) : Watch → Session
  | .openEvents => s.openEvents.1
  | .dropEvents i => s.dropEvents i
  | .closeEvents => s.closeEvents
  | .observe => s.observe

def Session.start (s : Session) : Errand → Session × Progress
  | .connect => s.connect
  | .refresh => s.refresh
  | .submit kind => s.submit kind

structure Desk where
  session : Session
  /-- The waiting flows, in the order of starting. -/
  flows : List (FlowId × Flow)
  /-- How many flows were started. -/
  started : Nat
  /-- The calls made so far, oldest first. -/
  calls : List Call
  /-- What the ended flows came to, in the order of ending. -/
  outcomes : List (FlowId × Outcome)

namespace Desk

def ofSession (s : Session) : Desk := ⟨s, [], 0, [], []⟩

def flow? (d : Desk) (i : FlowId) : Option Flow := d.flows.lookup i

def outcome? (d : Desk) (i : FlowId) : Option Outcome := d.outcomes.lookup i

/-- The flow `i` is where a segment has left it. -/
def put (d : Desk) (i : FlowId) : Progress → Desk
  | .unmoved => d
  | .waiting f =>
    { d with
      flows := if d.flows.any (·.1 == i) then d.flows.map (fun p => if p.1 = i then (i, f) else p)
        else d.flows ++ [(i, f)]
      calls := d.calls ++ [f.call d.session.settings.chain] }
  | .ended o => { d with flows := d.flows.filter (·.1 != i), outcomes := d.outcomes ++ [(i, o)] }

/-- A new flow runs its first segment. -/
def start (d : Desk) (e : Errand) : Desk :=
  let (s, progress) := d.session.start e
  { d with session := s, started := d.started + 1 }.put d.started progress

/-- The flow `i` runs a segment; nothing happens if there is none. -/
def wake (d : Desk) (i : FlowId) (signal : Signal) (now : Moment) : Desk :=
  match d.flow? i with
  | none => d
  | some f =>
    let (s, progress) := d.session.resume f signal now
    { d with session := s }.put i progress

def act (d : Desk) (a : Action) : Desk × Answer :=
  let (s, answer) := d.session.act a
  ({ d with session := s }, answer)

/-! ## Runs -/

/-- Whatever can happen at a desk. -/
inductive Step where
  | act (a : Action)
  | start (e : Errand)
  | wake (i : FlowId) (signal : Signal) (now : Moment)
  | watch (w : Watch)

def step (d : Desk) : Step → Desk
  | .act a => (d.act a).1
  | .start e => d.start e
  | .wake i signal now => d.wake i signal now
  | .watch w => { d with session := d.session.watch w }

def run (d : Desk) (steps : List Step) : Desk := steps.foldl step d

end Desk

end YieldVault
