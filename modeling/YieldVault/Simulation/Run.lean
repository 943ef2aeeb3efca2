import YieldVault.Session.Desk
import YieldVault.Simulation.World
import YieldVault.Wait

/-!
# Simulated runs

A desk and the world around it on a clock that counts milliseconds and moves only when every flow
waits. At each step one wait ends: first those of cancelled flows, in the order of cancellation,
then the one that is due first. A connection attempt has one time limit for all that it asks of the
wallet, a signature and a confirmation have one each, and a read of the chain has none.
-/

namespace YieldVault

open Simulation

/-- A flow that waits for an answer. -/
structure Waiting where
  flow : FlowId
  wait : Wait
  promise : Promise

structure Simulation where
  desk : Desk
  world : World
  clock : Nat
  waits : List Waiting
  /-- The moment of an instant of the clock. -/
  moment : Nat → Moment

namespace Simulation

def settings (s : Simulation) : Settings := s.desk.session.settings

/-- A session with the world around it, before anything happens. -/
def ofSession (session : Session) (world : World) (moment : Nat → Moment) : Simulation :=
  ⟨.ofSession session, world, 0, [], moment⟩

/-! ## Flows -/

/-- The limit of a flow that starts to wait now, when its last wait had the limit `before`. -/
def limitFor (s : Simulation) (before : Option Nat) : Flow → Option Nat
  | .connecting .. => some (before.getD (Wait.after s.clock s.settings.connectLimit))
  | .signing .. => some (Wait.after s.clock s.settings.signatureLimit)
  | .confirming .. => some (Wait.after s.clock s.settings.confirmationLimit)
  | .reading _ => none
  | .refreshing _ => none

/-- The call of the flow `i` goes out, if it waits. -/
def ask (s : Simulation) (i : FlowId) (before : Option Nat) : Simulation :=
  match s.desk.flow? i with
  | none => s
  | some f =>
    let (t, world) := s.world.ask (f.call s.settings.chain)
    { s with
      world := world
      waits := s.waits ++ [⟨i, ⟨Wait.after s.clock t.delay, s.limitFor before f⟩, t.answer⟩] }

/-- A new flow, by its number. -/
def start (s : Simulation) (e : Errand) : Simulation × FlowId :=
  let i := s.desk.started
  ({ s with desk := s.desk.start e }.ask i none, i)

def act (s : Simulation) (a : Action) : Simulation × Answer :=
  let (desk, answer) := s.desk.act a
  ({ s with desk := desk }, answer)

/-- What the end of a wait tells its flow. -/
def signal (s : Simulation) (w : Waiting) : Wait.End → Signal × World
  | .completed => (s.world.deliver w.promise).map .reply id
  | .timedOut => (.timeUp, s.world)
  | .cancelled => (.poke, s.world)

/-- The wait `w` is over, and its flow goes on. -/
def finishWait (s : Simulation) (w : Waiting) (e : Wait.End) : Simulation :=
  let (signal, world) := s.signal w e
  { s with
    world := world
    waits := s.waits.filter (·.flow != w.flow)
    desk := s.desk.wake w.flow signal (s.moment s.clock) }.ask w.flow w.wait.limit

/-! ## Steps -/

/-- The wait of the flow that the token `t` cancels. -/
def waitOf? (s : Simulation) (t : Token) : Option Waiting :=
  s.waits.find? fun w => (s.desk.flow? w.flow).bind Flow.token? == some t

/-- The wait of a cancelled flow. -/
def cancelled? (s : Simulation) : Option Waiting := s.desk.session.tokens.cancelled.findSome? s.waitOf?

/-- The wait that is over first. -/
def earliest? : List Waiting → Option Waiting
  | [] => none
  | w :: ws =>
    match earliest? ws with
    | none => some w
    | some v => if v.wait.wake < w.wait.wake then some v else some w

/-- One wait ends, not later than `bound`. -/
def step? (s : Simulation) (bound : Option Nat) : Option Simulation :=
  match s.cancelled? with
  | some w => some (s.finishWait w .cancelled)
  | none =>
    match earliest? s.waits with
    | none => none
    | some w =>
      let now := max s.clock w.wait.wake
      if bound.all (now ≤ ·) then
        (w.wait.look now false).map ({ s with clock := now }.finishWait w)
      else none

/-- The most steps that can follow. -/
def rank (s : Simulation) : Nat := s.desk.flows.foldl (fun n p => n + p.2.rank) 0

/-- Steps until `stop`, until `bound` or until nothing waits, but no more than a given number. -/
def steps (bound : Option Nat) (stop : Simulation → Bool) : Nat → Simulation → Simulation
  | 0, s => s
  | n + 1, s =>
    if stop s then s
    else
      match s.step? bound with
      | some s' => steps bound stop n s'
      | none => s

def run (s : Simulation) (bound : Option Nat) (stop : Simulation → Bool) : Simulation :=
  steps bound stop s.rank s

/-- All that can happen at this instant happens. -/
def settle (s : Simulation) : Simulation := s.run (some s.clock) fun _ => false

/-- Time passes until the instant `t`. -/
def advance (s : Simulation) (t : Nat) : Simulation := { s.run (some t) fun _ => false with clock := t }

/-- Time passes. -/
def sleep (s : Simulation) (millis : Nat) : Simulation := s.advance (Wait.after s.clock millis)

/-- Time passes until the flow `i` has ended. -/
def await (s : Simulation) (i : FlowId) : Simulation :=
  (s.run none fun s => (s.desk.outcome? i).isSome).settle

/-- Time passes until no flow waits. -/
def drain (s : Simulation) : Simulation := s.run none fun _ => false

end Simulation

end YieldVault
