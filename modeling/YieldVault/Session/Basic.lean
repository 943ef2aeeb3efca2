import YieldVault.Broadcast
import YieldVault.Session.State
import YieldVault.Settings

/-!
# Sessions

A session owns the state, the cancel tokens and those who watch it: receivers of its broadcast and
observers that are called on the spot. The operations here end at once; each changes the state first
and publishes afterwards, so an observer sees the state that the event is about.
-/

namespace YieldVault

/-- A call of an observer: what was published, and what the observer then read from the session. -/
inductive Firing where
  | connection (published seen : Connection)
  | verdict (kind : Kind) (published : Verdict) (input : String)
  | phase (kind : Kind) (published seen : Phase)

/-- The call that an event makes. Quotes and figures make none. -/
def State.firing? (s : State) : Event → Option Firing
  | .connection c => some (.connection c s.connection)
  | .verdict kind v => some (.verdict kind v (s.form kind).input)
  | .phase kind p => some (.phase kind p (s.phase kind))
  | .quote _ => none
  | .stats _ => none

structure Session where
  settings : Settings
  state : State
  tokens : Tokens
  bus : Broadcast Event
  /-- How many observers there are. -/
  observers : Nat
  /-- The calls made so far, oldest first. -/
  firings : List Firing
  /-- How many trace ids were issued. -/
  traces : Nat

namespace Session

/-- A session with settings that were checked. -/
def open? (settings : Settings) : Except Settings.Problem Session := do
  let settings ← settings.validate
  return ⟨settings, .initial, .none, .silent, 0, [], 0⟩

/-! ## Watching -/

/-- Every observer is called, then every receiver gets the event. -/
def announce (s : Session) (e : Event) : Session :=
  { s with
    firings := s.firings ++ (List.replicate s.observers (s.state.firing? e)).filterMap (·)
    bus := s.bus.publish e }

def publish (s : Session) (events : List Event) : Session := events.foldl announce s

/-- A new state with its events. -/
def commit (s : Session) (state : State) (events : List Event) : Session :=
  { s with state := state }.publish events

/-- A new state with its events, or the reason why there is none. -/
def attempt {ρ : Type} (s : Session) (toFault : ρ → Fault) (r : Except ρ (State × List Event)) :
    Session × Except Fault Unit :=
  match r with
  | .ok (state, events) => (s.commit state events, .ok ())
  | .error e => (s, .error (toFault e))

/-- A receiver for all events from now on, by its number. -/
def openEvents (s : Session) : Session × Nat :=
  let (i, bus) := s.bus.subscribe
  ({ s with bus := bus }, i)

def dropEvents (s : Session) (i : Nat) : Session := { s with bus := s.bus.drop i }

def closeEvents (s : Session) : Session := { s with bus := s.bus.close }

def observe (s : Session) : Session := { s with observers := s.observers + 1 }

/-! ## Input -/

def beginInput (s : Session) (kind : Kind) (raw : String) : Session × Ticket :=
  let (state, ticket) := s.state.beginInput kind raw
  ({ s with state := state }, ticket)

/-- The verdict for a ticket, unless the input has changed since. -/
def completeInput (s : Session) (t : Ticket) : Session × Option Verdict :=
  match s.state.completeInput t with
  | some (state, v) => (s.commit state [.verdict t.kind v], some v)
  | none => (s, none)

def setInput (s : Session) (kind : Kind) (raw : String) : Session × Verdict :=
  let (s₁, ticket) := s.beginInput kind raw
  let (s₂, v) := s₁.completeInput ticket
  (s₂, v.getD .silent)

/-- The form is filled with the most it can take. -/
def fillMax (s : Session) (kind : Kind) : Session × Verdict := s.setInput kind (s.state.maximum kind)

/-! ## Connection and quote -/

/-- A move of the connection that the user makes. -/
def moveConnection (s : Session) (m : Connection.Move) : Session × Except Fault Unit :=
  s.attempt Connection.Refusal.toFault do
    let c ← s.state.connection.step m
    return ({ s.state with connection := c }, [.connection c])

def acknowledgeConnection (s : Session) : Session × Except Fault Unit := s.moveConnection .acknowledge

/-- The actions in flight are cancelled, deposits first. -/
def cancelActions (s : Session) : Session :=
  { s with tokens := Kind.all.foldl (fun ts kind => ((s.state.form kind).slot.cancel ts).1) s.tokens }

/-- The wallet is let go and the actions in flight are cancelled. -/
def disconnect (s : Session) : Session × Except Fault Unit :=
  match s.moveConnection .disconnect with
  | (s', .ok _) => (s'.cancelActions, .ok ())
  | r => r

/-- The connection attempt under way is cancelled. Tells whether there was one. -/
def cancelConnect (s : Session) : Session × Bool :=
  match s.state.connectToken, s.state.connection with
  | some t, .connecting => ({ s with tokens := s.tokens.cancel t }, true)
  | _, _ => (s, false)

def refreshQuote (s : Session) (q : Quote) : Session × Except Fault Unit :=
  s.attempt Position.Refusal.toFault (s.state.replaceQuote q)

/-! ## Actions -/

/-- The action in flight is cancelled. Tells whether there was one. -/
def cancel (s : Session) (kind : Kind) : Session × Bool :=
  let (tokens, found) := (s.state.form kind).slot.cancel s.tokens
  ({ s with tokens := tokens }, found)

/-- A finished action is put away. An idle slot stays as it is, without an event. -/
def acknowledge (s : Session) (kind : Kind) : Session × Except Fault Unit :=
  s.attempt Slot.Refusal.toFault do
    let slot := (s.state.form kind).slot
    let slot' ← slot.acknowledge
    return (s.state.withSlot kind slot', if slot.phase = .idle then [] else [.phase kind .idle])

end Session

end YieldVault
