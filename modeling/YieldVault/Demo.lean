import YieldVault.Caption
import YieldVault.Simulation.Run
import YieldVault.Vault.Wire

/-!
# The demo

A session against the sample wallet and vault: connect, deposit, withdraw, disconnect. The demo says
what it does, and a receiver of the session's events speaks whenever the demo waits. A signature and
a confirmation are waited for even if they are there at once. Everything said has its instant, so
that the demo can be shown at the pace at which it happens.
-/

namespace YieldVault

open Simulation

/-- Something said, at an instant of the clock. -/
structure Utterance where
  instant : Nat
  text : String

structure Demo where
  sim : Simulation
  /-- The number of the demo's receiver. -/
  receiver : Nat
  /-- What was said, latest first. -/
  said : List Utterance

namespace Demo

/-! ## Texts -/

/-- What the receiver says about an event. -/
def eventText? : Event → Option String
  | .connection c => some ("  ~ connection: " ++ c.name)
  | .phase kind p => some ("  ~ " ++ kind.label ++ ": " ++ p.name ++ " (" ++ p.label kind ++ ")")
  | .quote q => some ("  ~ quote: " ++ q.userShares.display ++ " shares")
  | .stats s => some ("  ~ stats: " ++ Text.natText s.depositors.toNat ++ " depositors")
  | .verdict .. => none

def padRight (n : Nat) (s : String) : String := String.ofList (s.toList.rightpad n ' ')

def padLeft (n : Nat) (s : String) : String := String.ofList (s.toList.leftpad n ' ')

def infoTexts (stats : Stats) : List String :=
  let info := Panel.info stats
  ["", "[vault] TVL " ++ info.tvl ++ " | APY " ++ info.apy ++ " | " ++ info.depositors ++ " depositors | " ++
      info.yieldPaid ++ " yield paid"] ++
    info.vaultAddress.toList.map ("[vault] contract " ++ ·) ++
    info.allocation.map fun i =>
      "[vault]   " ++ padRight 12 i.name ++ " " ++ padLeft 4 i.pct ++ " " ++ padLeft 7 i.balance ++
        " APY " ++ i.apy

/-- What an account earned, and since when. -/
def earningsText? (p : Panel.Portfolio) : Option String := do
  return "[portfolio] " ++ (← p.earned) ++ " " ++ (← p.since)

def panelTexts (s : State) : List String :=
  match s.position with
  | none => ["[vault] no quote yet"]
  | some p =>
    let deposit := Panel.deposit p s.stats
    let portfolio := Panel.portfolio p s.stats
    let withdraw := Panel.withdraw p
    ["", "[deposit] " ++ deposit.walletBalance,
      "[deposit] " ++ deposit.sharePrice ++ " | APY " ++ deposit.apy,
      "[deposit] " ++ deposit.capInfo,
      "[portfolio] " ++ portfolio.value ++ " | " ++ portfolio.shares ++ " | share of TVL " ++
        portfolio.shareOfTvl] ++
    (earningsText? portfolio).toList ++
    ["[withdraw] " ++ withdraw.available ++ " " ++ withdraw.breakdown]

/-- What is said about a typed amount. -/
def verdictTexts (kind : Kind) (raw : String) (v : Verdict) : List String :=
  let caption := Caption.ofPreview kind v.preview?
  let own := ("[" ++ kind.label ++ "] " ++ ·)
  ["", own (raw ++ " USDC -> " ++ caption.shares)] ++
    caption.received.toList.map (fun r => own ("receive " ++ r)) ++
    (if v.message.isEmpty then [] else [own v.message])

/-- What is said about a finished action. -/
def phaseTexts (chain : Chain) (kind : Kind) (p : Phase) : List String :=
  let notice := match Notice.ofPhase? chain kind p with
    | some n => [n.title, n.detail] ++ n.url.toList
    | none => []
  let receipt := match p with
    | .settled r => ["receipt " ++ r.toJson.render]
    | _ => []
  (notice ++ receipt).map ("[" ++ kind.label ++ "] " ++ ·)

/-! ## Speaking and waiting -/

def state (d : Demo) : State := d.sim.desk.session.state

def say (d : Demo) (texts : List String) : Demo :=
  { d with said := (texts.map fun t => ⟨d.sim.clock, t⟩).reverse ++ d.said }

def sayLabel (d : Demo) : Demo := d.say ["[wallet] " ++ d.state.connection.label]

def withSession (d : Demo) (f : Session → Session) : Demo :=
  { d with sim := { d.sim with desk := { d.sim.desk with session := f d.sim.desk.session } } }

/-- The receiver says all it has got. -/
def listen (d : Demo) : Demo :=
  let bus := d.sim.desk.session.bus
  let events := (bus.mailboxes[d.receiver]?).elim [] (·.queue)
  (d.say (events.filterMap eventText?)).withSession fun s => { s with bus := bus.empty }

/-- The demo pauses for the flow `i`: it is an action under way, or nothing can happen at this instant. -/
def pauses (d : Demo) (i : FlowId) : Bool :=
  match d.sim.desk.flow? i with
  | some (.signing ..) => true
  | some (.confirming ..) => true
  | _ => (d.sim.step? (some d.sim.clock)).isNone

/-- Steps until the flow `i` has ended, but no more than a given number. The receiver speaks in the pauses. -/
def awaitSteps (i : FlowId) : Nat → Demo → Demo
  | 0, d => d
  | n + 1, d =>
    if (d.sim.desk.outcome? i).isSome then d
    else
      let d := if d.pauses i then d.listen else d
      match d.sim.step? none with
      | some sim => awaitSteps i n { d with sim := sim }
      | none => d

/-- An errand from its start to its end. -/
def perform (d : Demo) (e : Errand) : Demo × Option Outcome :=
  let (sim, i) := d.sim.start e
  let d := awaitSteps i sim.rank { d with sim := sim }
  (d, d.sim.desk.outcome? i)

def act (d : Demo) (a : Action) : Demo × Answer :=
  let (sim, answer) := d.sim.act a
  ({ d with sim := sim }, answer)

/-! ## The demo itself -/

/-- How a demo ends: whatever was said stays said. -/
abbrev Play (α : Type) := ExceptT Fault (StateM Demo) α

def Play.change (f : Demo → Demo) : Play Unit := modify f

def Play.act (a : Action) : Play Answer := modifyGet fun d => (d.act a).swap

def Play.perform (e : Errand) : Play (Option Outcome) := modifyGet fun d => (d.perform e).swap

/-- The fault of an answer ends the play. -/
def Play.accept : Answer → Play Unit
  | .result (.error e) => throw e
  | _ => return ()

/-- An action of `kind` on the typed amount `raw`, from its verdict to its notice. -/
def playAction (kind : Kind) (raw : String) : Play Unit := do
  if let .verdict (some v) ← Play.act (.setInput kind raw) then
    Play.change (·.say (verdictTexts kind raw v))
  match ← Play.perform (.submit kind) with
  | some (.submitted (.error e)) => throw e
  | some (.submitted (.ok .ignored)) => Play.change (·.say ["[" ++ kind.label ++ "] already in flight"])
  | some (.submitted (.ok (.finished p))) =>
    Play.change fun d => d.say (phaseTexts d.sim.settings.chain kind p)
    Play.accept (← Play.act (.acknowledge kind))
  | _ => return ()

def sayPanels (d : Demo) : Demo := d.say (panelTexts d.state)

/-- All of it. A wallet that does not connect ends the demo early. -/
def play : Play Unit := do
  Play.change sayLabel
  match ← Play.perform .connect with
  | some (.connected (.error e)) => throw e
  | some (.connected (.ok (.failed reason))) => Play.change (·.say [reason.message])
  | _ =>
    Play.change sayLabel
    Play.change fun d => d.say (infoTexts d.state.stats)
    Play.change sayPanels
    playAction .deposit "500"
    Play.change sayPanels
    playAction .withdraw "100"
    Play.change sayPanels
    Play.accept (← Play.act .disconnect)
    Play.change sayLabel
    Play.change (·.withSession Session.closeEvents)
    Play.change listen

/-- The demo with the settings that the variables give: what it says, oldest first, and how it ends.
`reference` names its transactions and `moment` tells the time. -/
def run (env : Environment) (reference : Nat → String) (moment : Nat → Moment) :
    List Utterance × Except Fault Unit :=
  let opened : Except Settings.Problem (Settings × Session) := do
    let s ← Settings.ofEnvironment env
    return (s, ← Session.open? s)
  match opened with
  | .error e => ([], .error e.toFault)
  | .ok (s, session) =>
    let world : World := ⟨.simulated .sample, .fixed (some sampleSnapshot),
      .simulated s.signatureDelay s.confirmationDelay none none, reference, 0⟩
    let (session, receiver) := session.openEvents
    let (result, d) := play.run ⟨.ofSession session world moment, receiver, []⟩
    (d.said.reverse, result)

/-! ## The last words -/

def connectFailureText (e : ConnectFailure) : String :=
  e.tag ++ match e with
    | .wrongNetwork expected actual =>
      " \x7b expected: " ++ Text.natText expected ++ ", actual: " ++ Text.natText actual ++ " \x7d"
    | .unknown t => "(" ++ Text.quoted t ++ ")"
    | _ => ""

def rejectionText (e : Rejection) : String :=
  e.tag ++ match e with
    | .networkError t => "(" ++ Text.quoted t ++ ")"
    | .unknown t => "(" ++ Text.quoted t ++ ")"
    | _ => ""

/-- How the fault that ends the demo is reported: its name and, in brackets, all it carries. -/
def faultText (e : Fault) : String :=
  let inner := match e with
    | .connection failure => connectFailureText failure
    | .lifecycle rejection => rejectionText rejection
    | .state t => Text.quoted t
    | .config t => Text.quoted t
    | .chain t => Text.quoted t
    | .validation t => Text.quoted t
  e.tag ++ "(" ++ inner ++ ")"

end Demo

end YieldVault
