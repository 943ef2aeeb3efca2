import YieldVault.Session.Authorization
import YieldVault.Session.Basic

/-!
# Flows

Connecting, reading the chain and submitting an action wait for others in between. Such a flow is
kept as what it waits for and what it will need then. A signal moves it on by one segment, in which
nothing else happens: the flow looks at its cancel token first, then at the answer or at the end of
its time. An answer to another question than the flow's own is not for it.
-/

namespace YieldVault

/-- A call to one of the session's collaborators. -/
inductive Call where
  | wallet (call : WalletCall)
  | snapshot (account : String)
  | signature (request : Request)
  | confirmation (signed : Signed)
  deriving DecidableEq

/-- The answer to a call. -/
inductive Reply where
  | wallet (reply : WalletReply)
  | snapshot (result : Except Fault Snapshot)
  | signature (result : Except Rejection Signed)
  | confirmation (result : Except Rejection Unit)

/-- What wakes a flow. -/
inductive Signal where
  | reply (r : Reply)
  | timeUp
  /-- Somebody had a look. Only a cancelled flow moves. -/
  | poke

/-- A flow between two segments. -/
inductive Flow where
  /-- The wallet's part of a connection attempt. -/
  | connecting (stage : Authorization) (token : Token)
  /-- The first reading of the chain, right after connecting. -/
  | reading (account : String)
  | refreshing (account : String)
  | signing (request : Request) (token : Token)
  | confirming (request : Request) (signed : Signed) (token : Token)
  deriving DecidableEq

namespace Flow

def call (chain : Chain) : Flow → Call
  | connecting stage _ => .wallet (stage.call chain)
  | reading account => .snapshot account
  | refreshing account => .snapshot account
  | signing request _ => .signature request
  | confirming _ signed _ => .confirmation signed

def token? : Flow → Option Token
  | connecting _ t => some t
  | signing _ t => some t
  | confirming _ _ t => some t
  | _ => none

/-- The most calls that the flow can still wait for. -/
def rank : Flow → Nat
  | connecting stage _ => stage.rank + 1
  | reading _ => 1
  | refreshing _ => 1
  | signing .. => 2
  | confirming .. => 1

end Flow

/-- What a submission came to. -/
inductive Submission where
  /-- Another action was in flight. -/
  | ignored
  | finished (phase : Phase)
  deriving DecidableEq

/-- What a flow comes to. -/
inductive Outcome where
  | connected (result : Except Fault Connection)
  | refreshed (result : Except Fault Unit)
  | submitted (result : Except Fault Submission)

/-- Where a segment leaves its flow. -/
inductive Progress where
  | waiting (flow : Flow)
  | ended (outcome : Outcome)
  /-- The signal was not for it. -/
  | unmoved

namespace Session

/-! ## Connecting -/

/-- The start of a connection attempt. -/
def connect (s : Session) : Session × Progress :=
  match s.state.connection.step .request with
  | .error refusal => (s, .ended (.connected (.error refusal.toFault)))
  | .ok c =>
    let (t, tokens) := s.tokens.issue
    let state := { s.state with connection := c, connectToken := some t }
    ({ s with tokens := tokens }.commit state [.connection c], .waiting (.connecting .askAccount t))

/-- The end of the wallet's part. A connected account is read from the chain at once. -/
def enter (s : Session) (move : Connection.Move) : Session × Progress :=
  let state := { s.state with connectToken := none }
  match state.connection.step move with
  | .error refusal => ({ s with state := state }, .ended (.connected (.error refusal.toFault)))
  | .ok c =>
    let s' := s.commit { state with connection := c } [.connection c]
    match c with
    | .connected account => (s', .waiting (.reading account))
    | _ => (s', .ended (.connected (.ok c)))

/-- A wait that took `limit` milliseconds or more. -/
def overdue (what : String) (limit : Nat) : String := what ++ Text.natText limit ++ "ms"

def resumeConnecting (s : Session) (stage : Authorization) (t : Token) (signal : Signal) :
    Session × Progress :=
  if s.tokens.isCancelled t then s.enter (.rejected .userRejected)
  else
    match signal with
    | .timeUp =>
      s.enter (.rejected (.unknown (overdue "wallet did not respond within " s.settings.connectLimit)))
    | .reply (.wallet r) =>
      match stage.step s.settings.chain r with
      | some (.ask next) => (s, .waiting (.connecting next t))
      | some (.granted account) => s.enter (.authorized account)
      | some (.denied failure) => s.enter (.rejected failure)
      | none => (s, .unmoved)
    | _ => (s, .unmoved)

/-! ## Reading the chain -/

/-- A snapshot read for `account` is taken if that account is still connected. -/
def takeSnapshot (s : Session) (account : String) (result : Except Fault Snapshot) :
    Session × Except Fault Unit :=
  match result with
  | .error e => (s, .error e)
  | .ok snapshot =>
    if s.state.connection.address? = some account then
      s.attempt Position.Refusal.toFault (s.state.applySnapshot snapshot)
    else (s, .error (.state ("account " ++ account ++ " is no longer connected")))

def notConnected : Fault := .state "wallet is not connected"

/-- The start of a refresh for the connected account. -/
def refresh (s : Session) : Session × Progress :=
  match s.state.connection.address? with
  | some account => (s, .waiting (.refreshing account))
  | none => (s, .ended (.refreshed (.error notConnected)))

/-! ## Actions -/

/-- The start of an action with the form's current input, judged by the position as it is now. -/
def submit (s : Session) (kind : Kind) : Session × Progress :=
  let f := s.state.form kind
  if f.slot.phase.inFlight then (s, .ended (.submitted (.ok .ignored)))
  else if !s.state.connection.isConnected then (s, .ended (.submitted (.error notConnected)))
  else
    let v := s.state.verdictFor kind f.input
    if !v.isValid then
      let why := if v.message.isEmpty then "enter an amount" else v.message
      (s, .ended (.submitted (.error (.validation why))))
    else
      let request : Request := ⟨kind, f.input, Entry.ofText f.input, .issued s.traces⟩
      match f.slot.begin request s.tokens with
      | none => (s, .ended (.submitted (.ok .ignored)))
      | some (slot, t, tokens) =>
        let s' := { s with tokens := tokens, traces := s.traces + 1 }
        (s'.commit (s.state.withSlot kind slot) [.phase kind .awaitingSignature],
          .waiting (.signing request t))

/-- The flow of an action ends with whatever phase its slot is in. -/
def finish (s : Session) (kind : Kind) : Session × Progress :=
  (s, .ended (.submitted (.ok (.finished (s.state.phase kind)))))

def rejectAction (s : Session) (request : Request) (reason : Rejection) : Session × Progress :=
  let slot := (s.state.form request.kind).slot
  match slot.reject request.trace reason with
  | .ok slot' =>
    (s.commit (s.state.withSlot request.kind slot') [.phase request.kind (.rejected reason)]).finish
      request.kind
  | .error _ => s.finish request.kind

/-- The wallet has signed and sent the action. -/
def signAction (s : Session) (request : Request) (signed : Signed) (t : Token) : Session × Progress :=
  let slot := (s.state.form request.kind).slot
  match slot.sign request.trace signed.reference with
  | .ok slot' =>
    (s.commit (s.state.withSlot request.kind slot') [.phase request.kind (.submitted signed.reference)],
      .waiting (.confirming request signed t))
  | .error _ => s.finish request.kind

/-- The action is final on the chain. -/
def settleAction (s : Session) (signed : Signed) (now : Moment) : Session × Progress :=
  match s.state.settle signed now with
  | .settled state events => (s.commit state events).finish signed.request.kind
  | .refused reason => s.rejectAction signed.request reason
  | .stale state => { s with state := state }.finish signed.request.kind

def resumeSigning (s : Session) (request : Request) (t : Token) (signal : Signal) : Session × Progress :=
  if s.tokens.isCancelled t then s.rejectAction request .userCancelled
  else
    match signal with
    | .timeUp =>
      s.rejectAction request (.networkError (overdue "signature timed out after " s.settings.signatureLimit))
    | .reply (.signature (.ok signed)) => s.signAction request signed t
    | .reply (.signature (.error reason)) => s.rejectAction request reason
    | _ => (s, .unmoved)

def resumeConfirming (s : Session) (request : Request) (signed : Signed) (t : Token) (signal : Signal)
    (now : Moment) : Session × Progress :=
  if s.tokens.isCancelled t then s.rejectAction request .userCancelled
  else
    match signal with
    | .timeUp =>
      s.rejectAction request
        (.networkError (overdue "confirmation timed out after " s.settings.confirmationLimit))
    | .reply (.confirmation (.ok _)) => s.settleAction signed now
    | .reply (.confirmation (.error reason)) => s.rejectAction request reason
    | _ => (s, .unmoved)

/-! ## One segment -/

/-- The segment that a signal at the moment `now` starts. -/
def resume (s : Session) (f : Flow) (signal : Signal) (now : Moment) : Session × Progress :=
  match f, signal with
  | .connecting stage t, _ => s.resumeConnecting stage t signal
  | .signing request t, _ => s.resumeSigning request t signal
  | .confirming request signed t, _ => s.resumeConfirming request signed t signal now
  | .reading account, .reply (.snapshot r) =>
    ((s.takeSnapshot account r).1, .ended (.connected (.ok (.connected account))))
  | .refreshing account, .reply (.snapshot r) =>
    let (s', result) := s.takeSnapshot account r
    (s', .ended (.refreshed result))
  | _, _ => (s, .unmoved)

end Session

end YieldVault
