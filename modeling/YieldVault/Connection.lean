import YieldVault.Fault
import YieldVault.Text.Blank

/-!
# The wallet connection

A connection is asked for, then authorized or rejected; a failure is acknowledged or asked again,
and a connected wallet can be disconnected. Every other move is refused.
-/

namespace YieldVault

inductive Connection where
  | disconnected
  | connecting
  | connected (address : String)
  | failed (reason : ConnectFailure)
  deriving DecidableEq

namespace Connection

def name : Connection → String
  | disconnected => "disconnected"
  | connecting => "connecting"
  | connected _ => "connected"
  | failed _ => "failed"

def address? : Connection → Option String
  | connected address => some address
  | _ => none

def isConnected (c : Connection) : Bool := c.address?.isSome

/-- What can happen to a connection. -/
inductive Move where
  | request
  | authorized (address : String)
  | rejected (reason : ConnectFailure)
  | acknowledge
  | disconnect
  deriving DecidableEq

def Move.name : Move → String
  | request => "request"
  | authorized _ => "authorized"
  | rejected _ => "rejected"
  | acknowledge => "acknowledge"
  | disconnect => "disconnect"

/-- A move that the state does not allow. -/
structure Refusal where
  move : Move
  state : Connection
  deriving DecidableEq

def Refusal.toFault (r : Refusal) : Fault := .state ("cannot " ++ r.move.name ++ " while " ++ r.state.name)

/-- What an authorization leads to. A blank account is none. -/
def ofAccount (address : String) : Connection :=
  if (Text.trimChars address.toList).isEmpty then failed (.unknown "wallet returned no account")
  else connected address

def step (c : Connection) (m : Move) : Except Refusal Connection :=
  match c, m with
  | disconnected, .request => .ok connecting
  | failed _, .request => .ok connecting
  | connecting, .authorized address => .ok (ofAccount address)
  | connecting, .rejected reason => .ok (failed reason)
  | failed _, .acknowledge => .ok disconnected
  | connected _, .disconnect => .ok disconnected
  | _, _ => .error ⟨m, c⟩

end Connection

end YieldVault
