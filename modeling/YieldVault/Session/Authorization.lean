import YieldVault.Fault
import YieldVault.Settings

/-!
# Authorization

What a connection attempt asks of the wallet: its account, its chain and, when that is another one,
to switch to the session's chain. A wallet that does not know the chain is asked to add it and is
then looked at again.
-/

namespace YieldVault

/-- What a wallet can be asked. -/
inductive WalletCall where
  | accounts
  | chainId
  | switchChain (id : Nat)
  | addChain (chain : Chain)
  deriving DecidableEq

def WalletCall.name : WalletCall → String
  | accounts => "request_accounts"
  | chainId => "current_chain_id"
  | switchChain _ => "switch_chain"
  | addChain _ => "add_chain"

/-- What a wallet answers. -/
inductive WalletReply where
  | account (result : Except WalletFailure String)
  | chainId (result : Except WalletFailure Nat)
  | done (result : Except WalletFailure Unit)

/-- How far an authorization has come: what it knows and waits for. -/
inductive Authorization where
  | askAccount
  | askChain (account : String)
  | askSwitch (account : String) (current : Nat)
  | askAdd (account : String)
  | askAgain (account : String)
  deriving DecidableEq

namespace Authorization

def call (chain : Chain) : Authorization → WalletCall
  | askAccount => .accounts
  | askChain _ => .chainId
  | askSwitch .. => .switchChain chain.id
  | askAdd _ => .addChain chain
  | askAgain _ => .chainId

/-- What an answer leads to. -/
inductive Result where
  | ask (next : Authorization)
  | granted (account : String)
  | denied (failure : ConnectFailure)
  deriving DecidableEq

/-- What the answer to the current question leads to; none for an answer to another question. -/
def step (chain : Chain) : Authorization → WalletReply → Option Result
  | askAccount, .account (.ok account) => some (.ask (askChain account))
  | askAccount, .account (.error e) => some (.denied e.toConnectFailure)
  | askChain account, .chainId (.ok current) =>
    some (if current = chain.id then .granted account else .ask (askSwitch account current))
  | askChain _, .chainId (.error e) => some (.denied e.toConnectFailure)
  | askSwitch account _, .done (.ok _) => some (.granted account)
  | askSwitch account _, .done (.error (.unrecognizedChain _)) => some (.ask (askAdd account))
  | askSwitch _ _, .done (.error .unavailable) => some (.denied .noProvider)
  | askSwitch _ current, .done (.error _) => some (.denied (.wrongNetwork chain.id current))
  | askAdd account, .done (.ok _) => some (.ask (askAgain account))
  | askAdd _, .done (.error e) => some (.denied e.toConnectFailure)
  | askAgain account, .chainId (.ok now) =>
    some (if now = chain.id then .granted account else .denied (.wrongNetwork chain.id now))
  | askAgain _, .chainId (.error e) => some (.denied e.toConnectFailure)
  | _, _ => none

/-- The most answers that can still be asked for. -/
def rank : Authorization → Nat
  | askAccount => 5
  | askChain _ => 4
  | askSwitch .. => 3
  | askAdd _ => 2
  | askAgain _ => 1

end Authorization

end YieldVault
