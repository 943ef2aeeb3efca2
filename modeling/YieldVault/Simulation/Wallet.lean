import YieldVault.Session.Authorization
import YieldVault.Simulation.Sample
import YieldVault.Simulation.Script

/-!
# Wallets

A wallet that keeps an account and the chains it knows, and a wallet that follows a script.
-/

namespace YieldVault.Simulation

structure Wallet where
  account : String
  /-- The chain it is on. -/
  current : Nat
  known : List Nat
  /-- What it says instead of its account. -/
  accountFailure : Option WalletFailure
  refusesSwitch : Bool
  /-- How long it takes to give its account. -/
  delay : Nat

namespace Wallet

def sample : Wallet := ⟨sampleAccount, Chain.base.id, [1, Chain.base.id], none, false, 0⟩

/-- The wallet without the vault's usual chain. -/
def forgetBase (w : Wallet) : Wallet := { w with known := w.known.filter (· != Chain.base.id) }

/-- A wallet is on a chain right after adding it. -/
def answer (w : Wallet) : WalletCall → WalletReply × Wallet
  | .accounts => (.account (w.accountFailure.elim (.ok w.account) .error), w)
  | .chainId => (.chainId (.ok w.current), w)
  | .switchChain id =>
    if w.refusesSwitch then (.done (.error .userRejected), w)
    else if w.known.contains id then (.done (.ok ()), { w with current := id })
    else (.done (.error (.unrecognizedChain id)), w)
  | .addChain chain => (.done (.ok ()), { w with known := w.known ++ [chain.id], current := chain.id })

def delayFor (w : Wallet) : WalletCall → Nat
  | .accounts => w.delay
  | _ => 0

end Wallet

/-- A wallet that gives set answers and remembers nothing else. -/
structure ScriptedWallet where
  accounts : Script (Except WalletFailure String)
  chainIds : Script (Except WalletFailure Nat)
  switches : Script (Except WalletFailure Unit)
  adds : Script (Except WalletFailure Unit)

def ScriptedWallet.answer (w : ScriptedWallet) : WalletCall → Timed WalletReply × ScriptedWallet
  | .accounts => let (t, s) := w.accounts.take; (t.map .account, { w with accounts := s })
  | .chainId => let (t, s) := w.chainIds.take; (t.map .chainId, { w with chainIds := s })
  | .switchChain _ => let (t, s) := w.switches.take; (t.map .done, { w with switches := s })
  | .addChain _ => let (t, s) := w.adds.take; (t.map .done, { w with adds := s })

/-- Either kind of wallet. -/
inductive Provider where
  | simulated (w : Wallet)
  | scripted (w : ScriptedWallet)

def Provider.answer (p : Provider) (c : WalletCall) : Timed WalletReply × Provider :=
  match p with
  | simulated w => let (r, w') := w.answer c; (⟨w.delayFor c, r⟩, simulated w')
  | scripted w => (w.answer c).map id scripted

end YieldVault.Simulation
