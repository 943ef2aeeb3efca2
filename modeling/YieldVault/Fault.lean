import YieldVault.Text.Numeral

/-!
# What can go wrong

Why a connection attempt fails, why an action is rejected, what a wallet answers instead of a
result, and what an entry point of a session returns instead of one. Each has a name for reports
(`tag`) and a line for logs (`describe`); the first two also have a message for people and a severity.
-/

namespace YieldVault

/-- How strongly a message is shown. -/
inductive Severity where
  | plain
  | warning
  | error
  deriving DecidableEq

/-- Why a connection attempt failed. -/
inductive ConnectFailure where
  | userRejected
  | noProvider
  | wrongNetwork (expected actual : Nat)
  | unknown (text : String)
  deriving DecidableEq

namespace ConnectFailure

def tag : ConnectFailure → String
  | userRejected => "UserRejected"
  | noProvider => "NoProvider"
  | wrongNetwork .. => "WrongNetwork"
  | unknown _ => "Unknown"

def describe : ConnectFailure → String
  | userRejected => "connection was cancelled"
  | noProvider => "no wallet provider detected"
  | wrongNetwork expected actual =>
    "wallet is on chain " ++ Text.natText actual ++ ", expected chain " ++ Text.natText expected
  | unknown text => "connection failed: " ++ text

def message : ConnectFailure → String
  | userRejected => "Connection was cancelled. Try again?"
  | noProvider => "No wallet detected. Please install a wallet and try again."
  | wrongNetwork .. => "Please switch your wallet to the supported network."
  | unknown _ => "Could not connect. Please try again."

def severity : ConnectFailure → Severity
  | userRejected => .warning
  | _ => .error

end ConnectFailure

/-- Why a submitted action ended without settling. -/
inductive Rejection where
  | userCancelled
  | insufficientFunds
  | networkError (text : String)
  | capExceeded
  | unknown (text : String)
  deriving DecidableEq

namespace Rejection

def tag : Rejection → String
  | userCancelled => "UserCancelled"
  | insufficientFunds => "InsufficientFunds"
  | networkError _ => "NetworkError"
  | capExceeded => "CapExceeded"
  | unknown _ => "Unknown"

def describe : Rejection → String
  | userCancelled => "transaction cancelled by user"
  | insufficientFunds => "insufficient funds"
  | networkError text => "network error: " ++ text
  | capExceeded => "deposit cap exceeded"
  | unknown text => "transaction failed: " ++ text

def message : Rejection → String
  | userCancelled => "Transaction cancelled."
  | insufficientFunds => "Insufficient funds to complete this transaction."
  | networkError _ => "Network error. The transaction was not confirmed."
  | capExceeded => "This transaction would exceed the vault cap."
  | unknown _ => "Transaction failed. Please try again."

def severity : Rejection → Severity
  | userCancelled => .warning
  | _ => .error

end Rejection

/-- What a wallet answers when it does not do what it was asked. -/
inductive WalletFailure where
  | userRejected
  | unrecognizedChain (chain : Nat)
  | unavailable
  | other (text : String)
  deriving DecidableEq

namespace WalletFailure

/-- The failure behind a wallet's error code: 4001 for a refusal by the user, 4902 for a chain that
the wallet does not know. -/
def ofCode (code : Int) (message : String) (chain : Nat) : WalletFailure :=
  if code = 4001 then userRejected
  else if code = 4902 then unrecognizedChain chain
  else other message

def tag : WalletFailure → String
  | userRejected => "UserRejected"
  | unrecognizedChain _ => "UnrecognizedChain"
  | unavailable => "Unavailable"
  | other _ => "Other"

def describe : WalletFailure → String
  | userRejected => "user rejected the request"
  | unrecognizedChain chain => "unrecognized chain " ++ Text.natText chain
  | unavailable => "provider unavailable"
  | other text => "provider error: " ++ text

/-- What the failure means for a connection attempt. -/
def toConnectFailure : WalletFailure → ConnectFailure
  | userRejected => .userRejected
  | unavailable => .noProvider
  | unrecognizedChain chain => .unknown ("chain " ++ Text.natText chain ++ " is not recognized by the wallet")
  | other text => .unknown text

end WalletFailure

/-- What an entry point returns when it refuses. -/
inductive Fault where
  | connection (failure : ConnectFailure)
  | lifecycle (rejection : Rejection)
  | state (text : String)
  | config (text : String)
  | chain (text : String)
  | validation (text : String)
  deriving DecidableEq

namespace Fault

def tag : Fault → String
  | connection _ => "Connection"
  | lifecycle _ => "Lifecycle"
  | state _ => "State"
  | config _ => "Config"
  | chain _ => "Chain"
  | validation _ => "Validation"

def describe : Fault → String
  | connection failure => "Connection error: " ++ failure.describe
  | lifecycle rejection => "Lifecycle error: " ++ rejection.describe
  | state text => "State error: " ++ text
  | config text => "Configuration error: " ++ text
  | chain text => "Chain error: " ++ text
  | validation text => "Validation error: " ++ text

end Fault

end YieldVault
