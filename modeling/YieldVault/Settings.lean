import YieldVault.Environment

/-!
# Settings

The chain a session works on, its time limits and the delays of the simulated settlement, all in
milliseconds; and where logs go. They are read from variables and checked before a session starts.
-/

namespace YieldVault

/-- The chain of the vault. -/
structure Chain where
  id : Nat
  name : String
  rpcUrl : String
  explorerUrl : String
  symbol : String
  decimals : Nat
  deriving DecidableEq

namespace Chain

def base : Chain :=
  ⟨8453, "Base", "https://mainnet.base.org", "https://basescan.org", "ETH", 18⟩

/-- The chain number in the form that wallets take. -/
def hexId (chain : Chain) : String := "0x" ++ String.ofList (Text.hexDigits chain.id)

/-- The explorer's page for a transaction. -/
def transactionUrl (chain : Chain) (hash : String) : String :=
  String.ofList (chain.explorerUrl.toList.reverse.dropWhile (· == '/')).reverse ++ "/tx/" ++ hash

end Chain

structure Settings where
  chain : Chain
  connectLimit : Nat
  signatureLimit : Nat
  confirmationLimit : Nat
  signatureDelay : Nat
  confirmationDelay : Nat
  deriving DecidableEq

namespace Settings

def standard : Settings := ⟨Chain.base, 60000, 120000, 180000, 1500, 2000⟩

/-- Why settings are refused. -/
inductive Problem where
  | reading (p : Environment.Problem)
  | unnamedChain
  | zeroChain
  | zeroLimit (name : String)

def Problem.toFault : Problem → Fault
  | reading p => p.toFault
  | unnamedChain => .config "VAULT_CHAIN_NAME must not be empty"
  | zeroChain => .config "VAULT_CHAIN_ID must be non-zero"
  | zeroLimit name => .config (name ++ " must be greater than 0")

def limits (s : Settings) : List (String × Nat) :=
  [("VAULT_CONNECT_TIMEOUT_MS", s.connectLimit), ("VAULT_SIGNATURE_TIMEOUT_MS", s.signatureLimit),
   ("VAULT_CONFIRMATION_TIMEOUT_MS", s.confirmationLimit)]

/-- The first thing wrong with the settings. -/
def problem? (s : Settings) : Option Problem :=
  if (Text.trimChars s.chain.name.toList).isEmpty then some .unnamedChain
  else if s.chain.id = 0 then some .zeroChain
  else (s.limits.find? (·.2 == 0)).map fun (name, _) => .zeroLimit name

def validate (s : Settings) : Except Problem Settings :=
  match s.problem? with
  | some p => .error p
  | none => .ok s

/-- A number of milliseconds or a chain number from a variable. -/
def number (env : Environment) (name : String) (unset : Nat) : Except Problem Nat :=
  (env.parseOr Environment.word name unset).mapError .reading

/-- The settings that the variables give, before they are checked. -/
def read (env : Environment) : Except Problem Settings := do
  let id ← number env "VAULT_CHAIN_ID" standard.chain.id
  let chain : Chain := { standard.chain with
    id := id
    name := (env "VAULT_CHAIN_NAME").getD standard.chain.name
    rpcUrl := (env "VAULT_RPC_URL").getD standard.chain.rpcUrl
    explorerUrl := (env "VAULT_EXPLORER_URL").getD standard.chain.explorerUrl }
  return {
    chain := chain
    connectLimit := ← number env "VAULT_CONNECT_TIMEOUT_MS" standard.connectLimit
    signatureLimit := ← number env "VAULT_SIGNATURE_TIMEOUT_MS" standard.signatureLimit
    confirmationLimit := ← number env "VAULT_CONFIRMATION_TIMEOUT_MS" standard.confirmationLimit
    signatureDelay := ← number env "VAULT_SIM_SIGNATURE_DELAY_MS" standard.signatureDelay
    confirmationDelay := ← number env "VAULT_SIM_CONFIRMATION_DELAY_MS" standard.confirmationDelay }

def ofEnvironment (env : Environment) : Except Problem Settings := read env >>= validate

end Settings

/-- Where logs go and what they hold. -/
structure LogSettings where
  directory : String
  fileName : String
  filter : String
  console : Bool

namespace LogSettings

def standard : LogSettings := ⟨"logs", "vault-client.log", "vault_client=info,warn", true⟩

/-- A console flag that does not read counts as unset. -/
def ofEnvironment (env : Environment) : LogSettings where
  directory := (env "VAULT_LOG_DIR").getD standard.directory
  fileName := standard.fileName
  filter := (env "RUST_LOG").getD standard.filter
  console := (env.flag "VAULT_LOG_CONSOLE" standard.console).toOption.getD standard.console

def occurs (word : List Char) : List Char → Bool
  | [] => word.isEmpty
  | c :: rest => word.isPrefixOf (c :: rest) || occurs word rest

/-- The filter lets debugging lines through. -/
def debugging (s : LogSettings) : Bool :=
  occurs "debug".toList s.filter.toList || occurs "trace".toList s.filter.toList

end LogSettings

end YieldVault
