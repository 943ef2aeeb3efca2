import YieldVault.Connection
import YieldVault.Lifecycle
import YieldVault.Panel
import YieldVault.Settings
import YieldVault.Verdict

/-!
# Captions

The texts that follow the state of a form: its preview, the labels of the buttons and the notice
about a finished action.
-/

namespace YieldVault

/-! ## Previews -/

/-- The preview under an input. Only a withdrawal says what is received. -/
structure Caption where
  shares : String
  received : Option String
  deriving DecidableEq

/-- A preview of the form's own kind is shown; anything else leaves dashes. -/
def Caption.ofPreview (kind : Kind) (preview : Option Preview) : Caption :=
  match kind, preview with
  | .deposit, some (.deposit shares) => ⟨"~" ++ Panel.shares shares, none⟩
  | .withdraw, some (.withdraw burned received) =>
    ⟨"~" ++ Panel.shares burned, some ("~" ++ Panel.asset received)⟩
  | .deposit, _ => ⟨"--", none⟩
  | .withdraw, _ => ⟨"--", some "--"⟩

/-! ## Buttons -/

/-- The label of the wallet button. -/
def Connection.label : Connection → String
  | connected address => Figure.shortAddress address
  | connecting => "Connecting..."
  | _ => "Connect Wallet"

/-- The label of the button that submits an action of `kind`. -/
def Phase.label (kind : Kind) : Phase → String
  | awaitingSignature => "Confirm in wallet..."
  | submitted _ => kind.pendingLabel
  | _ => kind.label

/-! ## Notices -/

/-- The notice about a finished action. -/
structure Notice where
  success : Bool
  severity : Severity
  title : String
  detail : String
  /-- The explorer's page for a settled action. -/
  url : Option String
  deriving DecidableEq

/-- What a receipt tells. Its own kind decides the words. -/
def Notice.ofReceipt (chain : Chain) (r : Receipt) : Notice :=
  let (title, detail) := match r.kind with
    | .deposit =>
      ("Deposited " ++ Panel.asset r.amount ++ " successfully", "You received " ++ Panel.shares r.shares)
    | .withdraw => ("Withdrew " ++ Panel.asset r.amount, Panel.shares r.shares ++ " burned")
  ⟨true, .plain, title, detail, some (chain.transactionUrl r.reference)⟩

/-- The notice about the action in the slot of `kind`, once it is over. -/
def Notice.ofPhase? (chain : Chain) (kind : Kind) : Phase → Option Notice
  | .settled receipt => some (ofReceipt chain receipt)
  | .rejected reason => some ⟨false, reason.severity, kind.label ++ " failed", reason.message, none⟩
  | _ => none

end YieldVault
