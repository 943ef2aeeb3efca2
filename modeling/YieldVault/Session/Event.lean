import YieldVault.Connection
import YieldVault.Lifecycle
import YieldVault.Verdict

/-!
# Events of a session

Every change that someone who shows the session has to know.
-/

namespace YieldVault

inductive Event where
  | connection (state : Connection)
  | quote (quote : Quote)
  | stats (stats : Stats)
  | verdict (kind : Kind) (verdict : Verdict)
  | phase (kind : Kind) (phase : Phase)
  deriving DecidableEq

end YieldVault
