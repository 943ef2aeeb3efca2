import Std.Time.DateTime.Timestamp
import YieldVault.Demo

/-!
# The command line

Shows the demo at its own pace, with the variables of the process, the time of day and random
transaction references.
-/

namespace YieldVault

/-- The variables that the demo reads. -/
def variableNames : List String :=
  ["VAULT_CHAIN_ID", "VAULT_CHAIN_NAME", "VAULT_RPC_URL", "VAULT_EXPLORER_URL", "VAULT_CONNECT_TIMEOUT_MS",
   "VAULT_SIGNATURE_TIMEOUT_MS", "VAULT_CONFIRMATION_TIMEOUT_MS", "VAULT_SIM_SIGNATURE_DELAY_MS",
   "VAULT_SIM_CONFIRMATION_DELAY_MS"]

def processEnvironment : IO Environment := do
  let entries ← variableNames.filterMapM fun name => do
    return (← IO.getEnv name).map (name, ·)
  return .ofList entries

/-- Thirty-two random bytes in hexadecimal. -/
def randomReference : IO String := do
  let digits ← (List.range 64).mapM fun _ => do
    return Text.hexDigits (← IO.rand 0 15)
  return "0x" ++ String.ofList digits.flatten

/-- Waits in stretches that a single sleep can take. -/
def pause (millis : Nat) : IO Unit := do
  for _ in [0 : millis / 1000000000] do
    IO.sleep 1000000000
  IO.sleep (millis % 1000000000).toUInt32

/-- Says everything at its instant, from the instant `now` on. -/
def replay (now : Nat) : List Utterance → IO Unit
  | [] => return ()
  | u :: rest => do
    if now < u.instant then pause (u.instant - now)
    IO.println u.text
    replay (max now u.instant) rest

end YieldVault

open YieldVault in
def main : IO UInt32 := do
  let env ← processEnvironment
  let references ← (List.range 2).mapM fun _ => randomReference
  let start ← Std.Time.Timestamp.now
  let epochMillis := start.toMillisecondsSinceUnixEpoch.val.toNat
  let (said, result) :=
    Demo.run env (fun n => references.getD (n - 1) "") fun t => Moment.epoch.later (epochMillis + t)
  replay 0 said
  match result with
  | .ok _ => return 0
  | .error e =>
    IO.eprintln ("Error: " ++ Demo.faultText e)
    return 1
