/-!
# Guarded waits

A wait ends with the step it waits for, with a cancellation or when its time is up. Whoever looks
sees a cancellation first and the step before the limit, so a step due exactly at its limit still
completes. Instants are whole milliseconds, and no wait is longer than thirty years.
-/

namespace YieldVault

/-- The instant at which the step completes and, if there is one, the instant at which time is up. -/
structure Wait where
  due : Nat
  limit : Option Nat
  deriving DecidableEq

namespace Wait

/-- The longest wait, thirty years. -/
def horizon : Nat := 946080000000

/-- The end of a wait of `millis` milliseconds that starts at `now`. -/
def after (now millis : Nat) : Nat := now + min millis horizon

/-- The wait that starts at `now` for a step of some milliseconds, within a limit if there is one. -/
def starting (now step : Nat) (limit : Option Nat) : Wait := ⟨after now step, limit.map (after now)⟩

inductive End where
  | completed
  | cancelled
  | timedOut
  deriving DecidableEq

/-- The instant at which the wait ends if nobody cancels it. -/
def wake (w : Wait) : Nat :=
  match w.limit with
  | some l => min w.due l
  | none => w.due

/-- What a look at instant `now` finds; nothing while the wait goes on. -/
def look (w : Wait) (now : Nat) (cancelled : Bool) : Option End :=
  if cancelled then some .cancelled
  else if w.due ≤ now then some .completed
  else if w.limit.any (· ≤ now) then some .timedOut
  else none

/-- How and when the wait ends if it is cancelled at the given instant. -/
def run (w : Wait) (cancelAt : Option Nat) : End × Nat :=
  match cancelAt with
  | some c => if c ≤ w.wake then (.cancelled, c) else ((w.look w.wake false).getD .completed, w.wake)
  | none => ((w.look w.wake false).getD .completed, w.wake)

end Wait

end YieldVault
