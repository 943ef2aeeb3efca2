/-!
# Scripts

A script is a list of answers that are given one after the other; the last one is given again and
again. Each answer takes its time.
-/

namespace YieldVault.Simulation

/-- An answer that takes `delay` milliseconds. -/
structure Timed (α : Type) where
  delay : Nat
  answer : α

def Timed.map {α β : Type} (f : α → β) (t : Timed α) : Timed β := ⟨t.delay, f t.answer⟩

structure Script (α : Type) where
  next : Timed α
  later : List (Timed α)

namespace Script

variable {α : Type}

/-- The script with these answers, or always `usual` at once if there are none. -/
def ofList (usual : α) : List (Timed α) → Script α
  | [] => ⟨⟨0, usual⟩, []⟩
  | t :: ts => ⟨t, ts⟩

def take (s : Script α) : Timed α × Script α :=
  match s.later with
  | [] => (s.next, s)
  | t :: ts => (s.next, ⟨t, ts⟩)

end Script

end YieldVault.Simulation
