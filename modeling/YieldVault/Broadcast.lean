/-!
# Broadcasts

Every receiver has a mailbox of its own and gets what is published after it was opened, in order.
Closing ends the supply of all mailboxes that are open at that time, without emptying them. A
dropped receiver stops counting as a subscriber with the next publication.
-/

namespace YieldVault

/-- A receiver's mailbox. -/
structure Mailbox (ε : Type) where
  /-- What was delivered and not yet taken. -/
  queue : List ε
  /-- The broadcast still delivers to it. -/
  fed : Bool
  /-- The receiver still exists. -/
  live : Bool
  deriving DecidableEq

namespace Mailbox

variable {ε : Type}

def deliver (e : ε) (m : Mailbox ε) : Mailbox ε :=
  if m.fed then (if m.live then { m with queue := m.queue ++ [e] } else { m with fed := false }) else m

/-- Nothing is left and nothing will come. -/
def isEnded (m : Mailbox ε) : Bool := !m.fed && m.queue.isEmpty

end Mailbox

/-- The mailboxes of all receivers, in the order in which they were opened. -/
structure Broadcast (ε : Type) where
  mailboxes : List (Mailbox ε)
  deriving DecidableEq

namespace Broadcast

variable {ε : Type}

def silent : Broadcast ε := ⟨[]⟩

/-- A new receiver, by its number. -/
def subscribe (b : Broadcast ε) : Nat × Broadcast ε :=
  (b.mailboxes.length, ⟨b.mailboxes ++ [⟨[], true, true⟩]⟩)

def publish (b : Broadcast ε) (e : ε) : Broadcast ε := ⟨b.mailboxes.map (·.deliver e)⟩

def close (b : Broadcast ε) : Broadcast ε := ⟨b.mailboxes.map fun m => { m with fed := false }⟩

/-- The receiver `i` goes away, and its mailbox with it. -/
def drop (b : Broadcast ε) (i : Nat) : Broadcast ε :=
  ⟨b.mailboxes.modify i fun m => { m with live := false, queue := [] }⟩

/-- The receiver `i` takes the oldest element. -/
def receive (b : Broadcast ε) (i : Nat) : Option ε × Broadcast ε :=
  ((b.mailboxes[i]?).bind (·.queue.head?), ⟨b.mailboxes.modify i fun m => { m with queue := m.queue.tail }⟩)

/-- All receivers take all they have. -/
def empty (b : Broadcast ε) : Broadcast ε := ⟨b.mailboxes.map fun m => { m with queue := [] }⟩

def subscribers (b : Broadcast ε) : Nat := b.mailboxes.countP (·.fed)

end Broadcast

end YieldVault
