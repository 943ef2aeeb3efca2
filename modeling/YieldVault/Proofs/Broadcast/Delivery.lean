import Mathlib.Data.List.Basic
import YieldVault.Broadcast
import YieldVault.Session.Event

/-!
# Delivery

Receivers are opened and dropped, take what they have got, and lists of events are published, in any order and
with closings in between. A mailbox changes by what concerns its own receiver and by nothing else, so its
content is known from the acts since its receiver was opened: what was taken and what is still there are the
events published since, up to the first closing.
-/

namespace YieldVault

namespace Broadcast

variable {ε : Type}

/-- What can be done with a broadcast. -/
inductive Act (ε : Type) where
  | subscribe
  | drop (i : Nat)
  | receive (i : Nat)
  /-- All receivers take all they have. -/
  | receiveAll
  | publish (events : List ε)
  | close
  deriving DecidableEq

def perform (b : Broadcast ε) : Act ε → Broadcast ε
  | .subscribe => b.subscribe.2
  | .drop i => b.drop i
  | .receive i => (b.receive i).2
  | .receiveAll => b.empty
  | .publish events => events.foldl publish b
  | .close => b.close

/-- What the receiver `i` gets by an act. -/
def gets (b : Broadcast ε) (i : Nat) : Act ε → List ε
  | .receive j => if j = i then (b.receive j).1.toList else []
  | .receiveAll => (b.mailboxes[i]?).elim [] (·.queue)
  | _ => []

def run (b : Broadcast ε) (acts : List (Act ε)) : Broadcast ε := acts.foldl perform b

/-- What the receiver `i` gets by all the acts. -/
def received (b : Broadcast ε) (i : Nat) : List (Act ε) → List ε
  | [] => []
  | act :: acts => b.gets i act ++ (b.perform act).received i acts

/-! ## Histories -/

namespace Act

def opens : Act ε → Bool
  | subscribe => true
  | _ => false

def closes : Act ε → Bool
  | close => true
  | _ => false

def drops (i : Nat) : Act ε → Bool
  | drop j => j == i
  | _ => false

def events : Act ε → List ε
  | publish events => events
  | _ => []

end Act

/-- The acts since the receiver `i` was opened. Receivers have the numbers of their openings, from zero on. -/
def sinceOpening (i : Nat) : List (Act ε) → Option (List (Act ε))
  | [] => none
  | act :: acts =>
    if act.opens then
      match i with
      | 0 => some acts
      | i + 1 => sinceOpening i acts
    else sinceOpening i acts

/-- The events published before the first closing. -/
def published (acts : List (Act ε)) : List ε := (acts.takeWhile (!·.closes)).flatMap Act.events

/-- The receiver `i` exists and was opened after the last closing. -/
def isCurrent (acts : List (Act ε)) (i : Nat) : Bool :=
  (sinceOpening i acts).any fun later => later.all fun act => !act.closes && !act.drops i

end Broadcast

/-! ## One mailbox -/

namespace Mailbox

open Broadcast (Act published)

variable {ε : Type} {m : Mailbox ε} {i : Nat}

def fresh : Mailbox ε := ⟨[], true, true⟩

/-- The broadcast delivers to it, and someone is there to take it. -/
def serves (m : Mailbox ε) : Bool := m.fed && m.live

/-- What an act is to the mailbox of the receiver `i`. -/
def perform (i : Nat) (m : Mailbox ε) : Act ε → Mailbox ε
  | .subscribe => m
  | .drop j => if j = i then { m with live := false, queue := [] } else m
  | .receive j => if j = i then { m with queue := m.queue.tail } else m
  | .receiveAll => { m with queue := [] }
  | .publish events => events.foldl (fun m e => m.deliver e) m
  | .close => { m with fed := false }

def gets (i : Nat) (m : Mailbox ε) : Act ε → List ε
  | .receive j => if j = i then m.queue.head?.toList else []
  | .receiveAll => m.queue
  | _ => []

def run (i : Nat) (m : Mailbox ε) (acts : List (Act ε)) : Mailbox ε := acts.foldl (perform i) m

def received (i : Nat) (m : Mailbox ε) : List (Act ε) → List ε
  | [] => []
  | act :: acts => m.gets i act ++ (m.perform i act).received i acts

theorem foldl_deliver (m : Mailbox ε) (es : List ε) : es.foldl (fun m e => m.deliver e) m =
    { m with
      queue := if m.serves then m.queue ++ es else m.queue
      fed := m.fed && (m.live || es.isEmpty) } := by
  induction es generalizing m with
  | nil => cases h : m.serves <;> simp
  | cons e es ih =>
    obtain ⟨queue, fed, live⟩ := m
    rw [List.foldl_cons, ih]
    cases fed <;> cases live <;> simp [deliver, serves]

theorem serves_perform (i : Nat) (m : Mailbox ε) (act : Act ε) :
    (m.perform i act).serves = (m.serves && (!act.closes && !act.drops i)) := by
  cases act with
  | drop j =>
    by_cases h : j = i <;> simp [perform, serves, Act.closes, Act.drops, h]
  | receive j =>
    by_cases h : j = i <;> simp [perform, serves, Act.closes, Act.drops, h]
  | publish events =>
    rw [perform, foldl_deliver]
    cases h : m.live <;> simp [serves, Act.closes, Act.drops, h]
  | subscribe => simp [perform, Act.closes, Act.drops]
  | receiveAll => simp [perform, serves, Act.closes, Act.drops]
  | close => simp [perform, serves, Act.closes]

theorem serves_run (i : Nat) (m : Mailbox ε) (acts : List (Act ε)) :
    (m.run i acts).serves = (m.serves && acts.all fun act => !act.closes && !act.drops i) := by
  induction acts generalizing m with
  | nil => simp [run]
  | cons act acts ih =>
    have h := ih (m.perform i act)
    rw [serves_perform, Bool.and_assoc] at h
    exact h

theorem live_perform {act : Act ε} (h : act.drops i = false) : (m.perform i act).live = m.live := by
  cases act with
  | drop j =>
    have hj : ¬ j = i := by simpa [Act.drops] using h
    simp [perform, hj]
  | receive j =>
    by_cases hj : j = i <;> simp [perform, hj]
  | publish events => simp [perform, foldl_deliver]
  | subscribe => rfl
  | receiveAll => rfl
  | close => rfl

/-- Nothing gets lost, and what is new comes last. -/
theorem gets_append_queue (live : m.live = true) {act : Act ε} (h : act.drops i = false) :
    m.gets i act ++ (m.perform i act).queue = m.queue ++ if m.fed then act.events else [] := by
  cases act with
  | drop j =>
    have hj : ¬ j = i := by simpa [Act.drops] using h
    simp [gets, perform, hj, Act.events]
  | receive j =>
    by_cases hj : j = i
    · cases hq : m.queue <;> simp [gets, perform, hj, hq, Act.events]
    · simp [gets, perform, hj, Act.events]
  | publish events =>
    rw [perform, foldl_deliver]
    cases hf : m.fed <;> simp [gets, serves, live, hf, Act.events]
  | subscribe => simp [gets, perform, Act.events]
  | receiveAll => simp [gets, perform, Act.events]
  | close => simp [gets, perform, Act.events]

theorem fed_perform (live : m.live = true) {act : Act ε} (h : act.drops i = false) :
    (m.perform i act).fed = (m.fed && !act.closes) := by
  have hs := serves_perform i m act
  simpa [serves, live_perform h, live, h] using hs

theorem live_run {acts : List (Act ε)} (h : ∀ act ∈ acts, act.drops i = false) :
    (m.run i acts).live = m.live := by
  induction acts generalizing m with
  | nil => rfl
  | cons act acts ih =>
    rw [List.forall_mem_cons] at h
    exact (ih h.2).trans (live_perform h.1)

theorem received_append_queue (live : m.live = true) {acts : List (Act ε)}
    (h : ∀ act ∈ acts, act.drops i = false) :
    m.received i acts ++ (m.run i acts).queue = m.queue ++ if m.fed then published acts else [] := by
  induction acts generalizing m with
  | nil => simp [received, run, published]
  | cons act acts ih =>
    rw [List.forall_mem_cons] at h
    have hrest := ih ((live_perform h.1).trans live) h.2
    calc m.received i (act :: acts) ++ (m.run i (act :: acts)).queue
        = m.gets i act ++ ((m.perform i act).received i acts ++ ((m.perform i act).run i acts).queue) :=
          List.append_assoc ..
      _ = m.queue ++ (if m.fed then act.events else []) ++
            if (m.perform i act).fed then published acts else [] := by
        rw [hrest, ← List.append_assoc, gets_append_queue live h.1]
      _ = m.queue ++ if m.fed then published (act :: acts) else [] := by
        rw [fed_perform live h.1, List.append_assoc]
        -- after a closing nothing counts as published
        cases m.fed with
        | false => simp
        | true => cases act <;> simp [published, Act.closes, Act.events]

end Mailbox

/-! ## All mailboxes -/

namespace Broadcast

variable {ε : Type} {b : Broadcast ε} {i : Nat}

theorem mailboxes_publishAll (b : Broadcast ε) (es : List ε) :
    (es.foldl publish b).mailboxes = b.mailboxes.map fun m => es.foldl (fun m e => m.deliver e) m := by
  induction es generalizing b with
  | nil => simp
  | cons e es ih => simp [ih, publish]

/-- The mailboxes that are there change each by itself, and a new one may come behind them. -/
theorem mailboxes_perform (b : Broadcast ε) (act : Act ε) :
    (b.perform act).mailboxes =
      b.mailboxes.mapIdx (fun i m => m.perform i act) ++ if act.opens then [Mailbox.fresh] else [] := by
  apply List.ext_getElem?
  intro i
  cases act with
  | subscribe =>
    have same : b.mailboxes.mapIdx (fun _ m => m) = b.mailboxes := by
      apply List.ext_getElem?
      simp
    simp [perform, subscribe, Mailbox.perform, Act.opens, Mailbox.fresh, same]
  | drop j => by_cases h : j = i <;> simp [perform, drop, Mailbox.perform, Act.opens, h]
  | receive j => by_cases h : j = i <;> simp [perform, receive, Mailbox.perform, Act.opens, h]
  | receiveAll => simp [perform, empty, Mailbox.perform, Act.opens]
  | publish events => simp [perform, mailboxes_publishAll, Mailbox.perform, Act.opens]
  | close => simp [perform, close, Mailbox.perform, Act.opens]

theorem length_perform (b : Broadcast ε) (act : Act ε) :
    (b.perform act).mailboxes.length = b.mailboxes.length + if act.opens then 1 else 0 := by
  rw [mailboxes_perform]
  cases act.opens <;> simp

theorem length_run (b : Broadcast ε) (acts : List (Act ε)) :
    (b.run acts).mailboxes.length = b.mailboxes.length + acts.countP Act.opens := by
  induction acts generalizing b with
  | nil => rfl
  | cons act acts ih =>
    show ((b.perform act).run acts).mailboxes.length = _
    rw [ih, length_perform, List.countP_cons]
    omega

theorem gets_eq (b : Broadcast ε) (i : Nat) (act : Act ε) :
    b.gets i act = (b.mailboxes[i]?).elim [] (·.gets i act) := by
  cases act with
  | receive j =>
    by_cases h : j = i
    · cases hm : b.mailboxes[i]? <;> simp [gets, receive, Mailbox.gets, h, hm]
    · cases b.mailboxes[i]? <;> simp [gets, Mailbox.gets, h]
  | receiveAll => rfl
  | _ => cases b.mailboxes[i]? <;> rfl

/-- What becomes of a mailbox hangs on the mailbox and its own receiver alone. -/
theorem run_of_getElem? {m : Mailbox ε} (h : b.mailboxes[i]? = some m) (acts : List (Act ε)) :
    (b.run acts).mailboxes[i]? = some (m.run i acts) ∧ b.received i acts = m.received i acts := by
  induction acts generalizing b m with
  | nil => exact ⟨h, rfl⟩
  | cons act acts ih =>
    have hi : i < b.mailboxes.length := (List.getElem?_eq_some_iff.mp h).1
    have hm : (b.perform act).mailboxes[i]? = some (m.perform i act) := by
      rw [mailboxes_perform, List.getElem?_append_left (by simpa using hi), List.getElem?_mapIdx, h]
      rfl
    have hg : b.gets i act = m.gets i act := by
      rw [gets_eq, h]
      rfl
    obtain ⟨hrun, hrec⟩ := ih hm
    refine ⟨hrun, ?_⟩
    rw [received, Mailbox.received, hg, hrec]

/-- A receiver that is opened on the way starts with an empty mailbox. -/
theorem run_of_later (b : Broadcast ε) (acts : List (Act ε)) (i : Nat) :
    (b.run acts).mailboxes[b.mailboxes.length + i]? =
        (sinceOpening i acts).map (Mailbox.fresh.run (b.mailboxes.length + i)) ∧
      b.received (b.mailboxes.length + i) acts =
        (sinceOpening i acts).elim [] (Mailbox.fresh.received (b.mailboxes.length + i)) := by
  induction acts generalizing b i with
  | nil => simp [run, received, sinceOpening]
  | cons act acts ih =>
    have hnone : b.gets (b.mailboxes.length + i) act = [] := by
      rw [gets_eq, List.getElem?_eq_none (by omega)]
      rfl
    have hlen := b.length_perform act
    rw [received, hnone, List.nil_append]
    show ((b.perform act).run acts).mailboxes[_]? = _ ∧ _
    unfold sinceOpening
    cases ho : act.opens with
    | false =>
      -- no receiver comes, so the numbers stay as they are
      rw [ho] at hlen
      have h := ih (b.perform act) i
      rw [hlen] at h
      exact h
    | true =>
      rw [ho] at hlen
      cases i with
      | zero =>
        -- the receiver comes with this act, and from now on its mailbox is on its own
        refine run_of_getElem? ?_ acts
        rw [mailboxes_perform, ho, List.getElem?_append_right (by simp)]
        simp
      | succ i =>
        have h := ih (b.perform act) i
        rw [hlen, if_pos rfl, Nat.add_right_comm] at h
        exact h

/-! ## From the beginning -/

variable (acts : List (Act ε))

theorem run_silent (i : Nat) :
    (silent.run acts).mailboxes[i]? = (sinceOpening i acts).map (Mailbox.fresh.run i) ∧
      silent.received i acts = (sinceOpening i acts).elim [] (Mailbox.fresh.received i) := by
  have h := run_of_later silent acts i
  rwa [show (silent : Broadcast ε).mailboxes.length = 0 from rfl, Nat.zero_add] at h

theorem any_serves_run_silent (i : Nat) :
    ((silent.run acts).mailboxes[i]?).any (·.serves) = isCurrent acts i := by
  rw [(run_silent acts i).1, isCurrent, Option.any_map]
  congr 1
  funext later
  exact Mailbox.serves_run i .fresh later

theorem subscribers_publishAll (b : Broadcast ε) {es : List ε} (h : es ≠ []) :
    (es.foldl publish b).subscribers = b.mailboxes.countP (·.serves) := by
  have he : es.isEmpty = false := by simpa using h
  have fed : ∀ m : Mailbox ε, (es.foldl (fun m e => m.deliver e) m).fed = m.serves := by
    intro m
    simp [Mailbox.foldl_deliver, Mailbox.serves, he]
  rw [subscribers, mailboxes_publishAll, List.countP_map]
  simp [Function.comp_def, fed]

theorem countP_eq_countP_range {α : Type} (p : α → Bool) (l : List α) :
    l.countP p = (List.range l.length).countP fun i => (l[i]?).any p := by
  have h : (List.range l.length).map (l[·]?) = l.map some := by
    apply List.ext_getElem?
    intro i
    by_cases hi : i < l.length <;> simp [hi]
  have hp : l.countP p = (l.map some).countP (·.any p) := by
    rw [List.countP_map]
    rfl
  rw [hp, ← h, List.countP_map]
  rfl

theorem sinceOpening_append (earlier : List (Act ε)) (i : Nat) :
    sinceOpening (earlier.countP Act.opens + i) (earlier ++ acts) = sinceOpening i acts := by
  induction earlier with
  | nil => simp
  | cons act earlier ih =>
    cases ho : act.opens with
    | false => simpa [sinceOpening, ho] using ih
    | true => simpa [sinceOpening, ho, Nat.add_right_comm _ 1] using ih

/-- A receiver has the number of its opening. What it has taken and has still to take are the events published
since then, up to the first closing. A publication leaves as many subscribers as there are receivers of the
time since the last closing, and is nothing to a receiver that is opened later. -/
theorem delivery_lossless :
    (silent.run acts).subscribe.1 = acts.countP Act.opens ∧
    (∀ i later, sinceOpening i acts = some later → (∀ act ∈ later, act.drops i = false) →
      ∃ m, (silent.run acts).mailboxes[i]? = some m ∧ m.live = true ∧
        silent.received i acts ++ m.queue = published later) ∧
    (∀ es, es ≠ [] → (silent.run (acts ++ [.publish es])).subscribers =
      (List.range (acts.countP Act.opens)).countP (isCurrent acts)) ∧
    ∀ es later i, acts.countP Act.opens ≤ i →
      (silent.run (acts ++ .publish es :: later)).mailboxes[i]? = (silent.run (acts ++ later)).mailboxes[i]? ∧
        silent.received i (acts ++ .publish es :: later) = silent.received i (acts ++ later) := by
  have hlen : (silent.run acts).mailboxes.length = acts.countP Act.opens := by
    rw [length_run]
    exact Nat.zero_add _
  refine ⟨hlen, fun i later hs stays => ⟨Mailbox.fresh.run i later, ?_, ?_, ?_⟩, fun es hes => ?_,
    fun es later i hi => ?_⟩
  · rw [(run_silent acts i).1, hs]
    rfl
  · exact Mailbox.live_run stays
  · rw [(run_silent acts i).2, hs]
    exact Mailbox.received_append_queue rfl stays
  · have hrun : silent.run (acts ++ [.publish es]) = es.foldl publish (silent.run acts) := by
      simp [run, perform]
    rw [hrun, subscribers_publishAll _ hes, countP_eq_countP_range, hlen]
    simp only [any_serves_run_silent]
  · obtain ⟨k, rfl⟩ := Nat.exists_eq_add_of_le hi
    have same : sinceOpening (acts.countP Act.opens + k) (acts ++ .publish es :: later) =
        sinceOpening (acts.countP Act.opens + k) (acts ++ later) := by
      rw [sinceOpening_append, sinceOpening_append]
      rfl
    obtain ⟨hm, hr⟩ := run_silent (acts ++ .publish es :: later) (acts.countP Act.opens + k)
    obtain ⟨hm', hr'⟩ := run_silent (acts ++ later) (acts.countP Act.opens + k)
    rw [hm, hr, hm', hr', same]
    exact ⟨rfl, rfl⟩

/-- The second of three receivers goes away, the third one takes half of what it gets before the closing, and
of two that come after it the last one goes away, which nobody notices yet. -/
def rush : List (Act Event) :=
  [.subscribe, .subscribe, .publish [.connection .disconnected], .subscribe, .drop 1,
    .publish [.connection .connecting, .connection .disconnected], .receive 2, .close,
    .publish [.connection .connecting], .subscribe, .subscribe, .drop 4]

theorem delivery_lossless_rush :
    (∃ m, (silent.run rush).mailboxes[2]? = some m ∧ silent.received 2 rush = [.connection .connecting] ∧
      silent.received 2 rush ++ m.queue = [.connection .connecting, .connection .disconnected]) ∧
    (silent.run rush).subscribers = 2 ∧
    (silent.run (rush ++ [.publish [.connection .connecting]])).subscribers = 1 ∧
    silent.received 5 (rush ++ [.publish [.connection .connecting], .subscribe, .receive 5]) = [] := by
  obtain ⟨-, delivered, counted, unseen⟩ := delivery_lossless rush
  obtain ⟨m, hm, -, hq⟩ := delivered 2 _ rfl (by decide)
  refine ⟨⟨m, hm, by decide, hq⟩, by decide, counted _ (by decide), ?_⟩
  exact (unseen [.connection .connecting] [.subscribe, .receive 5] 5 (by decide)).2.trans (by decide)

end Broadcast

end YieldVault
