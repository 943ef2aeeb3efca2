import YieldVault.Proofs.Desk.Run

/-!
# Streams of events

A receiver that was open from the beginning knows the state between any two steps: the last event of
each sort is the value that the session holds, and where none has come the value is the first one.
-/

namespace YieldVault

/-! ## The last event of a sort -/

namespace Event

def connection? : Event → Option Connection
  | connection c => some c
  | _ => none

def quote? : Event → Option Quote
  | quote q => some q
  | _ => none

def stats? : Event → Option Stats
  | stats figures => some figures
  | _ => none

def verdict? (kind : Kind) : Event → Option Verdict
  | verdict k v => if k = kind then some v else none
  | _ => none

def phase? (kind : Kind) : Event → Option Phase
  | phase k p => if k = kind then some p else none
  | _ => none

end Event

/-- The last of the events of one sort. -/
def latest? {α : Type} (sort : Event → Option α) (events : List Event) : Option α :=
  (events.filterMap sort).getLast?

theorem latest?_append {α : Type} (sort : Event → Option α) (es es' : List Event) :
    latest? sort (es ++ es') = (latest? sort es').or (latest? sort es) := by
  rw [latest?, List.filterMap_append, List.getLast?_append]; rfl

/-! ## What a change tells -/

/-- The last events of `es` say what has become of `s`; where there is none, nothing has. -/
structure Told (s : State) (es : List Event) (s' : State) : Prop where
  connection : (latest? Event.connection? es).getD s.connection = s'.connection
  quote : (latest? Event.quote? es).or (s.position.map (·.quote)) = s'.position.map (·.quote)
  stats : (latest? Event.stats? es).getD s.stats = s'.stats
  verdict : ∀ k, (latest? (Event.verdict? k) es).getD (s.form k).verdict = (s'.form k).verdict
  phase : ∀ k, (latest? (Event.phase? k) es).getD (s.phase k) = s'.phase k

theorem Told.nil (s : State) : Told s [] s := ⟨rfl, rfl, rfl, fun _ => rfl, fun _ => rfl⟩

theorem Told.append {s s' s'' : State} {es es' : List Event} (h : Told s es s') (h' : Told s' es' s'') :
    Told s (es ++ es') s'' where
  connection := by rw [latest?_append, Option.getD_or, h.connection]; exact h'.connection
  quote := by rw [latest?_append, Option.or_assoc, h.quote]; exact h'.quote
  stats := by rw [latest?_append, Option.getD_or, h.stats]; exact h'.stats
  verdict k := by rw [latest?_append, Option.getD_or, h.verdict]; exact h'.verdict k
  phase k := by rw [latest?_append, Option.getD_or, h.phase]; exact h'.phase k

theorem State.Change.told {s s' : State} {es : List Event} (h : Change s es s') : Told s es s' := by
  -- each field is one equation between closed lists once the kinds are known
  cases h with
  | connection c t => exact ⟨rfl, rfl, rfl, fun k => by cases k <;> rfl, fun k => by cases k <;> rfl⟩
  | connectToken t => exact ⟨rfl, rfl, rfl, fun k => by cases k <;> rfl, fun k => by cases k <;> rfl⟩
  | input kind raw n =>
    cases kind <;> exact ⟨rfl, rfl, rfl, fun k => by cases k <;> rfl, fun k => by cases k <;> rfl⟩
  | verdict kind v =>
    cases kind <;> exact ⟨rfl, rfl, rfl, fun k => by cases k <;> rfl, fun k => by cases k <;> rfl⟩
  | quote p => exact ⟨rfl, rfl, rfl, fun k => by cases k <;> rfl, fun k => by cases k <;> rfl⟩
  | stats figures => exact ⟨rfl, rfl, rfl, fun k => by cases k <;> rfl, fun k => by cases k <;> rfl⟩
  | request kind =>
    cases kind <;> exact ⟨rfl, rfl, rfl, fun k => by cases k <;> rfl, fun k => by cases k <;> rfl⟩
  | slot kind slot _ =>
    cases kind <;> exact ⟨rfl, rfl, rfl, fun k => by cases k <;> rfl, fun k => by cases k <;> rfl⟩
  | settle kind slot r p p' _ hr _ _ =>
    rw [← hr]
    cases kind <;> exact ⟨rfl, rfl, rfl, fun k => by cases k <;> rfl, fun k => by cases k <;> rfl⟩

theorem State.Changes.told {s s' : State} {es : List Event} (h : Changes s es s') : Told s es s' := by
  induction h with
  | nil s => exact .nil s
  | cons hc _ ih => exact hc.told.append ih

/-! ## The state as it was told -/

/-- Whoever has got `events` since the beginning knows the state. -/
structure Shown (events : List Event) (s : State) : Prop where
  connection : (latest? Event.connection? events).getD .disconnected = s.connection
  quote : latest? Event.quote? events = s.position.map (·.quote)
  stats : (latest? Event.stats? events).getD .blank = s.stats
  verdict : ∀ k, (latest? (Event.verdict? k) events).getD .silent = (s.form k).verdict
  phase : ∀ k, (latest? (Event.phase? k) events).getD .idle = s.phase k

theorem Told.shown {events : List Event} {s : State} (h : Told .initial events s) : Shown events s where
  connection := h.connection
  quote := by rw [← h.quote]; exact Option.or_none.symm
  stats := h.stats
  verdict k := by rw [← h.verdict k]; cases k <;> rfl
  phase k := by rw [← h.phase k]; cases k <;> rfl

namespace Desk

/-- A desk with a receiver that is open before anything happens. -/
def watched (s : Session) : Desk := .ofSession s.openEvents.1

/-- What the receiver of a watched desk has got is what the changes since the beginning tell. -/
theorem watched_stream {settings : Settings} {s : Session} (hs : Session.open? settings = .ok s)
    {steps : List Step} (alone : ∀ step ∈ steps, step.Spares 0) :
    State.Changes .initial (((watched s).run steps).stream 0) ((watched s).run steps).session.state := by
  obtain ⟨hst, _, hb, _⟩ := Session.open?_eq hs
  have hf : (watched s).session.bus.Feeds 0 [] := by
    show s.bus.subscribe.2.Feeds 0 []
    rw [hb]; exact Broadcast.feeds_subscribe .silent
  have h := (watched s).run_tells steps
  rw [stream_of_feeds (h.feeds alone hf), List.nil_append, ← hst]
  exact h.changes

/-- After every step of every run the receiver's last events are the state. -/
theorem stream_shows_state {settings : Settings} {s : Session} (hs : Session.open? settings = .ok s)
    {steps : List Step} (alone : ∀ step ∈ steps, step.Spares 0) :
    Shown (((watched s).run steps).stream 0) ((watched s).run steps).session.state :=
  (watched_stream hs alone).told.shown

theorem stream_shows_state_visit : (∀ step ∈ visit ++ visitEnd, step.Spares 0) ∧
    ((watched newSession).run (visit ++ visitEnd)).stream 0 ≠ [] ∧
      Shown (((watched newSession).run (visit ++ visitEnd)).stream 0)
        ((watched newSession).run (visit ++ visitEnd)).session.state := by
  have alone : ∀ step ∈ visit ++ visitEnd, step.Spares 0 := by decide +kernel
  exact ⟨alone, by decide +kernel,
    stream_shows_state (show Session.open? .standard = .ok newSession from rfl) alone⟩

end Desk

end YieldVault
