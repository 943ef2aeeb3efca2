import YieldVault.Proofs.Session.Settlement

/-!
# Operations that end at once

Each of them changes the state by a chain of changes and publishes what the chain tells. None touches
an action in flight, none takes a cancellation back, and only a quote that is taken replaces the position.
-/

namespace YieldVault

/-- An operation that neither brings a quote nor puts a finished action away. -/
def Action.isPlain : Action → Bool
  | .refreshQuote _ => false
  | .acknowledge _ => false
  | _ => true

namespace Session

/-- The slot of one kind of action. -/
def slot (s : Session) (kind : Kind) : Slot := (s.state.form kind).slot

@[simp] theorem commit_slot (s : Session) (st : State) (es : List Event) (k : Kind) :
    (s.commit st es).slot k = (st.form k).slot := by
  rw [slot, commit_state]

/-- The session has changed its state and told of it. -/
structure Evolves (s : Session) (events : List Event) (s' : Session) : Prop where
  changes : State.Changes s.state events s'.state
  bus : s'.bus = events.foldl Broadcast.publish s.bus

theorem Evolves.still {s s' : Session} (hs : s'.state = s.state) (hb : s'.bus = s.bus) : s.Evolves [] s' :=
  ⟨by rw [hs]; exact .nil _, hb⟩

theorem Evolves.commit {s : Session} {st : State} {es : List Event} (h : State.Changes s.state es st) :
    s.Evolves es (s.commit st es) :=
  ⟨by rw [commit_state]; exact h, commit_bus s st es⟩

/-- An attempt leads on from any state that its result can be. -/
theorem attempt_evolves {ρ : Type} (s : Session) (toFault : ρ → Fault) {r : Except ρ (State × List Event)}
    (h : ∀ st es, r = .ok (st, es) → State.Changes s.state es st) :
    ∃ es, s.Evolves es (s.attempt toFault r).1 := by
  cases hr : r with
  | error e => exact ⟨[], .still rfl rfl⟩
  | ok a =>
    obtain ⟨st, es⟩ := a
    exact ⟨es, .commit (h st es hr)⟩

/-- What a step that has to do with no action leaves as it is. A cancelled token stays cancelled. -/
structure Quiet (s s' : Session) : Prop where
  slot : ∀ k, s'.slot k = s.slot k
  position : s'.state.position = s.state.position
  traces : s'.traces = s.traces
  cancelled : ∀ t, s.tokens.isCancelled t = true → s'.tokens.isCancelled t = true

theorem Quiet.refl (s : Session) : s.Quiet s := ⟨fun _ => rfl, rfl, rfl, fun _ h => h⟩

theorem Quiet.trans {s s' s'' : Session} (h : s.Quiet s') (h' : s'.Quiet s'') : s.Quiet s'' :=
  ⟨fun k => (h'.slot k).trans (h.slot k), h'.position.trans h.position, h'.traces.trans h.traces,
    fun t ht => h'.cancelled t (h.cancelled t ht)⟩

theorem Quiet.commit {s : Session} {st : State} (hs : ∀ k, (st.form k).slot = s.slot k)
    (hp : st.position = s.state.position) (es : List Event) : s.Quiet (s.commit st es) :=
  ⟨fun k => (commit_slot s st es k).trans (hs k), by rw [commit_state, hp], commit_traces s st es,
    fun t ht => by rw [commit_tokens]; exact ht⟩

/-- The quote has replaced the position. -/
structure Takes (s : Session) (q : Quote) (s' : Session) : Prop where
  evolves : ∃ es, s.Evolves es s'
  position : ∃ p, Position.ofQuote q = .ok p ∧ s'.state.position = some p
  slot : ∀ k, s'.slot k = s.slot k
  traces : s'.traces = s.traces
  tokens : s'.tokens = s.tokens

/-- All that the offer of a quote can come to. -/
inductive Taking (s : Session) (q : Quote) : Session × Except Fault Unit → Prop
  | taken {s' : Session} (h : s.Takes q s') : Taking s q (s', .ok ())
  | refused (e : Fault) : Taking s q (s, .error e)

theorem attempt_taking {s : Session} {q : Quote} {r : Except Position.Refusal (State × List Event)}
    (h : State.Replaces s.state q r) : Taking s q (s.attempt Position.Refusal.toFault r) := by
  cases h with
  | refused e => exact .refused _
  | taken hp changes position slot =>
    exact .taken ⟨⟨_, .commit changes⟩, ⟨_, hp, by rw [commit_state, position]⟩,
      fun k => (commit_slot ..).trans (slot k), commit_traces .., commit_tokens ..⟩

theorem refreshQuote_taking (s : Session) (q : Quote) : Taking s q (s.refreshQuote q) :=
  attempt_taking (s.state.replaceQuote_replaces q)

theorem takeSnapshot_taking (s : Session) (account : String) (snapshot : Snapshot) :
    Taking s snapshot.quote (s.takeSnapshot account (.ok snapshot)) := by
  simp only [takeSnapshot]
  split
  · exact attempt_taking (s.state.applySnapshot_replaces snapshot)
  · exact .refused _

theorem Taking.evolves {s : Session} {q : Quote} {x : Session × Except Fault Unit} (h : Taking s q x) :
    ∃ es, s.Evolves es x.1 := by
  cases h with
  | taken h => exact h.evolves
  | refused _ => exact ⟨[], .still rfl rfl⟩

/-! ## Connection and input -/

theorem moveConnection_changes {s : Session} {m : Connection.Move} {st : State} {es : List Event}
    (h : (do let c ← s.state.connection.step m
             return ({ s.state with connection := c }, [Event.connection c])) = .ok (st, es)) :
    ∃ c, st = { s.state with connection := c } ∧ es = [.connection c] := by
  cases hc : s.state.connection.step m with
  | error e => simp [hc, bind, Except.bind] at h
  | ok c =>
    simp only [hc, bind, Except.bind, pure, Except.pure, Except.ok.injEq, Prod.mk.injEq] at h
    exact ⟨c, h.1.symm, h.2.symm⟩

theorem moveConnection_evolves (s : Session) (m : Connection.Move) :
    ∃ es, s.Evolves es (s.moveConnection m).1 := by
  refine attempt_evolves s _ fun st es h => ?_
  obtain ⟨c, rfl, rfl⟩ := moveConnection_changes h
  exact (State.Change.connection s.state c s.state.connectToken).single

theorem moveConnection_quiet (s : Session) (m : Connection.Move) : s.Quiet (s.moveConnection m).1 := by
  unfold moveConnection
  cases h : s.state.connection.step m with
  | error e => exact .refl s
  | ok c =>
    show s.Quiet (s.commit { s.state with connection := c } [.connection c])
    refine .commit (fun k => ?_) ?_ _
    · cases k <;> rfl
    · rfl

theorem disconnect_eq (s : Session) : s.disconnect =
    match (s.moveConnection .disconnect).2 with
    | .ok _ => ((s.moveConnection .disconnect).1.cancelActions, .ok ())
    | .error e => ((s.moveConnection .disconnect).1, .error e) := by
  unfold disconnect
  rcases s.moveConnection .disconnect with ⟨s', r⟩
  cases r <;> rfl

theorem cancelActions_quiet (s : Session) : s.Quiet s.cancelActions :=
  ⟨fun _ => rfl, rfl, rfl, fun _ ht => Slot.cancel_mono _ (Slot.cancel_mono _ ht)⟩

theorem disconnect_quiet (s : Session) : s.Quiet s.disconnect.1 := by
  rw [disconnect_eq]
  have h := s.moveConnection_quiet .disconnect
  split
  · exact h.trans (cancelActions_quiet _)
  · exact h

theorem beginInput_quiet (s : Session) (kind : Kind) (raw : String) : s.Quiet (s.beginInput kind raw).1 :=
  ⟨fun k => State.slot_withForm s.state (by rfl) k, State.withForm_position s.state kind _, rfl, fun _ h => h⟩

theorem completeInput_quiet (s : Session) (t : Ticket) : s.Quiet (s.completeInput t).1 := by
  unfold completeInput
  cases h : s.state.completeInput t with
  | none => exact .refl s
  | some a =>
    simp only [State.completeInput] at h
    split at h
    · cases h
      exact .commit (fun k => State.slot_withForm s.state (by rfl) k) (State.withForm_position s.state _ _) _
    · cases h

theorem setInput_quiet (s : Session) (kind : Kind) (raw : String) : s.Quiet (s.setInput kind raw).1 :=
  (s.beginInput_quiet kind raw).trans (completeInput_quiet _ _)

theorem completeInput_evolves (s : Session) (t : Ticket) : ∃ es, s.Evolves es (s.completeInput t).1 := by
  unfold completeInput
  cases h : s.state.completeInput t with
  | none => exact ⟨[], .still rfl rfl⟩
  | some a => exact ⟨_, .commit (State.completeInput_changes h)⟩

theorem beginInput_evolves (s : Session) (kind : Kind) (raw : String) :
    s.Evolves [] (s.beginInput kind raw).1 :=
  ⟨s.state.beginInput_changes kind raw, rfl⟩

theorem Evolves.append {s s' s'' : Session} {es es' : List Event} (h : s.Evolves es s')
    (h' : s'.Evolves es' s'') :
    s.Evolves (es ++ es') s'' :=
  ⟨h.changes.append h'.changes, by rw [h'.bus, h.bus, List.foldl_append]⟩

theorem setInput_evolves (s : Session) (kind : Kind) (raw : String) :
    ∃ es, s.Evolves es (s.setInput kind raw).1 := by
  obtain ⟨es, h⟩ := completeInput_evolves (s.beginInput kind raw).1 (s.beginInput kind raw).2
  exact ⟨[] ++ es, (s.beginInput_evolves kind raw).append h⟩

theorem acknowledge_changes {s : Session} {kind : Kind} {st : State} {es : List Event}
    (h : (do let slot ← (s.slot kind).acknowledge
             return (s.state.withSlot kind slot,
               if (s.slot kind).phase = .idle then [] else [Event.phase kind .idle])) =
      (.ok (st, es) : Except Slot.Refusal _)) : State.Changes s.state es st := by
  cases ha : (s.slot kind).acknowledge with
  | error e => simp [ha, bind, Except.bind] at h
  | ok slot =>
    obtain ⟨hf, rfl⟩ := Slot.acknowledge_eq_ok_iff.mp ha
    simp only [ha, bind, Except.bind, pure, Except.pure, Except.ok.injEq, Prod.mk.injEq] at h
    obtain ⟨rfl, rfl⟩ := h
    by_cases hi : (s.slot kind).phase = .idle
    · rw [if_pos hi, ← hi]
      exact (State.Change.request s.state kind).single
    · rw [if_neg hi]
      have ht : Phase.Turn (s.state.phase kind) .idle := .acknowledge (Phase.isTerminal_of hf hi)
      exact (State.Change.slot s.state kind { s.slot kind with phase := .idle, request := none } ht).single

/-! ## All of them -/

theorem act_evolves (s : Session) (a : Action) : ∃ es, s.Evolves es (s.act a).1 := by
  cases a with
  | cancelConnect =>
    refine ⟨[], .still ?_ ?_⟩ <;> simp only [act, cancelConnect, Prod.map_fst, id] <;> split <;> rfl
  | acknowledgeConnection => exact s.moveConnection_evolves .acknowledge
  | disconnect =>
    obtain ⟨es, h⟩ := s.moveConnection_evolves .disconnect
    refine ⟨es, ?_⟩
    simp only [act, disconnect_eq, Prod.map_fst, id]
    split
    · exact ⟨h.changes, h.bus⟩
    · exact h
  | refreshQuote q => exact (s.refreshQuote_taking q).evolves
  | setInput kind raw => exact s.setInput_evolves kind raw
  | beginInput kind raw => exact ⟨[], s.beginInput_evolves kind raw⟩
  | completeInput t => exact s.completeInput_evolves t
  | fillMax kind => exact s.setInput_evolves kind _
  | cancel kind => exact ⟨[], .still rfl rfl⟩
  | acknowledge kind => exact attempt_evolves s _ fun _ _ h => acknowledge_changes h

theorem act_quiet (s : Session) {a : Action} (ha : a.isPlain = true) : s.Quiet (s.act a).1 := by
  cases a with
  | cancelConnect =>
    simp only [act, cancelConnect, Prod.map_fst, id]
    split
    · exact ⟨fun _ => rfl, rfl, rfl, fun _ ht => Tokens.cancel_mono _ _ ht⟩
    · exact .refl s
  | acknowledgeConnection => exact s.moveConnection_quiet .acknowledge
  | disconnect => exact s.disconnect_quiet
  | refreshQuote q => cases ha
  | setInput kind raw => exact s.setInput_quiet kind raw
  | beginInput kind raw => exact s.beginInput_quiet kind raw
  | completeInput t => exact s.completeInput_quiet t
  | fillMax kind => exact s.setInput_quiet kind _
  | cancel kind => exact ⟨fun _ => rfl, rfl, rfl, fun _ ht => Slot.cancel_mono _ ht⟩
  | acknowledge kind => cases ha

/-- A finished action was put away. -/
structure Releases (s : Session) (kind : Kind) (s' : Session) : Prop where
  free : (s.slot kind).phase.inFlight = false
  slot : s'.slot kind = { s.slot kind with phase := .idle, request := none }
  other : ∀ k, k ≠ kind → s'.slot k = s.slot k
  position : s'.state.position = s.state.position
  traces : s'.traces = s.traces
  tokens : s'.tokens = s.tokens

theorem acknowledge_cases (s : Session) (kind : Kind) :
    (s.acknowledge kind).1 = s ∨ s.Releases kind (s.acknowledge kind).1 := by
  unfold acknowledge
  cases h : (s.state.form kind).slot.acknowledge with
  | error e => left; simp [h, attempt, bind, Except.bind]
  | ok slot =>
    obtain ⟨hf, rfl⟩ := Slot.acknowledge_eq_ok_iff.mp h
    right
    simp only [h, attempt, bind, Except.bind, pure, Except.pure]
    refine ⟨hf, ?_, fun k hk => ?_, ?_, commit_traces .., commit_tokens ..⟩
    · rw [commit_slot]; exact State.slot_withSlot ..
    · rw [commit_slot]; exact State.slot_withSlot_of_ne _ hk _
    · rw [commit_state]; exact State.withSlot_position ..

end Session

end YieldVault
