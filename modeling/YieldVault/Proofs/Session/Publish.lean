import YieldVault.Session.Desk

/-!
# Publishing

A publication touches the watchers of a session and nothing else, and a mailbox that is fed and whose
receiver lives gets every event, in order, behind what it has.
-/

namespace YieldVault

/-! ## Mailboxes -/

/-- The receiver `i` lives, is fed, and has got `queue` so far. -/
def Broadcast.Feeds {ε : Type} (b : Broadcast ε) (i : Nat) (queue : List ε) : Prop :=
  b.mailboxes[i]? = some ⟨queue, true, true⟩

namespace Broadcast

variable {ε : Type} {b : Broadcast ε} {i : Nat} {queue : List ε}

theorem Feeds.publish (h : b.Feeds i queue) (e : ε) : (b.publish e).Feeds i (queue ++ [e]) := by
  unfold Feeds at *
  simp [Broadcast.publish, h, Mailbox.deliver]

theorem Feeds.publishAll (h : b.Feeds i queue) (es : List ε) :
    (es.foldl Broadcast.publish b).Feeds i (queue ++ es) := by
  induction es generalizing b queue with
  | nil => simpa using h
  | cons e es ih =>
    rw [List.foldl_cons, ← List.singleton_append, ← List.append_assoc]
    exact ih (h.publish e)

theorem Feeds.subscribe (h : b.Feeds i queue) : b.subscribe.2.Feeds i queue := by
  unfold Feeds at *
  have hi : i < b.mailboxes.length := (List.getElem?_eq_some_iff.mp h).1
  simpa [Broadcast.subscribe, List.getElem?_append_left hi] using h

theorem Feeds.drop (h : b.Feeds i queue) {j : Nat} (hj : j ≠ i) : (b.drop j).Feeds i queue := by
  unfold Feeds at *
  simpa [Broadcast.drop, List.getElem?_modify, hj] using h

theorem feeds_subscribe (b : Broadcast ε) : b.subscribe.2.Feeds b.subscribe.1 [] := by
  simp [Feeds, Broadcast.subscribe]

end Broadcast

/-! ## Sessions -/

/-- A step of a watcher that leaves the receiver `i` alone. -/
def Watch.Spares (i : Nat) (w : Watch) : Prop := w ≠ .closeEvents ∧ w ≠ .dropEvents i

namespace Session

theorem publish_keeps {α : Type} (f : Session → α) (hf : ∀ s e, f (announce s e) = f s) (s : Session)
    (es : List Event) : f (s.publish es) = f s := by
  unfold publish
  induction es generalizing s with
  | nil => rfl
  | cons e es ih => rw [List.foldl_cons, ih, hf]

theorem publish_bus (s : Session) (es : List Event) :
    (s.publish es).bus = es.foldl Broadcast.publish s.bus := by
  unfold publish
  induction es generalizing s with
  | nil => rfl
  | cons e es ih => rw [List.foldl_cons, ih]; rfl

@[simp] theorem commit_state (s : Session) (st : State) (es : List Event) : (s.commit st es).state = st :=
  publish_keeps (·.state) (fun _ _ => rfl) _ es

@[simp] theorem commit_settings (s : Session) (st : State) (es : List Event) :
    (s.commit st es).settings = s.settings :=
  publish_keeps (·.settings) (fun _ _ => rfl) _ es

@[simp] theorem commit_tokens (s : Session) (st : State) (es : List Event) :
    (s.commit st es).tokens = s.tokens :=
  publish_keeps (·.tokens) (fun _ _ => rfl) _ es

@[simp] theorem commit_traces (s : Session) (st : State) (es : List Event) :
    (s.commit st es).traces = s.traces :=
  publish_keeps (·.traces) (fun _ _ => rfl) _ es

@[simp] theorem commit_bus (s : Session) (st : State) (es : List Event) :
    (s.commit st es).bus = es.foldl Broadcast.publish s.bus := publish_bus _ es

theorem open?_eq {settings : Settings} {s : Session} (h : open? settings = .ok s) :
    s.state = .initial ∧ s.tokens = .none ∧ s.bus = .silent ∧ s.traces = 0 := by
  unfold open? at h
  cases hv : settings.validate with
  | error e => simp [hv, bind, Except.bind] at h
  | ok v =>
    simp only [hv, bind, Except.bind, pure, Except.pure, Except.ok.injEq] at h
    subst h
    exact ⟨rfl, rfl, rfl, rfl⟩

theorem watch_feeds {s : Session} {i : Nat} {queue : List Event} (h : s.bus.Feeds i queue) {w : Watch}
    (hw : w.Spares i) : (s.watch w).bus.Feeds i queue := by
  cases w with
  | openEvents => exact h.subscribe
  | dropEvents j => exact h.drop fun hj => hw.2 (by rw [hj])
  | closeEvents => exact absurd rfl hw.1
  | observe => exact h

end Session

end YieldVault
