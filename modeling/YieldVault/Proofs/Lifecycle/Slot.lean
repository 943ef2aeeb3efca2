import YieldVault.Lifecycle

/-!
# Moves of a slot

When each move of a slot is allowed, and what it makes of the slot. Cancelling touches the register of
tokens alone: the token of the action in flight is cancelled from then on, and no other one is.
-/

namespace YieldVault

namespace Tokens

variable {ts : Tokens} {t u : Token}

theorem cancel_issued (ts : Tokens) (t : Token) : (ts.cancel t).issued = ts.issued := by
  unfold cancel
  split <;> rfl

theorem cancel_mono (ts : Tokens) (t : Token) (h : ts.isCancelled u = true) :
    (ts.cancel t).isCancelled u = true := by
  unfold cancel
  split
  · exact h
  · simp only [isCancelled, List.contains_eq_mem, decide_eq_true_eq, List.mem_append] at h ⊢
    exact Or.inl h

theorem isCancelled_cancel (ts : Tokens) (t : Token) : (ts.cancel t).isCancelled t = true := by
  unfold cancel
  split
  · assumption
  · simp [isCancelled]

theorem isCancelled_of_cancel (h : (ts.cancel t).isCancelled u = true) : u = t ∨ ts.isCancelled u = true := by
  unfold cancel at h
  split at h
  · exact .inr h
  · simp only [isCancelled, List.contains_eq_mem, decide_eq_true_eq, List.mem_append,
      List.mem_singleton] at h ⊢
    exact h.symm

end Tokens

theorem Phase.isTerminal_of {p : Phase} (hf : p.inFlight = false) (hi : p ≠ .idle) : p.isTerminal = true := by
  cases p with
  | idle => exact absurd rfl hi
  | awaitingSignature => simp [inFlight] at hf
  | submitted _ => simp [inFlight] at hf
  | settled _ => rfl
  | rejected _ => rfl

namespace Slot

variable {s s' : Slot} {trace : TraceId}

theorem isCurrent_iff : s.isCurrent trace = true ↔ ∃ r, s.request = some r ∧ r.trace = trace := by
  unfold isCurrent
  cases s.request with
  | none => simp
  | some r => simp

theorem isSubmitted_iff {p : Phase} : isSubmitted p = true ↔ ∃ reference, p = .submitted reference := by
  cases p <;> simp [isSubmitted]

theorem allow_eq_ok_iff {move : String} {phases : Phase → Bool} :
    s.allow trace move phases = .ok s' ↔ s.isCurrent trace = true ∧ phases s.phase = true ∧ s' = s := by
  unfold allow
  by_cases hc : s.isCurrent trace = true
  · by_cases hp : phases s.phase = true
    · simp [hc, hp, eq_comm]
    · simp [hc, hp]
  · simp [hc]

/-- A move that an allowed slot makes by `f`. -/
theorem allow_bind_eq_ok_iff {move : String} {phases : Phase → Bool} {f : Slot → Slot} :
    (s.allow trace move phases >>= fun s => pure (f s)) = .ok s' ↔
      s.isCurrent trace = true ∧ phases s.phase = true ∧ s' = f s := by
  cases h : s.allow trace move phases with
  | error e =>
    have hn : ¬ (s.isCurrent trace = true ∧ phases s.phase = true) := fun ⟨hc, hp⟩ => by
      rw [allow_eq_ok_iff.mpr ⟨hc, hp, rfl⟩] at h; cases h
    simp only [bind, Except.bind, reduceCtorEq, false_iff]
    exact fun ⟨hc, hp, _⟩ => hn ⟨hc, hp⟩
  | ok a =>
    obtain ⟨hc, hp, rfl⟩ := allow_eq_ok_iff.mp h
    simp [bind, Except.bind, pure, Except.pure, hc, hp, eq_comm]

theorem sign_eq_ok_iff {reference : String} : s.sign trace reference = .ok s' ↔
    s.isCurrent trace = true ∧ s.phase = .awaitingSignature ∧
      s' = { s with phase := .submitted reference } := by
  unfold sign
  rw [allow_bind_eq_ok_iff, beq_iff_eq]

theorem settle_eq_ok_iff {receipt : Receipt} : s.settle trace receipt = .ok s' ↔
    s.isCurrent trace = true ∧ isSubmitted s.phase = true ∧
      s' = { s with phase := .settled receipt, token := none } := by
  unfold settle
  rw [allow_bind_eq_ok_iff]

theorem reject_eq_ok_iff {reason : Rejection} : s.reject trace reason = .ok s' ↔
    s.isCurrent trace = true ∧ s.phase.inFlight = true ∧
      s' = { s with phase := .rejected reason, token := none } := by
  unfold reject
  rw [allow_bind_eq_ok_iff]

theorem acknowledge_eq_ok_iff : s.acknowledge = .ok s' ↔
    s.phase.inFlight = false ∧ s' = { s with phase := .idle, request := none } := by
  unfold acknowledge
  by_cases h : s.phase.inFlight = true
  · simp [h]
  · simp [h, eq_comm]

theorem begin_of_not_inFlight (h : s.phase.inFlight = false) (r : Request) (ts : Tokens) :
    s.begin r ts = some ({ s with phase := .awaitingSignature, request := some r, token := some ts.issue.1 },
      ts.issue.1, ts.issue.2) := by
  simp [begin, h]

/-! ## Cancelling -/

theorem cancellable_eq_some_iff {t : Token} :
    s.cancellable = some t ↔ s.phase.inFlight = true ∧ s.token = some t := by
  unfold cancellable
  split
  · simp [*]
  · simp [*]

theorem cancel_of_inFlight (h : s.phase.inFlight = true) {t : Token} (ht : s.token = some t) (ts : Tokens) :
    s.cancel ts = (ts.cancel t, true) := by
  simp [cancel, cancellable_eq_some_iff.mpr ⟨h, ht⟩]

theorem cancel_of_not_inFlight (h : s.phase.inFlight = false) (ts : Tokens) : s.cancel ts = (ts, false) := by
  simp [cancel, cancellable, h]

/-- All that cancelling can come to. -/
theorem cancel_cases (s : Slot) (ts : Tokens) :
    s.cancel ts = (ts, false) ∨ ∃ t, s.token = some t ∧ s.cancel ts = (ts.cancel t, true) := by
  cases h : s.cancellable with
  | none => exact .inl (by simp [cancel, h])
  | some t => exact .inr ⟨t, (cancellable_eq_some_iff.mp h).2, by simp [cancel, h]⟩

theorem cancel_isCancelled (h : s.phase.inFlight = true) {t : Token} (ht : s.token = some t)
    (ts : Tokens) : (s.cancel ts).1.isCancelled t = true := by
  rw [cancel_of_inFlight h ht]
  exact ts.isCancelled_cancel t

theorem cancel_mono (s : Slot) {ts : Tokens} {u : Token} (h : ts.isCancelled u = true) :
    (s.cancel ts).1.isCancelled u = true := by
  rcases s.cancel_cases ts with he | ⟨t, -, he⟩
  · rw [he]
    exact h
  · rw [he]
    exact ts.cancel_mono t h

end Slot

end YieldVault
