import YieldVault.Proofs.Session.Publish

/-!
# Changes of the state

Every operation of a session changes its state by a chain of small changes, and what it publishes is
what these changes tell, one after the other. The changes that nobody is told of are those of the
typed text, of the token of a connection attempt and of a request that an idle slot still holds.
-/

namespace YieldVault

/-! ## Forms -/

namespace State

variable (s : State)

@[simp] theorem form_withForm (kind : Kind) (f : Form) : (s.withForm kind f).form kind = f := by
  cases kind <;> rfl

theorem form_withForm_of_ne {kind k : Kind} (h : k ≠ kind) (f : Form) :
    (s.withForm kind f).form k = s.form k := by
  cases kind <;> cases k <;> first | rfl | exact absurd rfl h

@[simp] theorem withForm_position (kind : Kind) (f : Form) : (s.withForm kind f).position = s.position := by
  cases kind <;> rfl

theorem slot_withForm {kind : Kind} {f : Form} (h : f.slot = (s.form kind).slot) (k : Kind) :
    ((s.withForm kind f).form k).slot = (s.form k).slot := by
  by_cases hk : k = kind
  · subst hk; rw [form_withForm, h]
  · rw [form_withForm_of_ne s hk]

@[simp] theorem slot_withSlot (kind : Kind) (slot : Slot) :
    ((s.withSlot kind slot).form kind).slot = slot := by
  simp [withSlot]

theorem slot_withSlot_of_ne {kind k : Kind} (h : k ≠ kind) (slot : Slot) :
    ((s.withSlot kind slot).form k).slot = (s.form k).slot := by
  rw [withSlot, form_withForm_of_ne s h]

@[simp] theorem withSlot_position (kind : Kind) (slot : Slot) :
    (s.withSlot kind slot).position = s.position :=
  withForm_position s kind _

end State

/-! ## Single changes -/

/-- The ways in which a slot leaves a phase, settling apart. -/
inductive Phase.Turn : Phase → Phase → Prop
  | begin {p : Phase} : p.inFlight = false → Turn p .awaitingSignature
  | sign (reference : String) : Turn .awaitingSignature (.submitted reference)
  | reject {p : Phase} (reason : Rejection) : p.inFlight = true → Turn p (.rejected reason)
  | acknowledge {p : Phase} : p.isTerminal = true → Turn p .idle

/-- One change of the state, with the events that tell of it. -/
inductive State.Change : State → List Event → State → Prop
  | connection (s : State) (c : Connection) (t : Option Token) :
      Change s [.connection c] { s with connection := c, connectToken := t }
  | connectToken (s : State) (t : Option Token) : Change s [] { s with connectToken := t }
  | input (s : State) (kind : Kind) (raw : String) (n : Nat) :
      Change s [] (s.withForm kind { s.form kind with input := raw, generation := n })
  | verdict (s : State) (kind : Kind) (v : Verdict) :
      Change s [.verdict kind v] (s.withForm kind { s.form kind with verdict := v })
  | quote (s : State) (p : Position) : Change s [.quote p.quote] { s with position := some p }
  | stats (s : State) (figures : Stats) : Change s [.stats figures] { s with stats := figures }
  | request (s : State) (kind : Kind) :
      Change s [] (s.withSlot kind { (s.form kind).slot with request := none })
  | slot (s : State) (kind : Kind) (slot : Slot) (h : Phase.Turn (s.phase kind) slot.phase) :
      Change s [.phase kind slot.phase] (s.withSlot kind slot)
  | settle (s : State) (kind : Kind) (slot : Slot) (r : Receipt) (p p' : Position)
      (hs : Slot.isSubmitted (s.phase kind) = true) (hr : slot.phase = .settled r)
      (hp : s.position = some p) (hp' : p.apply r = .ok p') :
      Change s [.quote p'.quote, .phase kind (.settled r)] ({ s with position := some p' }.withSlot kind slot)

/-- A chain of changes, with all that it tells. -/
inductive State.Changes : State → List Event → State → Prop
  | nil (s : State) : Changes s [] s
  | cons {s s' s'' : State} {es es' : List Event} : Change s es s' → Changes s' es' s'' →
      Changes s (es ++ es') s''

namespace State

theorem Change.single {s s' : State} {es : List Event} (h : Change s es s') : Changes s es s' := by
  simpa using Changes.cons h (.nil s')

theorem Changes.append {s s' s'' : State} {es es' : List Event} (h : Changes s es s')
    (h' : Changes s' es' s'') :
    Changes s (es ++ es') s'' := by
  induction h with
  | nil => exact h'
  | cons hc _ ih => rw [List.append_assoc]; exact .cons hc (ih h')

/-- What every change keeps, whatever was told before it, a chain of changes keeps. -/
theorem Changes.keep {P : List Event → State → Prop}
    (hP : ∀ {before es : List Event} {s s' : State}, Change s es s' → P before s → P (before ++ es) s')
    {s s' : State} {es : List Event} (h : Changes s es s') (before : List Event) (h₀ : P before s) :
    P (before ++ es) s' := by
  induction h generalizing before with
  | nil => simpa using h₀
  | cons hc _ ih => rw [← List.append_assoc]; exact ih _ (hP hc h₀)

/-! ## Input and quotes -/

theorem completeInput_changes {s s' : State} {t : Ticket} {v : Verdict}
    (h : s.completeInput t = some (s', v)) :
    Changes s [.verdict t.kind v] s' := by
  simp only [completeInput] at h
  split at h
  · simp only [Option.some.injEq, Prod.mk.injEq] at h
    obtain ⟨rfl, rfl⟩ := h
    exact (Change.verdict s t.kind _).single
  · cases h

/-- A fresh ticket can be completed. -/
theorem completeInput_beginInput (s : State) (kind : Kind) (raw : String) :
    (s.beginInput kind raw).1.completeInput (s.beginInput kind raw).2 =
      some ((s.beginInput kind raw).1.withForm kind
        { (s.beginInput kind raw).1.form kind with verdict := (s.beginInput kind raw).1.verdictFor kind raw },
        (s.beginInput kind raw).1.verdictFor kind raw) := by
  simp [completeInput, beginInput]

theorem beginInput_changes (s : State) (kind : Kind) (raw : String) :
    Changes s [] (s.beginInput kind raw).1 :=
  (Change.input s kind raw _).single

theorem revalidate_changes (s : State) (kind : Kind) :
    Changes s (s.revalidate kind).2 (s.revalidate kind).1 := by
  simp only [revalidate]
  split
  · exact .nil s
  · exact (Change.verdict s kind _).single

theorem revalidateAll_changes (s : State) : Changes s s.revalidateAll.2 s.revalidateAll.1 :=
  (revalidate_changes s .deposit).append (revalidate_changes _ .withdraw)

theorem revalidate_position (s : State) (kind : Kind) : (s.revalidate kind).1.position = s.position := by
  simp only [revalidate]
  split
  · rfl
  · exact withForm_position s kind _

theorem revalidate_slot (s : State) (kind k : Kind) :
    ((s.revalidate kind).1.form k).slot = (s.form k).slot := by
  simp only [revalidate]
  split
  · rfl
  · exact slot_withForm s (by rfl) k

theorem revalidateAll_position (s : State) : s.revalidateAll.1.position = s.position :=
  (revalidate_position _ .withdraw).trans (revalidate_position s .deposit)

theorem revalidateAll_slot (s : State) (k : Kind) : (s.revalidateAll.1.form k).slot = (s.form k).slot :=
  (revalidate_slot _ .withdraw k).trans (revalidate_slot s .deposit k)

/-- All that the offer of a quote can come to. -/
inductive Replaces (s : State) (q : Quote) : Except Position.Refusal (State × List Event) → Prop
  | taken {p : Position} {s' : State} {es : List Event} (hp : Position.ofQuote q = .ok p)
      (changes : Changes s es s')
      (position : s'.position = some p) (slot : ∀ k, (s'.form k).slot = (s.form k).slot) :
      Replaces s q (.ok (s', es))
  | refused (e : Position.Refusal) : Replaces s q (.error e)

theorem replaceQuote_replaces (s : State) (q : Quote) : Replaces s q (s.replaceQuote q) := by
  cases hp : Position.ofQuote q with
  | error e =>
    have he : s.replaceQuote q = .error e := by simp [replaceQuote, hp, bind, Except.bind]
    rw [he]; exact .refused e
  | ok p =>
    have he : s.replaceQuote q = .ok ({ s with position := some p }.revalidateAll.1,
        .quote q :: { s with position := some p }.revalidateAll.2) := by
      simp [replaceQuote, hp, bind, Except.bind, pure, Except.pure]
    rw [he]
    refine .taken hp ?_ (revalidateAll_position _) fun k => ?_
    · rw [← Position.quote_of_ofQuote hp]; exact .cons (.quote s p) (revalidateAll_changes _)
    · rw [revalidateAll_slot]; cases k <;> rfl

theorem applySnapshot_replaces (s : State) (snapshot : Snapshot) :
    Replaces s snapshot.quote (s.applySnapshot snapshot) := by
  have h := replaceQuote_replaces s snapshot.quote
  cases hq : s.replaceQuote snapshot.quote with
  | error e =>
    have he : s.applySnapshot snapshot = .error e := by simp [applySnapshot, hq, bind, Except.bind]
    rw [he]; exact .refused e
  | ok r =>
    obtain ⟨s₁, es₁⟩ := r
    rw [hq] at h
    cases h with
    | taken hp changes position slot =>
      simp only [applySnapshot, hq, bind, Except.bind, pure, Except.pure]
      split
      · exact .taken hp changes position slot
      · refine .taken hp (changes.append (Change.stats s₁ _).single) position fun k => ?_
        rw [← slot k]; cases k <;> rfl

end State

end YieldVault
