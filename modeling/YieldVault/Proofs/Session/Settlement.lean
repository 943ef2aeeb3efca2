import YieldVault.Proofs.Lifecycle.Slot
import YieldVault.Proofs.Session.Change

/-!
# Settlement

What becomes of a confirmed action: nothing if the slot does not wait for it, a rejection if the
position cannot take it, and otherwise one receipt, folded into the position once.
-/

namespace YieldVault.State

/-! ## Receipts -/

/-- The receipt `r` of the confirmed action takes the position from `p` to `p'`. -/
structure Absorbs (s : State) (signed : Signed) (p : Position) (r : Receipt) (p' : Position) : Prop where
  position : s.position = some p
  kind : r.kind = signed.request.kind
  amount : signed.request.amount = .ok r.amount
  reference : r.reference = signed.reference
  shares : p.sharesFor r.amount = some r.shares
  applied : p.apply r = .ok p'

theorem fold_absorbs {s : State} {signed : Signed} {now : Moment} {r : Receipt} {p' : Position}
    (h : s.fold signed now = .ok (r, p')) : ∃ p, s.Absorbs signed p r p' := by
  cases ha : signed.request.amount with
  | error e => simp [fold, ha, bind, Except.bind] at h
  | ok amount =>
    cases hp : s.position with
    | none => simp [fold, ha, hp, bind, Except.bind] at h
    | some p =>
      cases hs : p.sharesFor amount with
      | none => simp [fold, ha, hp, hs, bind, Except.bind] at h
      | some shares =>
        cases hq : p.apply (signed.receipt amount shares now) with
        | error e => simp [fold, ha, hp, hs, hq, bind, Except.bind] at h
        | ok q =>
          simp only [fold, ha, hp, hs, hq, bind, Except.bind, pure, Except.pure, Except.ok.injEq,
            Prod.mk.injEq] at h
          obtain ⟨rfl, rfl⟩ := h
          exact ⟨p, hp, rfl, ha, rfl, hs, hq⟩

/-! ## The three ends -/

/-- The slot of the confirmed action waits for its settlement. -/
def Awaits (s : State) (signed : Signed) : Prop :=
  (s.form signed.request.kind).slot.isCurrent signed.request.trace = true ∧
    Slot.isSubmitted (s.phase signed.request.kind) = true

/-- All that a settlement can be. -/
inductive Settling (s : State) (signed : Signed) : Settlement → Prop
  | stale (h : ¬ s.Awaits signed) : Settling s signed (.stale s)
  | refused (h : s.Awaits signed) (reason : Rejection) : Settling s signed (.refused reason)
  | settled {s' : State} {es : List Event} {p p' : Position} {r : Receipt} (h : s.Awaits signed)
      (absorbs : s.Absorbs signed p r p') (changes : Changes s es s') (position : s'.position = some p')
      (slot : (s'.form signed.request.kind).slot =
        { (s.form signed.request.kind).slot with phase := .settled r, token := none })
      (other : ∀ k, k ≠ signed.request.kind → (s'.form k).slot = (s.form k).slot) :
      Settling s signed (.settled s' es)

/-- The form is emptied and both forms are judged anew: neither touches the position or a slot. -/
def cleared (s : State) (kind : Kind) : State × List Event :=
  let s₂ := (s.beginInput kind "").1
  let v := s₂.verdictFor kind ""
  let r := (s₂.withForm kind { s₂.form kind with verdict := v }).revalidateAll
  (r.1, .verdict kind v :: r.2)

theorem cleared_changes (s : State) (kind : Kind) : Changes s (s.cleared kind).2 (s.cleared kind).1 := by
  have h₁ := s.beginInput_changes kind ""
  have h₂ :=
    (Change.verdict (s.beginInput kind "").1 kind ((s.beginInput kind "").1.verdictFor kind "")).single
  exact (h₁.append h₂).append (revalidateAll_changes _)

theorem cleared_position (s : State) (kind : Kind) : (s.cleared kind).1.position = s.position := by
  simp [cleared, revalidateAll_position, beginInput]

theorem cleared_slot (s : State) (kind k : Kind) : ((s.cleared kind).1.form k).slot = (s.form k).slot := by
  simp only [cleared, revalidateAll_slot]
  rw [slot_withForm _ (by rfl), beginInput, slot_withForm _ (by rfl)]

theorem settle_eq_of_fold {s : State} {signed : Signed} {now : Moment} {r : Receipt}
    {p' : Position} {slot : Slot} (h : s.Awaits signed) (hf : s.fold signed now = .ok (r, p'))
    (hs : (s.form signed.request.kind).slot.settle signed.request.trace r = .ok slot) :
    s.settle signed now =
      .settled
        (({ s with position := some p' }.withSlot signed.request.kind slot).cleared signed.request.kind).1
        (.quote p'.quote :: .phase signed.request.kind (.settled r) ::
          (({ s with position := some p' }.withSlot signed.request.kind slot).cleared
            signed.request.kind).2) := by
  have hp : Slot.isSubmitted (s.form signed.request.kind).slot.phase = true := h.2
  simp [settle, h.1, hp, hf, hs, completeInput_beginInput, cleared]

theorem settle_eq_of_fold_error {s : State} {signed : Signed} {now : Moment} {reason : Rejection}
    (h : s.Awaits signed) (hf : s.fold signed now = .error reason) :
    s.settle signed now = .refused reason := by
  have hp : Slot.isSubmitted (s.form signed.request.kind).slot.phase = true := h.2
  simp [settle, h.1, hp, hf]

theorem settle_settling (s : State) (signed : Signed) (now : Moment) :
    Settling s signed (s.settle signed now) := by
  by_cases h : s.Awaits signed
  · have hp : Slot.isSubmitted (s.form signed.request.kind).slot.phase = true := h.2
    cases hf : s.fold signed now with
    | error reason => rw [settle_eq_of_fold_error h hf]; exact .refused h reason
    | ok a =>
      obtain ⟨r, p'⟩ := a
      obtain ⟨p, ha⟩ := fold_absorbs hf
      rw [settle_eq_of_fold h hf (Slot.settle_eq_ok_iff.mpr ⟨h.1, hp, rfl⟩)]
      refine .settled h ha ?_ (by simp [cleared_position]) (by simp [cleared_slot]) fun k hk => ?_
      · exact .cons (.settle s _ _ r p p' h.2 rfl ha.position ha.applied) (cleared_changes _ _)
      · rw [cleared_slot, slot_withSlot_of_ne _ hk]; cases k <;> rfl
  · have he : s.settle signed now = .stale s := by
      have hn : ¬ ((s.form signed.request.kind).slot.isCurrent signed.request.trace = true ∧
        Slot.isSubmitted (s.form signed.request.kind).slot.phase = true) := h
      simp only [settle]
      split
      · rfl
      · rename_i hc; simp at hc; exact absurd hc hn
    rw [he]; exact .stale h

end YieldVault.State
