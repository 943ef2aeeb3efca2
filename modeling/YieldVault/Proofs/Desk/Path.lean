import YieldVault.Proofs.Desk.Stream

/-!
# Paths of phases

The phases that are told of one kind of action come in blocks, one for each action: it waits for its
signature, then it is rejected, or it is submitted and then settled or rejected, and perhaps it is put
away. A settlement is told right after the quote that it has led to.
-/

namespace YieldVault

/-! ## Blocks -/

/-- The phases of an action from beginning to end, and the last of them. -/
inductive Course : List Phase → Phase → Prop
  | refused (reason : Rejection) : Course [.awaitingSignature, .rejected reason] (.rejected reason)
  | signed (reference : String) {p : Phase} (h : p.isTerminal = true) :
      Course [.awaitingSignature, .submitted reference, p] p

/-- The phases of a finished action, which may have been put away. -/
inductive Block : List Phase → Prop
  | kept {ps : List Phase} {p : Phase} (h : Course ps p) : Block ps
  | released {ps : List Phase} {p : Phase} (h : Course ps p) : Block (ps ++ [.idle])

/-- The phases of the action that has the slot now. -/
inductive Part : List Phase → Phase → Prop
  | nothing : Part [] .idle
  | awaiting : Part [.awaitingSignature] .awaitingSignature
  | submitted (reference : String) : Part [.awaitingSignature, .submitted reference] (.submitted reference)
  | ended {ps : List Phase} {p : Phase} (h : Course ps p) : Part ps p

/-- Finished actions, and the phases of the one that has the slot now. -/
def Path (ps : List Phase) (p : Phase) : Prop :=
  ∃ (blocks : List (List Phase)) (last : List Phase),
    (∀ b ∈ blocks, Block b) ∧ ps = blocks.flatten ++ last ∧ Part last p

theorem Course.not_inFlight {ps : List Phase} {p : Phase} (h : Course ps p) : p.inFlight = false := by
  cases h with
  | refused _ => rfl
  | signed _ h => cases p <;> first | rfl | cases h

theorem Part.isPrefix {ps : List Phase} {p : Phase} (h : Part ps p) : ps = [] ∨ ∃ b, Block b ∧ ps <+: b := by
  cases h with
  | nothing => exact .inl rfl
  | awaiting => exact .inr ⟨_, .kept (.refused .userCancelled), ⟨[.rejected .userCancelled], rfl⟩⟩
  | submitted reference =>
    have hc : Course [.awaitingSignature, .submitted reference, .rejected .userCancelled] _ :=
      .signed reference rfl
    exact .inr ⟨_, .kept hc, ⟨[.rejected .userCancelled], rfl⟩⟩
  | ended hc => exact .inr ⟨ps, .kept hc, List.prefix_rfl⟩

namespace Path

/-- The last block goes on. -/
theorem extend {blocks : List (List Phase)} {last last' : List Phase} {ps : List Phase} {p p' : Phase}
    (hb : ∀ b ∈ blocks, Block b) (hps : ps = blocks.flatten ++ last) (hl : last ++ [p'] = last')
    (h : Part last' p) :
    Path (ps ++ [p']) p :=
  ⟨blocks, last', hb, by rw [hps, ← hl, List.append_assoc], h⟩

/-- The last block is closed, and another one starts. -/
theorem close {blocks : List (List Phase)} {last last' : List Phase} {ps qs : List Phase} {p : Phase}
    (hb : ∀ b ∈ blocks, Block b) (hl : Block last) (hps : ps ++ qs = blocks.flatten ++ (last ++ last'))
    (h : Part last' p) : Path (ps ++ qs) p := by
  refine ⟨blocks ++ [last], last', fun b hm => ?_, ?_, h⟩
  · rcases List.mem_append.mp hm with hm | hm
    · exact hb b hm
    · rw [List.mem_singleton] at hm; exact hm ▸ hl
  · rw [hps]; simp

theorem turn {ps : List Phase} {p p' : Phase} (h : Path ps p) (ht : Phase.Turn p p') :
    Path (ps ++ [p']) p' := by
  obtain ⟨blocks, last, hb, hps, hl⟩ := h
  cases ht with
  | begin hf =>
    cases hl with
    | nothing => exact extend hb hps rfl .awaiting
    | awaiting => cases hf
    | submitted _ => cases hf
    | ended hc => exact close hb (.kept hc) (by rw [hps, List.append_assoc]) .awaiting
  | sign reference =>
    cases hl with
    | awaiting => exact extend hb hps rfl (.submitted reference)
    | ended hc => cases hc.not_inFlight
  | reject reason hf =>
    cases hl with
    | nothing => cases hf
    | awaiting => exact extend hb hps rfl (.ended (.refused reason))
    | submitted reference => exact extend hb hps rfl (.ended (.signed reference rfl))
    | ended hc => rw [hc.not_inFlight] at hf; cases hf
  | acknowledge ht =>
    cases hl with
    | nothing => cases ht
    | awaiting => cases ht
    | submitted _ => cases ht
    | ended hc => exact close hb (.released hc) (by rw [hps]; simp) .nothing

theorem settle {ps : List Phase} {p : Phase} (h : Path ps p) (hs : Slot.isSubmitted p = true) (r : Receipt) :
    Path (ps ++ [.settled r]) (.settled r) := by
  obtain ⟨blocks, last, hb, hps, hl⟩ := h
  cases hl with
  | nothing => cases hs
  | awaiting => cases hs
  | submitted reference => exact extend hb hps rfl (.ended (.signed reference rfl))
  | ended hc =>
    obtain ⟨reference, rfl⟩ := Slot.isSubmitted_iff.mp hs
    cases hc.not_inFlight

/-- What has begun can be finished. -/
theorem isPrefix {ps : List Phase} {p : Phase} (h : Path ps p) :
    ∃ blocks : List (List Phase), (∀ b ∈ blocks, Block b) ∧ ps <+: blocks.flatten := by
  obtain ⟨blocks, last, hb, rfl, hl⟩ := h
  obtain rfl | ⟨b, hb', hp⟩ := hl.isPrefix
  · exact ⟨blocks, hb, by simp⟩
  · refine ⟨blocks ++ [b], fun b hm => ?_, ?_⟩
    · rcases List.mem_append.mp hm with hm | hm
      · exact hb b hm
      · rw [List.mem_singleton] at hm; exact hm ▸ hb'
    · rw [List.flatten_append, List.flatten_singleton]
      exact (List.prefix_append_right_inj _).mpr hp

end Path

/-! ## What is told of phases -/

namespace State

/-- A change tells of a phase of one kind if it makes the slot of that kind take a turn. -/
theorem Change.phase {s s' : State} {es : List Event} (h : Change s es s') (kind : Kind) :
    es.filterMap (Event.phase? kind) = [] ∧ s'.phase kind = s.phase kind ∨
      es.filterMap (Event.phase? kind) = [s'.phase kind] ∧
        (Phase.Turn (s.phase kind) (s'.phase kind) ∨
          Slot.isSubmitted (s.phase kind) = true ∧ ∃ r, s'.phase kind = .settled r) := by
  cases h with
  | connection c t => left; cases kind <;> exact ⟨rfl, rfl⟩
  | connectToken t => left; cases kind <;> exact ⟨rfl, rfl⟩
  | input k raw n => left; cases k <;> cases kind <;> exact ⟨rfl, rfl⟩
  | verdict k v => left; cases k <;> cases kind <;> exact ⟨rfl, rfl⟩
  | quote p => left; cases kind <;> exact ⟨rfl, rfl⟩
  | stats figures => left; cases kind <;> exact ⟨rfl, rfl⟩
  | request k => left; cases k <;> cases kind <;> exact ⟨rfl, rfl⟩
  | slot k slot ht =>
    by_cases hk : k = kind
    · subst hk
      have hp : (s.withSlot k slot).phase k = slot.phase := congrArg Slot.phase (slot_withSlot ..)
      right; rw [hp]; exact ⟨by simp [Event.phase?], .inl ht⟩
    · left; exact ⟨by simp [Event.phase?, hk], congrArg Slot.phase (slot_withSlot_of_ne _ (Ne.symm hk) _)⟩
  | settle k slot r p p' hs hr _ _ =>
    by_cases hk : k = kind
    · subst hk
      have hp : ({ s with position := some p' }.withSlot k slot).phase k = .settled r :=
        (congrArg Slot.phase (slot_withSlot ..)).trans hr
      right
      rw [hp]
      exact ⟨by cases k <;> rfl, .inr ⟨hs, r, rfl⟩⟩
    · left
      refine ⟨by simp [Event.phase?, hk],
        (congrArg Slot.phase (slot_withSlot_of_ne _ (Ne.symm hk) _)).trans ?_⟩
      cases kind <;> rfl

theorem Changes.path {s : State} {es : List Event} (h : Changes .initial es s) (kind : Kind) :
    Path (es.filterMap (Event.phase? kind)) (s.phase kind) := by
  refine h.keep (P := fun es s => Path (es.filterMap (Event.phase? kind)) (s.phase kind)) ?_ [] ?_
  · intro before es s s' hc hp
    rw [List.filterMap_append]
    rcases hc.phase kind with ⟨he, hs⟩ | ⟨he, ht | ⟨hs, r, hr⟩⟩
    · rw [he, hs, List.append_nil]; exact hp
    · rw [he]; exact hp.turn ht
    · rw [he, hr]; exact hp.settle hs r
  · cases kind <;> exact ⟨[], [], fun _ hb => (by cases hb), rfl, .nothing⟩

end State

/-! ## What is told of settlements -/

/-- Every settlement is told right after the quote that its receipt has led to from the quote told before. -/
def Accounted (events : List Event) : Prop :=
  ∀ pre post k r, events = pre ++ .phase k (.settled r) :: post →
    ∃ pre', ∃ p p' : Position, pre = pre' ++ [.quote p'.quote] ∧ latest? Event.quote? pre' = some p.quote ∧
      p.apply r = .ok p'

theorem Phase.Turn.not_settled {p : Phase} {r : Receipt} (h : Turn p (.settled r)) : False := by cases h

namespace State

theorem Change.settled {s s' : State} {es as bs : List Event} {k : Kind} {r : Receipt} (h : Change s es s')
    (he : es = as ++ .phase k (.settled r) :: bs) :
    ∃ p p', as = [.quote p'.quote] ∧ s.position = some p ∧ p.apply r = .ok p' := by
  have hm : Event.phase k (.settled r) ∈ es := by rw [he]; simp
  cases h with
  | connection c t => simp at hm
  | connectToken t => simp at hm
  | input _ raw n => simp at hm
  | verdict _ v => simp at hm
  | quote p => simp at hm
  | stats figures => simp at hm
  | request _ => simp at hm
  | slot k' slot ht =>
    simp only [List.mem_singleton, Event.phase.injEq] at hm
    rw [← hm.2] at ht
    exact ht.not_settled.elim
  | settle k' slot r' p p' hs hr hp hp' =>
    -- the two events are told in this order, so the quote is all that stands before the phase
    rcases as with _ | ⟨e, _ | ⟨e', as⟩⟩
    · simp at he
    · simp only [List.cons_append, List.nil_append, List.cons.injEq, Event.phase.injEq,
        Phase.settled.injEq] at he
      obtain ⟨rfl, ⟨_, rfl⟩, _⟩ := he
      exact ⟨p, p', rfl, hp, hp'⟩
    · simp at he

theorem Changes.accounted {s : State} {es : List Event} (h : Changes .initial es s) : Accounted es := by
  suffices hk : latest? Event.quote? es = s.position.map (·.quote) ∧ Accounted es from hk.2
  refine h.keep (P := fun es s => latest? Event.quote? es = s.position.map (·.quote) ∧ Accounted es) ?_ []
    ⟨rfl, fun pre post k r he => by simp at he⟩
  rintro before es s s' hc ⟨hq, ha⟩
  refine ⟨by rw [latest?_append, hq]; exact hc.told.quote, fun pre post k r he => ?_⟩
  rcases List.append_eq_append_iff.mp he with ⟨as, hpre, hes⟩ | ⟨bs, hbefore, hpost⟩
  · obtain ⟨p, p', rfl, hp, hp'⟩ := hc.settled hes
    exact ⟨before, p, p', hpre, by rw [hq, hp]; rfl, hp'⟩
  · cases bs with
    | nil =>
      obtain ⟨p, p', hn, _⟩ := hc.settled (show es = [] ++ _ from hpost.symm)
      cases hn
    | cons e bs =>
      simp only [List.cons_append, List.cons.injEq] at hpost
      obtain ⟨rfl, _⟩ := hpost
      exact ha pre bs k r hbefore

end State

end YieldVault
