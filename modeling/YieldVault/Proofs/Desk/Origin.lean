import YieldVault.Proofs.Desk.Custody

/-!
# Faithful signatures

A service that signs what it was given keeps every action on its way: an action in flight always has
a flow that drives it, and what that flow confirms is the request that was submitted. Such a flow goes
back to one submission, and its request is what the form said then.
-/

namespace YieldVault

namespace Desk

/-- No action in flight was lost or confused with another. -/
structure Driven (d : Desk) : Prop where
  same : ∀ {i r signed t}, d.flow? i = some (.confirming r signed t) → signed.request = r
  flow : ∀ {k}, (d.session.slot k).phase.inFlight = true →
    ∃ i f r t, d.flow? i = some f ∧ f.action? = some (r, t) ∧ r.kind = k

theorem driven_ofSession {s : Session} (h : s.state = .initial) : (ofSession s).Driven := by
  refine ⟨fun hf => (by cases hf), fun {k} hk => ?_⟩
  rw [show (ofSession s).session.slot k = (State.initial.form k).slot from by rw [← h]; rfl] at hk
  cases k <;> cases hk

namespace Driven

variable {d : Desk}

theorem awaits (h : d.Driven) (hc : d.Custody) {i : FlowId} {r : Request} {signed : Signed} {t : Token}
    (hf : d.flow? i = some (.confirming r signed t)) : d.session.state.Awaits signed := by
  have hh := hc.holds hf rfl
  have hs := h.same hf
  subst hs
  refine ⟨Slot.isCurrent_iff.mpr ⟨_, hh.request, rfl⟩, ?_⟩
  rw [show d.session.state.phase signed.request.kind = .submitted signed.reference from hh.phase]
  rfl

theorem put_plain (h : d.Driven) {s : Session} {n : Nat} {i : FlowId} {progress : Progress}
    (hp : progress.IsPlain) (free : ∀ f, d.flow? i = some f → f.action? = none)
    (hs : ∀ k, (s.slot k).phase.inFlight = true → (d.session.slot k).phase.inFlight = true) :
    ({ d with session := s, started := n }.put i progress).Driven := by
  refine ⟨fun {_ r signed t} hf => ?_, fun {k} hk => ?_⟩
  · have ha : (Flow.confirming r signed t).action? = some (r, t) := rfl
    exact h.same (flow?_of_put_plain hp hf ha)
  · rw [put_session] at hk
    obtain ⟨j, f, r, t, hf, ha, hr⟩ := h.flow (hs k hk)
    have hj : j ≠ i := fun he => by
      have := free f (he ▸ hf)
      rw [ha] at this; cases this
    exact ⟨j, f, r, t, (flow?_put_of_ne _ hj _).trans hf, ha, hr⟩

theorem turn (h : d.Driven) {i : FlowId} {f : Flow} {r : Request} {t : Token} (hf : d.flow? i = some f)
    (ha : f.action? = some (r, t)) {s : Session} {progress : Progress}
    (other : ∀ k, k ≠ r.kind → s.slot k = d.session.slot k)
    (same : ∀ r' signed u, ({ d with session := s }.put i progress).flow? i = some (.confirming r' signed u) →
      signed.request = r')
    (on : (s.slot r.kind).phase.inFlight = true →
      ∃ g, ({ d with session := s }.put i progress).flow? i = some g ∧ g.action? = some (r, t)) :
    ({ d with session := s }.put i progress).Driven := by
  refine ⟨fun {j r' signed u} hg => ?_, fun {k} hk => ?_⟩
  · by_cases hj : j = i
    · subst hj; exact same r' signed u hg
    · rw [flow?_put_of_ne _ hj] at hg; exact h.same hg
  · rw [put_session] at hk
    by_cases hr : k = r.kind
    · obtain ⟨g, hg, hb⟩ := on (hr ▸ hk)
      exact ⟨i, g, r, t, hg, hb, hr.symm⟩
    · have hs : (d.session.slot k).phase.inFlight = true := by rw [← other k hr]; exact hk
      obtain ⟨j, g, r', u, hg, hb, hk'⟩ := h.flow hs
      have hj : j ≠ i := fun he => by
        rw [he, hf] at hg
        cases hg
        rw [ha] at hb
        cases hb
        exact hr hk'.symm
      exact ⟨j, g, r', u, (flow?_put_of_ne _ hj _).trans hg, hb, hk'⟩

theorem of_moves (h : d.Driven) (hc : d.Custody) (hn : d.Numbered) {step : Step} {d' : Desk}
    (hm : d.Moves step d') (hb : d.Brings Signed.Faithful step) : d'.Driven := by
  cases hm with
  | passed _ quiet plain free => exact h.put_plain plain free fun k hk => by rw [← quiet.slot k]; exact hk
  | taken _ takes plain free => exact h.put_plain plain free fun k hk => by rw [← takes.slot k]; exact hk
  | @released s kind releases =>
    refine ⟨h.same, fun {k} hk => h.flow ?_⟩
    by_cases hr : k = kind
    · subst hr
      rw [show (s.slot k).phase = .idle from by rw [releases.slot]] at hk
      cases hk
    · rw [← releases.other k hr]; exact hk
  | @begun s kind begins =>
    refine ⟨fun {j r signed t} hf => ?_, fun {k} hk => ?_⟩
    · rw [flow?_put_waiting] at hf
      split at hf
      · cases hf
      · exact h.same hf
    · rw [put_session] at hk
      by_cases hr : k = kind
      · exact ⟨d.started, _, d.session.request kind, _, flow?_put_waiting_self .., rfl, hr.symm⟩
      · have hs : (d.session.slot k).phase.inFlight = true := by rw [← begins.other k hr]; exact hk
        obtain ⟨j, g, r, u, hg, hb, hk'⟩ := h.flow hs
        have hj : j ≠ d.started := Nat.ne_of_lt (hn.lt hg)
        exact ⟨j, g, r, u, (flow?_put_of_ne _ hj _).trans hg, hb, hk'⟩
  | @driven i f r t _ _ x flow action handling =>
    -- a flow and its slot end together
    have ended : ∀ {s : Session} {o : Outcome}, d.session.Turns r.kind s →
        (s.slot r.kind).phase.inFlight = false →
        ({ d with session := s }.put i (.ended o)).Driven := fun turns hk =>
      h.turn flow action turns.other (fun _ _ _ hg => by rw [flow?_put_ended_self] at hg; cases hg)
        fun hk' => by rw [hk] at hk'; cases hk'
    have turns := handling.turns
    cases handling with
    | unmoved _ => exact h
    | rejected reason _ => exact ended turns (by rw [Session.commit_slot, State.slot_withSlot]; rfl)
    | signed _ =>
      refine h.turn flow action turns.other (fun _ _ _ hg => ?_) fun _ => ?_
      · rw [flow?_put_waiting_self] at hg
        cases hg
        exact hb.signature flow
      · exact ⟨_, flow?_put_waiting_self .., rfl⟩
    | settled _ _ _ _ _ slot _ => exact ended turns (by rw [Session.commit_slot, slot]; rfl)
    | stray _ hs => exact absurd (h.awaits hc flow) hs

end Driven

/-! ## Runs with faithful signatures -/

/-- All that holds between two steps of a run with faithful signatures. -/
structure Sound (d : Desk) : Prop where
  custody : d.Custody
  numbered : d.Numbered
  driven : d.Driven

theorem sound_ofSession {s : Session} (h : s.state = .initial) : (ofSession s).Sound :=
  ⟨custody_ofSession h, numbered_ofSession s, driven_ofSession h⟩

namespace Sound

variable {d : Desk} (h : d.Sound)

include h

/-- What holds at first and is kept by every step of a run with faithful signatures, holds after the run. -/
theorem induction (Inv : List Step → Prop) (h₀ : Inv [])
    (hstep : ∀ before step, (d.run before).Sound → (d.run before).Brings Signed.Faithful step →
      (d.run before).Moves step (d.run (before ++ [step])) → Inv before → Inv (before ++ [step]))
    {steps : List Step} (hs : d.Signs Signed.Faithful steps) : Inv steps ∧ (d.run steps).Driven :=
  h.custody.induction Signed.Faithful.own h.numbered (fun xs => Inv xs ∧ (d.run xs).Driven) ⟨h₀, h.driven⟩
    (fun before step hc hn hb hm ⟨hi, hd⟩ =>
      ⟨hstep before step ⟨hc, hn, hd⟩ hb hm hi, hd.of_moves hc hn hm hb⟩) hs

theorem run {steps : List Step} (hs : d.Signs Signed.Faithful steps) : (d.run steps).Sound := by
  obtain ⟨hc, hn⟩ := h.custody.run Signed.Faithful.own h.numbered hs
  exact ⟨hc, hn, (h.induction (fun _ => True) trivial (fun _ _ _ _ _ _ => trivial) hs).2⟩

end Sound

/-! ## Submissions -/

/-- The flow `i` was started by a submission after `first`, and its request is what the form said then. -/
structure Stems (d₀ : Desk) (history first rest : List Step) (i : FlowId) (r : Request) : Prop where
  history : history = first ++ .start (.submit r.kind) :: rest
  number : i = (d₀.run first).started
  request : r = (d₀.run first).session.request r.kind

theorem Stems.later {d₀ : Desk} {history first rest : List Step} {i : FlowId} {r : Request}
    (h : Stems d₀ history first rest i r) (step : Step) :
    Stems d₀ (history ++ [step]) first (rest ++ [step]) i r :=
  ⟨by rw [h.history]; simp, h.number, h.request⟩

/-- Every action has its submission. -/
def Rooted (d₀ : Desk) (history : List Step) : Prop :=
  ∀ i f r t, (d₀.run history).flow? i = some f → f.action? = some (r, t) →
    ∃ first rest, Stems d₀ history first rest i r

theorem Rooted.of_moves {d₀ : Desk} {before : List Step} (h : Rooted d₀ before) {step : Step}
    (hm : (d₀.run before).Moves step (d₀.run (before ++ [step]))) : Rooted d₀ (before ++ [step]) := by
  intro i f r t hf ha
  rcases hm.flow hf ha with ⟨g, hg, hb⟩ | ⟨rfl, hi, hr⟩
  · obtain ⟨first, rest, hst⟩ := h i g r t hg hb
    exact ⟨first, rest ++ [step], hst.later step⟩
  · exact ⟨before, [], rfl, hi, hr⟩

theorem run_rooted {s : Session} (hs : s.state = .initial) {steps : List Step}
    (h : (ofSession s).Signs Signed.Faithful steps) : Rooted (ofSession s) steps :=
  ((sound_ofSession hs).induction (Rooted (ofSession s)) (fun _ _ _ _ hf => (by cases hf))
    (fun _ _ _ _ hm hr => hr.of_moves hm) h).1

end Desk

end YieldVault
