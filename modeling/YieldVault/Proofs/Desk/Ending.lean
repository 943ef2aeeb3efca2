import YieldVault.Proofs.Desk.Origin
import YieldVault.Proofs.Desk.Path

/-!
# From submission to end

An action that was submitted is driven by its own flow, alone of its kind, until it ends. It ends once,
settled or rejected, and its submission answers with that end.
-/

namespace YieldVault.Desk

/-- The flow `i` drives an action of this kind. -/
def Drives (d : Desk) (kind : Kind) (i : FlowId) : Prop :=
  ∃ f r t, d.flow? i = some f ∧ f.action? = some (r, t) ∧ r.kind = kind

variable {d : Desk}

theorem Custody.drives_unique (h : d.Custody) {kind : Kind} {i j : FlowId} (hi : d.Drives kind i)
    (hj : d.Drives kind j) : i = j := by
  obtain ⟨f, r, t, hf, ha, hr⟩ := hi
  obtain ⟨g, r', u, hg, hb, hr'⟩ := hj
  refine Classical.byContradiction fun hij => ?_
  exact h.kind_ne hg hb hf ha hij (hr.trans hr'.symm)

theorem Sound.inFlight_iff_drives (h : d.Sound) (kind : Kind) :
    (d.session.state.phase kind).inFlight = true ↔ ∃ i, d.Drives kind i := by
  constructor
  · intro hk
    obtain ⟨i, f, r, t, hf, ha, hr⟩ := h.driven.flow (k := kind) hk
    exact ⟨i, f, r, t, hf, ha, hr⟩
  · rintro ⟨i, f, r, t, hf, ha, rfl⟩
    exact h.custody.inFlight hf ha

/-- The action `r` was in flight in `d`, and in `d'` it has come to its end `p`. -/
structure Ends (d : Desk) (r : Request) (p : Phase) (d' : Desk) : Prop where
  held : (d.session.slot r.kind).request = some r
  inFlight : (d.session.slot r.kind).phase.inFlight = true
  request : (d'.session.slot r.kind).request = some r
  phase : (d'.session.slot r.kind).phase = p
  terminal : p.isTerminal = true

theorem Sound.goes_on_or_ends (h : d.Sound) {d' : Desk} {step : Step} (hm : d.Moves step d')
    {i : FlowId} {f : Flow} {r : Request} {t : Token} (hf : d.flow? i = some f)
    (ha : f.action? = some (r, t)) :
    (∃ g, d'.flow? i = some g ∧ g.action? = some (r, t)) ∨
      ∃ p, d.Ends r p d' ∧ d'.outcome? i = some (.submitted (.ok (.finished p))) := by
  rcases hm.stays_or_driven h.numbered hf ha with stays | ⟨_, _, x, rfl, handling, rfl⟩
  · exact .inl ⟨f, stays, ha⟩
  · have hh := h.custody.holds hf ha
    have turns := handling.turns
    -- the phase that is answered is read from the slot after its turn
    have ends : ∀ {s p}, d.session.Turns r.kind s → (s.slot r.kind).phase = p → p.isTerminal = true →
        d.Ends r p ({ d with session := s }.put i (.finished p)) := fun turns hp ht =>
      ⟨hh.request, h.custody.inFlight hf ha, by rw [put_session, turns.request, hh.request],
        by rw [put_session, hp], ht⟩
    cases handling with
    | unmoved _ => exact .inl ⟨f, hf, ha⟩
    | signed _ => exact .inl ⟨_, flow?_put_waiting_self .., rfl⟩
    | rejected reason _ =>
      have hp := ends turns (by rw [Session.commit_slot, State.slot_withSlot]) rfl
      exact .inr ⟨_, hp, h.numbered.outcome?_ended hf _⟩
    | settled _ _ _ _ _ slot _ =>
      have hp := ends turns (by rw [Session.commit_slot, slot]) rfl
      exact .inr ⟨_, hp, h.numbered.outcome?_ended hf _⟩
    | stray _ hs => exact absurd (h.driven.awaits h.custody hf) hs

/-! ## Submissions -/

/-- What has become of the action that was submitted in `d`. -/
inductive Fate (d : Desk) (kind : Kind) (after : List Step) : Prop
  | driven {f : Flow} {t : Token}
      (flow : ((d.step (.start (.submit kind))).run after).flow? d.started = some f)
      (action : f.action? = some (d.session.request kind, t))
  | ended {mid rest : List Step} {step : Step} {p : Phase} (split : after = mid ++ step :: rest)
      (ends : ((d.step (.start (.submit kind))).run mid).Ends (d.session.request kind) p
        ((d.step (.start (.submit kind))).run (mid ++ [step])))
      (outcome : ((d.step (.start (.submit kind))).run after).outcome? d.started =
        some (.submitted (.ok (.finished p))))

theorem Fate.begin (h : d.Sound) {kind : Kind} (hd : (d.step (.start (.submit kind))).Drives kind d.started) :
    Fate d kind [] := by
  obtain ⟨f, r, t, hf, ha, rfl⟩ := hd
  rcases (h.custody.moves h.numbered _).flow hf ha with ⟨g, hg, _⟩ | ⟨_, _, hr⟩
  · rw [h.numbered.flow?_started] at hg; cases hg
  · exact .driven hf (by rw [ha, ← hr])

theorem Fate.snoc {kind : Kind} {after : List Step} (h : Fate d kind after) {step : Step}
    (sound : ((d.step (.start (.submit kind))).run after).Sound)
    (hm : ((d.step (.start (.submit kind))).run after).Moves step
      ((d.step (.start (.submit kind))).run (after ++ [step]))) : Fate d kind (after ++ [step]) := by
  cases h with
  | ended split ends outcome =>
    exact .ended (by rw [split, List.append_assoc]; rfl) ends (hm.outcome? outcome)
  | driven flow action =>
    rcases sound.goes_on_or_ends hm flow action with ⟨g, hg, hb⟩ | ⟨p, ends, outcome⟩
    · exact .driven hg hb
    · exact .ended rfl ends outcome

theorem Sound.fate (h : d.Sound) {kind : Kind} (hd : (d.step (.start (.submit kind))).Drives kind d.started)
    {after : List Step} (hs : d.Signs Signed.Faithful (.start (.submit kind) :: after)) :
    Fate d kind after := by
  have h₁ : (d.step (.start (.submit kind))).Sound :=
    h.run (show d.Signs Signed.Faithful [.start (.submit kind)] from ⟨hs.1, trivial⟩)
  exact (h₁.induction (Fate d kind) (.begin h hd) (fun _ _ sound _ hm hf => hf.snoc sound hm) hs.2).1

/-- The submission in `d` has answered with the end of the very action that it began: some step after it found
the action in flight and left it in the phase that was answered. -/
def Answers (d : Desk) (kind : Kind) (after : List Step) (o : Outcome) : Prop :=
  ∃ mid step rest p, after = mid ++ step :: rest ∧ o = .submitted (.ok (.finished p)) ∧
    ((d.step (.start (.submit kind))).run mid).Ends (d.session.request kind) p
      ((d.step (.start (.submit kind))).run (mid ++ [step]))

theorem Fate.answers {kind : Kind} {after : List Step} (h : Fate d kind after)
    (hn : ((d.step (.start (.submit kind))).run after).Numbered) {o : Outcome}
    (ho : ((d.step (.start (.submit kind))).run after).outcome? d.started = some o) :
    Answers d kind after o := by
  cases h with
  | driven flow _ => exact absurd (mem_key_of_lookup ho) (hn.not_ended flow)
  | @ended mid rest step p split ends outcome =>
    rw [outcome] at ho
    exact ⟨mid, step, rest, p, split, (Option.some.inj ho).symm, ends⟩

/-! ## Runs -/

/-- All that is done and published about actions in a run. -/
structure Orderly (d₀ : Desk) (steps : List Step) : Prop where
  /-- There is at most one action of a kind in flight. -/
  single : ∀ kind i j, (d₀.run steps).Drives kind i → (d₀.run steps).Drives kind j → i = j
  busy : ∀ kind, ((d₀.run steps).session.state.phase kind).inFlight = true ↔ ∃ i, (d₀.run steps).Drives kind i
  path : ∀ kind, ∃ blocks : List (List Phase), (∀ b ∈ blocks, Block b) ∧
    (d₀.published steps).filterMap (Event.phase? kind) <+: blocks.flatten
  /-- A submission that began an action and has come to an end answers with the end of that action. -/
  answers : ∀ first kind after o, steps = first ++ .start (.submit kind) :: after →
    ((d₀.run first).step (.start (.submit kind))).Drives kind (d₀.run first).started →
    (d₀.run steps).outcome? (d₀.run first).started = some o → Answers (d₀.run first) kind after o
  accounted : Accounted (d₀.published steps)
  /-- Whoever opens a receiver and keeps it gets all that is published from then on. -/
  heard : ∀ before after, steps = before ++ .watch .openEvents :: after →
    (∀ step ∈ after, step.Spares (d₀.run before).session.bus.subscribe.1) →
    d₀.published steps = d₀.published before ++ (d₀.run steps).stream (d₀.run before).session.bus.subscribe.1

/-- Every run is orderly. -/
theorem actions_end_once {settings : Settings} {s : Session} (hs : Session.open? settings = .ok s)
    {steps : List Step} (faithful : (ofSession s).Signs Signed.Faithful steps) :
    Orderly (ofSession s) steps := by
  have hi := (Session.open?_eq hs).1
  have sound := (sound_ofSession hi).run faithful
  have changes : State.Changes .initial ((ofSession s).published steps)
      ((ofSession s).run steps).session.state := by
    rw [← hi]
    exact ((ofSession s).run_tells steps).changes
  refine ⟨fun kind i j hi hj => sound.custody.drives_unique hi hj, sound.inFlight_iff_drives,
    fun kind => (changes.path kind).isPrefix, fun first kind after o he hd ho => ?_, changes.accounted,
    fun before after he alone => ?_⟩
  · subst he
    obtain ⟨hf, ha⟩ := signs_append.mp faithful
    rw [run_append] at ho sound
    exact (((sound_ofSession hi).run hf).fate hd ha).answers sound.numbered ho
  · subst he
    exact published_eq_stream _ before alone

/-- The visitor's receiver is closed before the actions end. -/
def closedVisit : List Step := .watch .openEvents :: visit ++ .watch .closeEvents :: visitEnd

theorem actions_end_once_closedVisit :
    ((ofSession newSession).published closedVisit |>.filterMap (Event.phase? .deposit)).length = 4 ∧
      (((ofSession newSession).run closedVisit).stream 0 |>.filterMap (Event.phase? .deposit)).length = 2 ∧
      (((ofSession newSession).run closedVisit).outcome? 2).isSome = true ∧
      Orderly (ofSession newSession) closedVisit := by
  have faithful : (ofSession newSession).Signs Signed.Faithful closedVisit := by decide +kernel
  exact ⟨by decide +kernel, by decide +kernel, by decide +kernel,
    actions_end_once (show Session.open? .standard = .ok newSession from rfl) faithful⟩

end YieldVault.Desk
