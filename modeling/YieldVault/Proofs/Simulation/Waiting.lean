import YieldVault.Proofs.Desk.Tokens
import YieldVault.Simulation.Run

/-!
# The steps of a simulation

A simulation runs its desk like any other: every end of a wait is a signal to a flow. While one flow waits and
all others wait for longer, what happens next is decided by that flow alone. Its wait is cut short as soon as
its token is cancelled; otherwise it ends at its instant, and not before.
-/

namespace YieldVault

namespace Wait

theorem wake_add (c delay limit : Nat) :
    (⟨c + delay, some (c + limit)⟩ : Wait).wake = c + min delay limit := by
  simp [wake, Nat.add_min_add_left]

/-- An answer that comes at the limit is not late. -/
theorem look_wake_add (c delay limit : Nat) :
    (⟨c + delay, some (c + limit)⟩ : Wait).look (c + min delay limit) false =
      some (if delay ≤ limit then .completed else .timedOut) := by
  unfold look
  by_cases hd : delay ≤ limit
  · simp [hd]
  · have hl : min delay limit = limit := by omega
    simp [hd, hl]

end Wait

namespace Simulation

/-! ## Reachable simulations -/

/-- Where an opened session can get to in any world, whatever is asked of it and whenever. -/
inductive Reached : Simulation → Prop
  | opened {settings : Settings} {session : Session} (h : Session.open? settings = .ok session)
      (world : World) (moment : Nat → Moment) : Reached (ofSession session world moment)
  | started {s : Simulation} (h : Reached s) (e : Errand) : Reached (s.start e).1
  | acted {s : Simulation} (h : Reached s) (a : Action) : Reached (s.act a).1
  | watched {s : Simulation} (h : Reached s) (w : Watch) : Reached { s with desk := s.desk.step (.watch w) }
  | stepped {s s' : Simulation} (h : Reached s) {bound : Option Nat}
      (hs : s.step? bound = some s') : Reached s'
  | later {s : Simulation} (h : Reached s) (clock : Nat) : Reached { s with clock := clock }
  | elsewhere {s : Simulation} (h : Reached s) (world : World) : Reached { s with world := world }

theorem ask_desk (s : Simulation) (i : FlowId) (before : Option Nat) : (s.ask i before).desk = s.desk := by
  unfold ask
  split <;> rfl

theorem ask_waits (s : Simulation) (i : FlowId) (before : Option Nat) {w : Waiting}
    (h : w ∈ (s.ask i before).waits) :
    w ∈ s.waits ∨ w.flow = i ∧ ∃ f, s.desk.flow? i = some f := by
  unfold ask at h
  split at h
  · exact .inl h
  · rename_i f hf
    rcases List.mem_append.mp h with h | h
    · exact .inl h
    · rw [List.mem_singleton] at h
      exact .inr ⟨by rw [h], f, hf⟩

theorem finishWait_desk (s : Simulation) (w : Waiting) (e : Wait.End) :
    (s.finishWait w e).desk = s.desk.step (.wake w.flow (s.signal w e).1 (s.moment s.clock)) := ask_desk ..

theorem mem_of_earliest? {ws : List Waiting} {w : Waiting} (h : earliest? ws = some w) : w ∈ ws := by
  induction ws generalizing w with
  | nil => cases h
  | cons v ws ih =>
    unfold earliest? at h
    split at h
    · cases h
      exact List.mem_cons_self
    · rename_i u hu
      split at h
      · cases h
        exact List.mem_cons_of_mem v (ih hu)
      · cases h
        exact List.mem_cons_self

theorem mem_of_cancelled? {s : Simulation} {w : Waiting} (h : s.cancelled? = some w) : w ∈ s.waits := by
  obtain ⟨t, _, ht⟩ := List.exists_of_findSome?_eq_some h
  exact List.mem_of_find?_eq_some ht

/-- A step ends one of the waits. -/
theorem step?_finishes {s s' : Simulation} {bound : Option Nat} (h : s.step? bound = some s') :
    ∃ clock, ∃ w ∈ s.waits, ∃ e, s' = { s with clock := clock }.finishWait w e := by
  unfold step? at h
  split at h
  · rename_i w hw
    cases h
    exact ⟨s.clock, w, mem_of_cancelled? hw, .cancelled, rfl⟩
  · split at h
    · cases h
    · rename_i w hw
      dsimp only at h
      split at h
      · obtain ⟨e, _, rfl⟩ := Option.map_eq_some_iff.mp h
        exact ⟨_, w, mem_of_earliest? hw, e, rfl⟩
      · cases h

theorem Reached.desk {s : Simulation} (h : Reached s) :
    ∃ settings session steps, Session.open? settings = .ok session ∧
      s.desk = (Desk.ofSession session).run steps := by
  have snoc : ∀ (step : Desk.Step) {d d' : Desk}, d' = d.step step →
      (∃ settings session steps, Session.open? settings = .ok session ∧
        d = (Desk.ofSession session).run steps) →
      ∃ settings session steps, Session.open? settings = .ok session ∧
        d' = (Desk.ofSession session).run steps := by
    rintro step d d' rfl ⟨settings, session, steps, hs, rfl⟩
    exact ⟨settings, session, steps ++ [step], hs, (Desk.run_snoc ..).symm⟩
  induction h with
  | @opened settings session hs world moment => exact ⟨settings, session, [], hs, rfl⟩
  | started _ e ih => exact snoc (.start e) (ask_desk ..) ih
  | acted _ a ih => exact snoc (.act a) rfl ih
  | watched _ w ih => exact snoc (.watch w) rfl ih
  | stepped _ hstep ih =>
    obtain ⟨clock, w, _, e, rfl⟩ := step?_finishes hstep
    exact snoc _ (finishWait_desk ..) ih
  | later _ _ ih => exact ih
  | elsewhere _ _ ih => exact ih

theorem Reached.numbered {s : Simulation} (h : Reached s) : s.desk.Numbered := by
  obtain ⟨_, session, steps, _, hd⟩ := h.desk
  rw [hd]
  exact Desk.run_numbered session steps

theorem Reached.stamped {s : Simulation} (h : Reached s) : s.desk.Stamped := by
  obtain ⟨_, session, steps, hs, hd⟩ := h.desk
  rw [hd]
  exact Desk.run_stamped hs steps

/-- Only a flow that was started waits. -/
theorem Reached.waits_started {s : Simulation} (h : Reached s) : ∀ w ∈ s.waits, w.flow < s.desk.started := by
  induction h with
  | opened _ _ _ => intro w hw; cases hw
  | @started s _ e ih =>
    intro w hw
    have hd : (s.start e).1.desk.started = s.desk.started + 1 := by
      rw [show (s.start e).1.desk = s.desk.start e from ask_desk ..]
      exact Desk.put_started ..
    rw [hd]
    rcases ask_waits _ _ _ hw with hold | ⟨hi, _⟩
    · exact Nat.lt_succ_of_lt (ih w hold)
    · exact hi ▸ Nat.lt_succ_self _
  | acted _ a ih => exact ih
  | watched _ w ih => exact ih
  | @stepped s _ _ _ hstep ih =>
    obtain ⟨clock, v, hv, e, rfl⟩ := step?_finishes hstep
    intro w hw
    rw [finishWait_desk, show ∀ d : Desk, (d.step (.wake v.flow _ _)).started = d.started from
      fun d => Desk.wake_started ..]
    rcases ask_waits _ _ _ hw with hold | ⟨hi, _⟩
    · exact ih w (List.mem_filter.mp hold).1
    · exact hi ▸ ih v hv
  | later _ _ ih => exact ih
  | elsewhere _ _ ih => exact ih

/-! ## One flow among others that wait for longer -/

variable {s : Simulation} {i : FlowId} {f : Flow} {t : Token} {last : Nat} {others : List Waiting}

/-- None of the others is the flow `i`, is cancelled or could be by the token `t`, or ends up
to the instant `last`. -/
structure Calm (s : Simulation) (i : FlowId) (t : Token) (last : Nat) (others : List Waiting) : Prop where
  apart : ∀ o ∈ others, o.flow ≠ i
  late : ∀ o ∈ others, last < o.wait.wake
  free : ∀ o ∈ others, ∀ u, (s.desk.flow? o.flow).bind Flow.token? = some u →
    u ≠ t ∧ s.desk.session.tokens.isCancelled u = false

/-- The flow `i` waits for what was promised, until the end of its wait or of its time. -/
structure Poised (s : Simulation) (i : FlowId) (f : Flow) (t : Token) (wait : Wait)
    (promise : Promise) (last : Nat) (others : List Waiting) : Prop where
  flow : s.desk.flow? i = some f
  token : f.token? = some t
  waits : s.waits = others ++ [⟨i, wait, promise⟩]
  calm : s.Calm i t last others
  wake_le : wait.wake ≤ last

theorem Calm.not_cancelled (h : s.Calm i t last others) {u : Token}
    (hu : s.desk.session.tokens.isCancelled u = true) :
    others.find? (fun w => (s.desk.flow? w.flow).bind Flow.token? == some u) = none := by
  rw [List.find?_eq_none]
  intro o ho he
  rw [beq_iff_eq] at he
  rw [(h.free o ho u he).2] at hu
  cases hu

theorem Calm.cancelled?_eq_none (h : s.Calm i t last others) (hw : s.waits = others) :
    s.cancelled? = none := by
  unfold cancelled?
  rw [List.findSome?_eq_none_iff]
  intro u hu
  unfold waitOf?
  rw [hw]
  apply h.not_cancelled
  simpa [Tokens.isCancelled] using hu

/-- Where nobody waits but the others, nothing happens. -/
theorem Calm.step?_eq_none (h : s.Calm i t last others) (hw : s.waits = others) {b : Nat} (hb : b ≤ last) :
    s.step? (some b) = none := by
  unfold step?
  rw [h.cancelled?_eq_none hw]
  dsimp only
  split
  · rfl
  · rename_i w he
    have hlate := h.late w (hw ▸ mem_of_earliest? he)
    rw [if_neg]
    simp only [Option.all_some, decide_eq_true_eq]
    omega

theorem findSome?_only {α β : Type} [DecidableEq α] {g : α → Option β} {a : α} {b : β} {l : List α}
    (h : ∀ x ∈ l, g x = if x = a then some b else none) : l.findSome? g = if a ∈ l then some b else none := by
  induction l with
  | nil => rfl
  | cons x l ih =>
    rw [List.findSome?_cons, h x List.mem_cons_self, ih fun y hy => h y (List.mem_cons_of_mem x hy)]
    by_cases hx : x = a
    · simp [hx]
    · simp [hx, Ne.symm hx]

variable {wait : Wait} {promise : Promise}

theorem Poised.cancelled?_eq (h : s.Poised i f t wait promise last others) :
    s.cancelled? = if s.desk.session.tokens.isCancelled t then some ⟨i, wait, promise⟩ else none := by
  have own : ∀ u ∈ s.desk.session.tokens.cancelled,
      s.waitOf? u = if u = t then some ⟨i, wait, promise⟩ else none := by
    intro u hu
    unfold waitOf?
    rw [h.waits, List.find?_append, h.calm.not_cancelled (by simpa [Tokens.isCancelled] using hu)]
    by_cases hut : u = t
    · simp [h.flow, h.token, hut]
    · simp [h.flow, h.token, hut, Ne.symm hut]
  unfold cancelled?
  rw [findSome?_only own]
  simp [Tokens.isCancelled]

theorem earliest?_append_of_lt {ws : List Waiting} {v : Waiting} (h : ∀ w ∈ ws, v.wait.wake < w.wait.wake) :
    earliest? (ws ++ [v]) = some v := by
  induction ws with
  | nil => rfl
  | cons w ws ih =>
    rw [List.cons_append, earliest?, ih fun u hu => h u (List.mem_cons_of_mem w hu)]
    exact if_pos (h w List.mem_cons_self)

theorem Poised.step?_cancelled (h : s.Poised i f t wait promise last others)
    (hc : s.desk.session.tokens.isCancelled t = true) (bound : Option Nat) :
    s.step? bound = some (s.finishWait ⟨i, wait, promise⟩ .cancelled) := by
  unfold step?
  rw [h.cancelled?_eq, if_pos hc]

theorem Poised.step?_eq (h : s.Poised i f t wait promise last others)
    (hc : s.desk.session.tokens.isCancelled t = false) (bound : Option Nat) :
    s.step? bound =
      if bound.all (max s.clock wait.wake ≤ ·) then
        (wait.look (max s.clock wait.wake) false).map
          ({ s with clock := max s.clock wait.wake }.finishWait ⟨i, wait, promise⟩)
      else none := by
  have first : earliest? s.waits = some ⟨i, wait, promise⟩ := by
    rw [h.waits]
    apply earliest?_append_of_lt
    intro w hw
    exact Nat.lt_of_le_of_lt h.wake_le (h.calm.late w hw)
  unfold step?
  rw [h.cancelled?_eq, if_neg (by simp [hc]), first]

theorem Poised.step?_early (h : s.Poised i f t wait promise last others)
    (hc : s.desk.session.tokens.isCancelled t = false) {b : Nat} (hb : b < wait.wake) :
    s.step? (some b) = none := by
  rw [h.step?_eq hc, if_neg]
  simp only [Option.all_some, decide_eq_true_eq]
  omega

theorem Poised.step?_due (h : s.Poised i f t wait promise last others)
    (hc : s.desk.session.tokens.isCancelled t = false) (hclock : s.clock ≤ wait.wake) {bound : Option Nat}
    (hb : bound.all (wait.wake ≤ ·)) :
    s.step? bound =
      (wait.look wait.wake false).map ({ s with clock := wait.wake }.finishWait ⟨i, wait, promise⟩) := by
  rw [h.step?_eq hc, Nat.max_eq_right hclock, if_pos hb]

/-! ## The end of a wait -/

theorem Calm.filter_ne (h : s.Calm i t last others) (wait : Wait) (promise : Promise) :
    (others ++ [(⟨i, wait, promise⟩ : Waiting)]).filter (·.flow != i) = others := by
  rw [List.filter_append, List.filter_eq_self.mpr]
  · simp
  · intro o ho
    simpa using h.apart o ho

/-- The others are as they were after a segment of the flow `i` that cancels nothing. -/
theorem Calm.of_desk {s' : Simulation} (h : s.Calm i t last others)
    (hf : ∀ j, j ≠ i → s'.desk.flow? j = s.desk.flow? j)
    (ht : s'.desk.session.tokens = s.desk.session.tokens) : s'.Calm i t last others := by
  refine ⟨h.apart, h.late, fun o ho u hu => ?_⟩
  rw [hf _ (h.apart o ho)] at hu
  rw [ht]
  exact h.free o ho u hu

theorem ask_eq (h : s.desk.flow? i = some f) (before : Option Nat) :
    s.ask i before =
      { s with
        world := (s.world.ask (f.call s.settings.chain)).2
        waits := s.waits ++ [⟨i, ⟨Wait.after s.clock (s.world.ask (f.call s.settings.chain)).1.delay,
          s.limitFor before f⟩, (s.world.ask (f.call s.settings.chain)).1.answer⟩] } := by
  unfold ask
  rw [h]

section Finish

variable {e : Wait.End} {signal : Signal} {world : World} {session : Session}

theorem Poised.finishWait_eq (h : s.Poised i f t wait promise last others)
    (hsig : s.signal ⟨i, wait, promise⟩ e = (signal, world)) {progress : Progress}
    (hr : s.desk.session.resume f signal (s.moment s.clock) = (session, progress)) :
    s.finishWait ⟨i, wait, promise⟩ e =
      { s with
        world := world
        waits := others
        desk := { s.desk with session := session }.put i progress }.ask i wait.limit := by
  unfold finishWait
  simp only [hsig, h.waits, h.calm.filter_ne, Desk.wake_eq h.flow, hr]

theorem Poised.finishWait_ended (h : s.Poised i f t wait promise last others)
    (hsig : s.signal ⟨i, wait, promise⟩ e = (signal, world)) {o : Outcome}
    (hr : s.desk.session.resume f signal (s.moment s.clock) = (session, .ended o)) :
    s.finishWait ⟨i, wait, promise⟩ e =
      { s with
        world := world
        waits := others
        desk := { s.desk with session := session }.put i (.ended o) } := by
  rw [h.finishWait_eq hsig hr]
  unfold ask
  rw [Desk.flow?_put_ended_self]

end Finish

/-! ## Runs -/

theorem steps_of_halt {bound : Option Nat} {stop : Simulation → Bool}
    (h : stop s = true ∨ s.step? bound = none) (n : Nat) : steps bound stop n s = s := by
  cases n with
  | zero => rfl
  | succ n =>
    unfold steps
    rcases h with h | h
    · simp [h]
    · simp [h]

theorem steps_of_step {s' : Simulation} {bound : Option Nat} {stop : Simulation → Bool} (hs : stop s = false)
    (h : s.step? bound = some s') (n : Nat) : steps bound stop (n + 1) s = steps bound stop n s' := by
  simp [steps, hs, h]

/-- What no step breaks holds after any number of them. -/
theorem steps_keeps {P : Simulation → Prop} {bound : Option Nat}
    (hP : ∀ {s s' : Simulation}, P s → s.step? bound = some s' → P s') (h : P s)
    (stop : Simulation → Bool) (n : Nat) :
    P (steps bound stop n s) := by
  induction n generalizing s with
  | zero => exact h
  | succ n ih =>
    unfold Simulation.steps
    split
    · exact h
    · split
      · rename_i s' hs
        exact ih (hP h hs)
      · exact h

theorem Reached.steps (h : Reached s) (bound : Option Nat) (stop : Simulation → Bool) (n : Nat) :
    Reached (steps bound stop n s) := steps_keeps (fun h hs => h.stepped hs) h stop n

theorem Reached.await (h : Reached s) (i : FlowId) : Reached (s.await i) := (h.steps ..).steps ..

theorem rank_le (h : s.desk.flow? i = some f) : f.rank ≤ s.rank := by
  have grows : ∀ (l : List (FlowId × Flow)) n, n ≤ l.foldl (fun n p => n + p.2.rank) n := by
    intro l
    induction l with
    | nil => exact fun n => Nat.le_refl n
    | cons p l ih => exact fun n => Nat.le_trans (Nat.le_add_right ..) (ih _)
  have holds : ∀ (l : List (FlowId × Flow)) n, l.lookup i = some f →
      f.rank ≤ l.foldl (fun n p => n + p.2.rank) n := by
    intro l
    induction l with
    | nil => exact fun n hl => by cases hl
    | cons p l ih =>
      obtain ⟨j, g⟩ := p
      intro n hl
      rw [List.lookup_cons] at hl
      split at hl
      · cases hl
        exact Nat.le_trans (Nat.le_add_left ..) (grows l _)
      · exact ih _ hl
  exact holds _ 0 h

end Simulation

end YieldVault
