import Mathlib.Data.List.Induction
import YieldVault.Proofs.Desk.Run

/-!
# Custody

Every action in flight is in the hands of one flow. The flow of an action holds the slot of its kind:
the slot has the action's request, phase and token. No other flow has the same request, the requests
of the slots carry ids that were issued, each its own, a slot in flight has a token, and a signature
that came in names no other action. While this is so a step can do one of five things only, and none
of them breaks it.
-/

namespace YieldVault

/-- The signature names the action that it was asked for, or none that the session knows. -/
def Signed.Own (r : Request) (signed : Signed) : Prop :=
  ∀ n, signed.request.trace = .issued n → signed.request.trace = r.trace

/-- The signature is for the request that it was asked for. -/
def Signed.Faithful (r : Request) (signed : Signed) : Prop := signed.request = r

instance (r : Request) (signed : Signed) : Decidable (Signed.Faithful r signed) :=
  inferInstanceAs (Decidable (signed.request = r))

theorem Signed.Faithful.own (r : Request) (signed : Signed) (h : Signed.Faithful r signed) :
    Signed.Own r signed :=
  fun _ _ => by rw [h]

namespace Desk

structure Custody (d : Desk) : Prop where
  holds : ∀ {i f r t}, d.flow? i = some f → f.action? = some (r, t) → d.session.Holds f r t
  alone : ∀ {i j f g r t u}, d.flow? i = some f → f.action? = some (r, t) → d.flow? j = some g →
    g.action? = some (r, u) → i = j
  traced : ∀ {k r}, (d.session.slot k).request = some r →
    r.kind = k ∧ ∃ n, n < d.session.traces ∧ r.trace = .issued n
  apart : ∀ {k k' r r'}, (d.session.slot k).request = some r → (d.session.slot k').request = some r' →
    r.trace = r'.trace → k = k'
  armed : ∀ {k}, (d.session.slot k).phase.inFlight = true → ∃ t, (d.session.slot k).token = some t
  own : ∀ {i r signed t}, d.flow? i = some (.confirming r signed t) → Signed.Own r signed

theorem custody_ofSession {s : Session} (h : s.state = .initial) : (ofSession s).Custody := by
  have empty : ∀ k, (ofSession s).session.slot k = Slot.empty k := fun k => by
    show (s.state.form k).slot = _
    rw [h]; cases k <;> rfl
  have nothing : ∀ {i f} {P : Prop}, (ofSession s).flow? i = some f → P := fun hf => by cases hf
  refine ⟨nothing, nothing, fun {k r} hr => ?_, fun {k _ _ _} hr => ?_, fun {k} hk => ?_, nothing⟩
  · rw [empty k] at hr; cases hr
  · rw [empty k] at hr; cases hr
  · rw [empty k] at hk; cases hk

namespace Custody

variable {d : Desk}

theorem inFlight (h : d.Custody) {i : FlowId} {f : Flow} {r : Request} {t : Token} (hf : d.flow? i = some f)
    (ha : f.action? = some (r, t)) : (d.session.slot r.kind).phase.inFlight = true := by
  rw [(h.holds hf ha).phase]; exact Flow.inFlight_phase ha

theorem kind_ne (h : d.Custody) {i j : FlowId} {f g : Flow} {r r' : Request} {t u : Token}
    (hf : d.flow? i = some f) (ha : f.action? = some (r, t)) (hg : d.flow? j = some g)
    (hb : g.action? = some (r', u)) (hij : j ≠ i) : r'.kind ≠ r.kind := fun hk => by
  have h' := (h.holds hg hb).request
  rw [hk, (h.holds hf ha).request] at h'
  cases h'
  exact hij (h.alone hg hb hf ha)

/-- A slot that waits for what a flow has signed is the flow's own. -/
theorem awaits (h : d.Custody) {i : FlowId} {r : Request} {signed : Signed} {t : Token}
    (hf : d.flow? i = some (.confirming r signed t)) (ha : d.session.state.Awaits signed) :
    signed.request.kind = r.kind ∧ signed.request.trace = r.trace := by
  obtain ⟨r', hr', ht⟩ := Slot.isCurrent_iff.mp ha.1
  obtain ⟨_, n, _, hn⟩ := h.traced (k := signed.request.kind) hr'
  have htr : signed.request.trace = r.trace := h.own hf n (ht ▸ hn)
  exact ⟨h.apart hr' (h.holds hf rfl).request (ht.trans htr), htr⟩

end Custody

/-! ## What a step can do -/

/-- The quote that a step brings, if the session takes it. -/
def taken? (d : Desk) : Step → Option Quote
  | .act (.refreshQuote q) => if (d.session.refreshQuote q).2.isOk then some q else none
  | .wake i (.reply (.snapshot (.ok snapshot))) _ => do
    let account ← (← d.flow? i).account?
    if (d.session.takeSnapshot account (.ok snapshot)).2.isOk then some snapshot.quote else none
  | _ => none

/-- All that a step can do. It passes by every action and the position, brings a new position, puts a
finished action away, begins an action, or drives one. -/
inductive Moves (d : Desk) : Step → Desk → Prop
  | passed {step : Step} {s : Session} {n : Nat} {i : FlowId} {progress : Progress}
      (untaken : d.taken? step = none) (quiet : d.session.Quiet s) (plain : progress.IsPlain)
      (free : ∀ f, d.flow? i = some f → f.action? = none) :
      Moves d step ({ d with session := s, started := n }.put i progress)
  | taken {step : Step} {s : Session} {i : FlowId} {progress : Progress} {q : Quote}
      (hq : d.taken? step = some q) (takes : d.session.Takes q s) (plain : progress.IsPlain)
      (free : ∀ f, d.flow? i = some f → f.action? = none) :
      Moves d step ({ d with session := s }.put i progress)
  | released {s : Session} {kind : Kind} (releases : d.session.Releases kind s) :
      Moves d (.act (.acknowledge kind)) { d with session := s }
  | begun {s : Session} {kind : Kind} (begins : d.session.Begins kind s) :
      Moves d (.start (.submit kind)) ({ d with session := s, started := d.started + 1 }.put d.started
        (.waiting (.signing (d.session.request kind) d.session.tokens.issued)))
  | driven {i : FlowId} {f : Flow} {r : Request} {t : Token} {signal : Signal} {now : Moment}
      {x : Session × Progress} (flow : d.flow? i = some f) (action : f.action? = some (r, t))
      (handling : d.session.Handling r t f signal x) :
      Moves d (.wake i signal now) ({ d with session := x.1 }.put i x.2)

theorem flow?_of_put_plain {d : Desk} {s : Session} {n : Nat} {i j : FlowId} {progress : Progress} {f : Flow}
    {x : Request × Token} (hp : progress.IsPlain)
    (hf : ({ d with session := s, started := n }.put i progress).flow? j = some f) (ha : f.action? = some x) :
    d.flow? j = some f := by
  by_cases hj : j = i
  · subst hj
    cases progress with
    | unmoved => exact hf
    | ended o => rw [flow?_put_ended_self] at hf; cases hf
    | waiting g =>
      rw [flow?_put_waiting_self] at hf
      have hg : g.action? = none := hp
      rw [Option.some.inj hf, ha] at hg; cases hg
  · rw [flow?_put_of_ne _ hj] at hf; exact hf

theorem Moves.flow {d d' : Desk} {step : Step} (hm : d.Moves step d') {i : FlowId} {f : Flow} {r : Request}
    {t : Token} (hf : d'.flow? i = some f) (ha : f.action? = some (r, t)) :
    (∃ g, d.flow? i = some g ∧ g.action? = some (r, t)) ∨
      step = .start (.submit r.kind) ∧ i = d.started ∧ r = d.session.request r.kind := by
  cases hm with
  | passed _ _ plain _ => exact .inl ⟨f, flow?_of_put_plain plain hf ha, ha⟩
  | taken _ _ plain _ => exact .inl ⟨f, flow?_of_put_plain plain hf ha, ha⟩
  | released _ => exact .inl ⟨f, hf, ha⟩
  | begun _ =>
    rw [flow?_put_waiting] at hf
    split at hf
    · cases hf
      cases ha
      exact .inr ⟨rfl, ‹_›, rfl⟩
    · exact .inl ⟨f, hf, ha⟩
  | @driven j g r' u _ _ x flow action handling =>
    by_cases hj : i = j
    · subst hj
      left
      cases handling with
      | unmoved _ => exact ⟨f, hf, ha⟩
      | signed _ =>
        rw [flow?_put_waiting_self] at hf
        cases hf
        cases ha
        exact ⟨_, flow, rfl⟩
      | rejected => rw [Progress.finished, flow?_put_ended_self] at hf; cases hf
      | settled => rw [Progress.finished, flow?_put_ended_self] at hf; cases hf
      | stray => rw [Progress.finished, flow?_put_ended_self] at hf; cases hf
    · rw [flow?_put_of_ne _ hj] at hf
      exact .inl ⟨f, hf, ha⟩

/-- The flow of an action stays where it is until it is driven itself. -/
theorem Moves.stays_or_driven {d d' : Desk} {step : Step} (hm : d.Moves step d')
    (hn : d.Numbered) {i : FlowId} {f : Flow} {r : Request} {t : Token} (hf : d.flow? i = some f)
    (ha : f.action? = some (r, t)) :
    d'.flow? i = some f ∨ ∃ signal now x, step = .wake i signal now ∧ d.session.Handling r t f signal x ∧
      d' = { d with session := x.1 }.put i x.2 := by
  have stay : ∀ {s n j progress}, j ≠ i →
      ({ d with session := s, started := n }.put j progress).flow? i = some f :=
    fun hj => (flow?_put_of_ne _ hj.symm _).trans hf
  have busy : ∀ {j}, (∀ g, d.flow? j = some g → g.action? = none) → j ≠ i := fun free he => by
    have := free f (he ▸ hf)
    rw [ha] at this; cases this
  cases hm with
  | passed _ _ _ free => exact .inl (stay (busy free))
  | taken _ _ _ free => exact .inl (stay (busy free))
  | released => exact .inl hf
  | begun => exact .inl (stay (Nat.ne_of_gt (hn.lt hf)))
  | @driven j _ _ _ signal now x flow action handling =>
    by_cases hj : j = i
    · subst hj
      rw [hf] at flow
      cases flow
      rw [ha] at action
      cases action
      exact .inr ⟨signal, now, x, rfl, handling, rfl⟩
    · exact .inl (stay hj)

theorem outcome?_put {d : Desk} {j : FlowId} {o : Outcome} (h : d.outcome? j = some o) {s : Session} {n : Nat}
    (i : FlowId) (progress : Progress) :
    ({ d with session := s, started := n }.put i progress).outcome? j = some o := by
  cases progress with
  | unmoved => exact h
  | waiting f => exact h
  | ended o' =>
    rw [outcome?_put_ended]
    show (d.outcome? j).or _ = _
    rw [h]; rfl

theorem Moves.outcome? {d d' : Desk} {step : Step} (hm : d.Moves step d') {j : FlowId} {o : Outcome}
    (h : d.outcome? j = some o) : d'.outcome? j = some o := by
  cases hm with
  | passed => exact outcome?_put h _ _
  | taken => exact outcome?_put h _ _
  | released => exact h
  | begun => exact outcome?_put h _ _
  | driven => exact outcome?_put h _ _

theorem Moves.still {d : Desk} (hn : d.Numbered) {step : Step} {s : Session} (untaken : d.taken? step = none)
    (quiet : d.session.Quiet s) : d.Moves step { d with session := s } :=
  .passed (n := d.started) (i := d.started) untaken quiet (show Progress.unmoved.IsPlain from trivial)
    fun f hf => by rw [hn.flow?_started] at hf; cases hf

theorem moves_act {d : Desk} (hn : d.Numbered) (a : Action) : d.Moves (.act a) (d.step (.act a)) := by
  have plain : a.isPlain = true → d.taken? (.act a) = none → d.Moves (.act a) (d.step (.act a)) := by
    intro ha ht
    exact .still hn ht (d.session.act_quiet ha)
  cases a with
  | refreshQuote q =>
    have ht := d.session.refreshQuote_taking q
    show d.Moves _ { d with session := (d.session.refreshQuote q).1 }
    cases hx : d.session.refreshQuote q with
    | mk s result =>
      rw [hx] at ht
      cases ht with
      | taken ht =>
        exact .taken (i := d.started) (by simp [taken?, hx, Except.isOk, Except.toBool]) ht
          (show Progress.unmoved.IsPlain from trivial) fun f hf => by rw [hn.flow?_started] at hf; cases hf
      | refused e =>
        exact .still hn (by simp [taken?, hx, Except.isOk, Except.toBool]) (.refl d.session)
  | acknowledge kind =>
    show d.Moves _ { d with session := (d.session.acknowledge kind).1 }
    rcases d.session.acknowledge_cases kind with he | hr
    · rw [he]; exact .still hn rfl (.refl d.session)
    · exact .released hr
  | cancelConnect => exact plain rfl rfl
  | acknowledgeConnection => exact plain rfl rfl
  | disconnect => exact plain rfl rfl
  | setInput _ _ => exact plain rfl rfl
  | beginInput _ _ => exact plain rfl rfl
  | completeInput _ => exact plain rfl rfl
  | fillMax _ => exact plain rfl rfl
  | cancel _ => exact plain rfl rfl

theorem moves_start {d : Desk} (hn : d.Numbered) (e : Errand) : d.Moves (.start e) (d.step (.start e)) := by
  have free : ∀ f, d.flow? d.started = some f → f.action? = none := fun f hf => by
    rw [hn.flow?_started] at hf; cases hf
  cases e with
  | connect => exact .passed rfl d.session.connect_passes.quiet d.session.connect_passes.plain free
  | refresh => exact .passed rfl d.session.refresh_passes.quiet d.session.refresh_passes.plain free
  | submit kind =>
    have hs := d.session.submit_submitting kind
    show d.Moves _ ({ d with session := (d.session.submit kind).1, started := d.started + 1 }.put d.started
      (d.session.submit kind).2)
    cases hx : d.session.submit kind with
    | mk s progress =>
      rw [hx] at hs
      cases hs with
      | refused hp => exact .passed rfl (.refl d.session) hp free
      | begun hb => exact .begun hb

theorem Custody.handling {d : Desk} (h : d.Custody) {i : FlowId} {f : Flow} {r : Request} {t : Token}
    (hf : d.flow? i = some f) (ha : f.action? = some (r, t)) (signal : Signal) (now : Moment) :
    d.session.Handling r t f signal (d.session.resume f signal now) :=
  d.session.resume_handling ha (h.holds hf ha) (fun _ he hw => h.awaits (he ▸ hf) hw) signal now

theorem Custody.moves_wake {d : Desk} (h : d.Custody) (hn : d.Numbered) (i : FlowId) (signal : Signal)
    (now : Moment) : d.Moves (.wake i signal now) (d.step (.wake i signal now)) := by
  show d.Moves _ (d.wake i signal now)
  cases hf : d.flow? i with
  | none =>
    rw [wake_eq_self hf]
    refine .still hn ?_ (.refl d.session)
    unfold taken?
    split <;> simp_all
  | some f =>
    rw [wake_eq hf]
    cases ha : f.action? with
    | some x =>
      obtain ⟨r, t⟩ := x
      exact .driven hf ha (h.handling hf ha signal now)
    | none =>
      have free : ∀ g, d.flow? i = some g → g.action? = none := fun g hg => by
        rw [hf] at hg
        cases hg
        exact ha
      rcases f.reads_or_not signal with ⟨snapshot, account, rfl, hac⟩ | hno
      · obtain ⟨progress, he, hp⟩ := d.session.resume_snapshot hac (.ok snapshot) now
        have ht := d.session.takeSnapshot_taking account snapshot
        rw [he]
        cases hx : d.session.takeSnapshot account (.ok snapshot) with
        | mk s result =>
          rw [hx] at ht
          cases ht with
          | taken ht =>
            exact .taken (by simp [taken?, hf, hac, hx, Except.isOk, Except.toBool]) ht hp free
          | refused e =>
            exact .passed (by simp [taken?, hf, hac, hx, Except.isOk, Except.toBool])
              (.refl d.session) hp free
      · have hp := d.session.resume_passes ha hno now
        refine .passed ?_ hp.quiet hp.plain free
        unfold taken?
        split
        · simp_all
        · simp_all
        · rfl

theorem Custody.moves {d : Desk} (h : d.Custody) (hn : d.Numbered) (step : Step) :
    d.Moves step (d.step step) := by
  cases step with
  | act a => exact moves_act hn a
  | start e => exact moves_start hn e
  | wake i signal now => exact h.moves_wake hn i signal now
  | watch w =>
    refine .still hn rfl ?_
    cases w <;> exact ⟨fun _ => rfl, rfl, rfl, fun _ ht => ht⟩

/-! ## Custody is kept -/

namespace Custody

variable {d : Desk}

theorem of_slots (h : d.Custody) {s : Session} {n : Nat}
    (hs : ∀ k, s.slot k = d.session.slot k ∨
      (d.session.slot k).phase.inFlight = false ∧ (s.slot k).request = none ∧ (s.slot k).phase = .idle)
    (ht : s.traces = d.session.traces) : Custody { d with session := s, started := n } := by
  have request : ∀ {k r}, (s.slot k).request = some r → (d.session.slot k).request = some r := by
    intro k r hr
    rcases hs k with hk | ⟨_, hk, _⟩
    · rw [← hk]; exact hr
    · rw [hk] at hr; cases hr
  refine ⟨fun {i f r t} hf ha => ?_, h.alone, fun {k r} hr => ?_,
    fun hr hr' => h.apart (request hr) (request hr'), fun {k} hf => ?_, h.own⟩
  · rcases hs r.kind with hk | ⟨hk, _⟩
    · exact (h.holds hf ha).of_slot hk
    · rw [h.inFlight hf ha] at hk; cases hk
  · show r.kind = k ∧ ∃ n, n < s.traces ∧ r.trace = .issued n
    rw [ht]; exact h.traced (request hr)
  · show ∃ t, (s.slot k).token = some t
    rcases hs k with hk | ⟨_, _, hk⟩
    · rw [hk]; exact h.armed (hk ▸ hf)
    · rw [show ({ d with session := s, started := n } : Desk).session.slot k = s.slot k from rfl, hk] at hf
      cases hf

theorem put_plain (h : d.Custody) {progress : Progress} (hp : progress.IsPlain) (i : FlowId) :
    (d.put i progress).Custody := by
  refine ⟨fun hf ha => ?_, fun hf ha hg hb => ?_, ?_, ?_, ?_, fun hf => h.own (flow?_of_put_plain hp hf rfl)⟩
  · rw [put_session]; exact h.holds (flow?_of_put_plain hp hf ha) ha
  · exact h.alone (flow?_of_put_plain hp hf ha) ha (flow?_of_put_plain hp hg hb) hb
  · rw [put_session]; exact h.traced
  · rw [put_session]; exact h.apart
  · rw [put_session]; exact h.armed

/-- A new action gets a slot that nobody holds and an id that nobody has. -/
theorem begin (h : d.Custody) {s : Session} {kind : Kind} (hb : d.session.Begins kind s)
    (i : FlowId) (n : Nat) :
    Custody ({ d with session := s, started := n }.put i
      (.waiting (.signing (d.session.request kind) d.session.tokens.issued))) := by
  have flow : ∀ {j f}, ({ d with session := s, started := n }.put i
      (.waiting (.signing (d.session.request kind) d.session.tokens.issued))).flow? j = some f →
      j = i ∧ f = .signing (d.session.request kind) d.session.tokens.issued ∨
        d.flow? j = some f := fun {j f} hf => by
    rw [flow?_put_waiting] at hf
    split at hf
    · exact .inl ⟨‹_›, (Option.some.inj hf).symm⟩
    · exact .inr hf
  have busy : ∀ {j f r t}, d.flow? j = some f → f.action? = some (r, t) → r.kind ≠ kind := fun hf ha hk => by
    have := h.inFlight hf ha
    rw [hk, hb.free] at this; cases this
  have fresh : ∀ {k r}, (d.session.slot k).request = some r → r.trace ≠ .issued d.session.traces := by
    intro k r hr he
    obtain ⟨_, n, hlt, hn⟩ := h.traced hr
    rw [hn] at he
    cases he
    exact Nat.lt_irrefl _ hlt
  -- the slots hold what they held, but for the new request in its own
  have request : ∀ {k r}, (s.slot k).request = some r →
      k = kind ∧ r = d.session.request kind ∨ (d.session.slot k).request = some r := fun {k r} hr => by
    by_cases hk : k = kind
    · subst hk
      rw [hb.slot] at hr
      exact .inl ⟨rfl, (Option.some.inj hr).symm⟩
    · rw [hb.other k hk] at hr; exact .inr hr
  refine ⟨fun {j f r t} hf ha => ?_, fun hf ha hg hc => ?_, fun {k r} hr => ?_,
    fun {k k' r r'} hr hr' he => ?_, fun {k} hf => ?_, fun hf => ?_⟩
  · rw [put_session]
    rcases flow hf with ⟨_, rfl⟩ | hf
    · cases ha
      exact hb.holds
    · exact (h.holds hf ha).of_slot (hb.other _ (busy hf ha))
  · rcases flow hf with ⟨hj, rfl⟩ | hf' <;> rcases flow hg with ⟨hj', rfl⟩ | hg'
    · rw [hj, hj']
    · cases ha; exact absurd rfl (fresh (h.holds hg' hc).request)
    · cases hc; exact absurd rfl (fresh (h.holds hf' ha).request)
    · exact h.alone hf' ha hg' hc
  · rw [put_session] at hr ⊢
    show r.kind = k ∧ ∃ n, n < s.traces ∧ _
    rw [hb.traces]
    rcases request hr with ⟨rfl, rfl⟩ | hr
    · exact ⟨rfl, d.session.traces, Nat.lt_succ_self _, rfl⟩
    · obtain ⟨hk, n, hlt, hn⟩ := h.traced hr
      exact ⟨hk, n, Nat.lt_succ_of_lt hlt, hn⟩
  · rw [put_session] at hr hr'
    rcases request hr with ⟨rfl, rfl⟩ | hr <;> rcases request hr' with ⟨rfl, rfl⟩ | hr'
    · rfl
    · exact absurd he.symm (fresh hr')
    · exact absurd he (fresh hr)
    · exact h.apart hr hr' he
  · rw [put_session] at hf ⊢
    by_cases hk : k = kind
    · subst hk; exact ⟨_, congrArg Slot.token hb.slot⟩
    · have hs := hb.other k hk
      obtain ⟨t, ht⟩ := h.armed (k := k) (hs ▸ hf)
      exact ⟨t, hs ▸ ht⟩
  · rcases flow hf with ⟨_, he⟩ | hf
    · cases he
    · exact h.own hf

/-- A flow turns its slot and goes on with its action, or ends. -/
theorem turn (h : d.Custody) {i : FlowId} {f : Flow} {r : Request} {t : Token} (hf : d.flow? i = some f)
    (ha : f.action? = some (r, t)) {s : Session} {progress : Progress} (turns : d.session.Turns r.kind s)
    (on : ∀ g, ({ d with session := s }.put i progress).flow? i = some g →
      g.action? = some (r, t) ∧ s.Holds g r t ∧ ∀ signed, g = .confirming r signed t → Signed.Own r signed) :
    ({ d with session := s }.put i progress).Custody := by
  have slots : ∀ k, (s.slot k).request = (d.session.slot k).request := fun k => by
    by_cases hk : k = r.kind
    · rw [hk]; exact turns.request
    · rw [turns.other k hk]
  have flow : ∀ {j g}, ({ d with session := s }.put i progress).flow? j = some g → j ≠ i →
      d.flow? j = some g := fun hg hj => by
    rw [flow?_put_of_ne _ hj] at hg
    exact hg
  -- every flow of an action had that action before
  have had : ∀ {j g r' u}, ({ d with session := s }.put i progress).flow? j = some g →
      g.action? = some (r', u) →
      ∃ g' u', d.flow? j = some g' ∧ g'.action? = some (r', u') := fun {j g r' u} hg hb => by
    by_cases hj : j = i
    · subst hj
      obtain ⟨hg', _, _⟩ := on g hg
      rw [hb] at hg'
      cases hg'
      exact ⟨f, _, hf, ha⟩
    · exact ⟨g, u, flow hg hj, hb⟩
  refine ⟨fun {j g r' u} hg hb => ?_, fun hg hb hg' hb' => ?_, fun {k r} hr => ?_,
    fun {k k' _ _} hr hr' he => ?_, fun {k} hk => ?_, fun {j r' signed u} hg => ?_⟩
  · rw [put_session]
    by_cases hj : j = i
    · subst hj
      obtain ⟨hg', hh, _⟩ := on g hg
      rw [hb] at hg'
      cases hg'
      exact hh
    · exact (h.holds (flow hg hj) hb).of_slot (turns.other _ (h.kind_ne hf ha (flow hg hj) hb hj))
  · obtain ⟨_, _, h₁, h₂⟩ := had hg hb
    obtain ⟨_, _, h₃, h₄⟩ := had hg' hb'
    exact h.alone h₁ h₂ h₃ h₄
  · rw [put_session] at hr ⊢
    show _ ∧ ∃ n, n < s.traces ∧ _
    rw [turns.traces]
    exact h.traced (slots k ▸ hr)
  · rw [put_session] at hr hr'
    exact h.apart (slots k ▸ hr) (slots k' ▸ hr') he
  · rw [put_session] at hk ⊢
    by_cases hr : k = r.kind
    · subst hr; exact ⟨t, (turns.token hk).trans (h.holds hf ha).token⟩
    · have hs := turns.other k hr
      obtain ⟨u, hu⟩ := h.armed (k := k) (hs ▸ hk)
      exact ⟨u, hs ▸ hu⟩
  · by_cases hj : j = i
    · subst hj
      obtain ⟨hg', _, ho⟩ := on _ hg
      cases hg'
      exact ho signed rfl
    · exact h.own (flow hg hj)

/-- Custody is kept by whatever a step does, if the signature that it may bring is the action's own. -/
theorem of_moves (h : d.Custody) {step : Step} {d' : Desk} (hm : d.Moves step d')
    (hb : d.Brings Signed.Own step) :
    d'.Custody := by
  cases hm with
  | passed _ quiet plain _ => exact (h.of_slots (fun k => .inl (quiet.slot k)) quiet.traces).put_plain plain _
  | taken _ takes plain _ => exact (h.of_slots (fun k => .inl (takes.slot k)) takes.traces).put_plain plain _
  | @released s kind releases =>
    refine h.of_slots (fun k => ?_) releases.traces
    by_cases hk : k = kind
    · subst hk; exact .inr ⟨releases.free, by rw [releases.slot], by rw [releases.slot]⟩
    · exact .inl (releases.other k hk)
  | begun begins => exact h.begin begins _ _
  | @driven i _ r t _ _ x flow action handling =>
    -- an ended flow has nothing left to hold
    have ended : ∀ {s : Session} {o : Outcome} {Q : Flow → Prop} (g : Flow),
        ({ d with session := s }.put i (.ended o)).flow? i = some g → Q g := fun g hg => by
      rw [flow?_put_ended_self] at hg; cases hg
    have turns := handling.turns
    cases handling with
    | unmoved _ => exact h
    | rejected reason _ => exact h.turn flow action turns ended
    | signed _ =>
      refine h.turn flow action turns fun g hg => ?_
      rw [flow?_put_waiting_self] at hg
      cases hg
      have hh := h.holds flow action
      refine ⟨rfl, ⟨turns.request.trans hh.request, ?_, ?_⟩, fun _ he => ?_⟩
      · rw [Session.commit_slot, State.slot_withSlot]; rfl
      · rw [Session.commit_slot, State.slot_withSlot]; exact hh.token
      · cases he; exact hb.signature flow
    | settled => exact h.turn flow action turns ended
    | stray => exact h.turn flow action turns ended

end Custody

/-! ## Runs in custody -/

section Runs
variable {P : Request → Signed → Prop} (own : ∀ r signed, P r signed → Signed.Own r signed) {d : Desk}

include own

theorem Custody.run (h : d.Custody) (hn : d.Numbered) {steps : List Step} (hs : d.Signs P steps) :
    (d.run steps).Custody ∧ (d.run steps).Numbered := by
  induction steps generalizing d with
  | nil => exact ⟨h, hn⟩
  | cons s steps ih =>
    exact ih (h.of_moves (h.moves hn s) (hs.1.mono own)) (hn.step s) hs.2

/-- What holds at first and is kept by every step that finds the actions in custody, holds after every run. -/
theorem Custody.induction (h : d.Custody) (hn : d.Numbered) (Inv : List Step → Prop) (h₀ : Inv [])
    (hstep : ∀ before s, (d.run before).Custody → (d.run before).Numbered → (d.run before).Brings P s →
      (d.run before).Moves s (d.run (before ++ [s])) → Inv before → Inv (before ++ [s])) {steps : List Step}
    (hs : d.Signs P steps) : Inv steps := by
  induction steps using List.reverseRecOn with
  | nil => exact h₀
  | append_singleton before s ih =>
    obtain ⟨hb, hs, _⟩ := signs_append.mp hs
    obtain ⟨hc, hm⟩ := h.run own hn hb
    exact hstep before s hc hm hs (by rw [run_snoc]; exact hc.moves hm s) (ih hb)

end Runs

theorem numbered_ofSession (s : Session) : (ofSession s).Numbered := ⟨List.nodup_nil, fun _ hi => by cases hi⟩

end Desk

end YieldVault
