import YieldVault.Proofs.Desk.Custody

/-!
# Cancelled actions

A flow looks at its token before anything else. An action that was cancelled while it was in flight
therefore has one way left: whatever its flow is woken with next, the action is rejected as cancelled
and the position stays as it is. Nothing takes the cancellation back, and no other flow has a say.
-/

namespace YieldVault

/-- The end of a submission whose action was cancelled. -/
def Outcome.cancelled : Outcome := .submitted (.ok (.finished (.rejected .userCancelled)))

/-! ## Cancelling -/

theorem Session.cancelActions_isCancelled (s : Session) {kind : Kind}
    (h : (s.slot kind).phase.inFlight = true) {t : Token} (ht : (s.slot kind).token = some t) :
    s.cancelActions.tokens.isCancelled t = true := by
  have set := Slot.cancel_isCancelled h ht
  cases kind with
  | deposit => exact Slot.cancel_mono _ (set s.tokens)
  | withdraw => exact set _

namespace Desk

/-- The step cancels the action of a kind: the cancellation answers so, or the wallet is let go. -/
def Cancels (d : Desk) (kind : Kind) : Step → Prop
  | .act (.cancel k) => k = kind ∧ (d.session.cancel kind).2 = true
  | .act .disconnect => d.session.disconnect.2 = .ok ()
  | _ => False

variable {d d' : Desk} {step : Step}

theorem Cancels.isCancelled {kind : Kind} (h : d.Cancels kind step)
    (hf : (d.session.slot kind).phase.inFlight = true) {t : Token}
    (ht : (d.session.slot kind).token = some t) : (d.step step).session.tokens.isCancelled t = true := by
  unfold Cancels at h
  split at h
  · obtain ⟨rfl, _⟩ := h
    exact Slot.cancel_isCancelled hf ht d.session.tokens
  · show (d.session.disconnect).1.tokens.isCancelled t = true
    rw [Session.disconnect_eq] at h ⊢
    split at h
    · have hq := d.session.moveConnection_quiet .disconnect
      exact Session.cancelActions_isCancelled _ (by rw [hq.slot kind]; exact hf)
        (by rw [hq.slot kind]; exact ht)
    · cases h
  · exact h.elim

theorem Cancels.quiet {kind : Kind} (h : d.Cancels kind step) : d.session.Quiet (d.step step).session := by
  unfold Cancels at h
  split at h
  · exact d.session.act_quiet (show (Action.cancel _).isPlain = true from rfl)
  · exact d.session.act_quiet (show Action.disconnect.isPlain = true from rfl)
  · exact h.elim

theorem Cancels.flow? {kind : Kind} (h : d.Cancels kind step) (i : FlowId) :
    (d.step step).flow? i = d.flow? i := by
  unfold Cancels at h
  split at h
  · rfl
  · rfl
  · exact h.elim

/-! ## What stays -/

theorem Moves.cancelled (hm : d.Moves step d') {t : Token} (h : d.session.tokens.isCancelled t = true) :
    d'.session.tokens.isCancelled t = true := by
  cases hm with
  | passed _ quiet _ _ => rw [put_session]; exact quiet.cancelled t h
  | taken _ takes _ _ => rw [put_session]; exact takes.tokens ▸ h
  | released releases => exact releases.tokens ▸ h
  | begun begins => rw [put_session]; exact begins.cancelled t h
  | driven _ _ handling => rw [put_session]; exact handling.turns.tokens ▸ h

theorem Moves.traces_le (hm : d.Moves step d') : d.session.traces ≤ d'.session.traces := by
  cases hm with
  | passed _ quiet _ _ => rw [put_session]; exact Nat.le_of_eq quiet.traces.symm
  | taken _ takes _ _ => rw [put_session]; exact Nat.le_of_eq takes.traces.symm
  | released releases => exact Nat.le_of_eq releases.traces.symm
  | begun begins => rw [put_session]; exact begins.traces ▸ Nat.le_succ _
  | driven _ _ handling => rw [put_session]; exact Nat.le_of_eq handling.turns.traces.symm

/-! ## The end of a cancelled action -/

/-- The action of the flow `i` was rejected as cancelled, and the position is what it was. -/
structure Dropped (d : Desk) (i : FlowId) (kind : Kind) (d' : Desk) : Prop where
  position : d'.session.state.position = d.session.state.position
  phase : d'.session.state.phase kind = .rejected .userCancelled
  outcome : d'.outcome? i = some .cancelled

/-- Whatever a cancelled flow is woken with, its action is dropped. -/
theorem Numbered.dropped (hn : d.Numbered) {i : FlowId} {f : Flow} {r : Request} {t : Token}
    (hf : d.flow? i = some f) (hc : d.session.tokens.isCancelled t = true)
    {signal : Signal} {x : Session × Progress} (hx : d.session.Handling r t f signal x) :
    d.Dropped i r.kind ({ d with session := x.1 }.put i x.2) := by
  have no : ∀ {P : Prop}, d.session.tokens.isCancelled t = false → P := fun h => by rw [hc] at h; cases h
  cases hx with
  | unmoved hc => exact no hc
  | signed hc => exact no hc
  | settled hc => exact no hc
  | stray hc => exact no hc
  | rejected reason hr =>
    obtain rfl := hr hc
    refine ⟨?_, ?_, hn.outcome?_ended hf _⟩
    · rw [put_session, Session.commit_state]; exact State.withSlot_position ..
    · rw [put_session, Session.commit_state]; exact congrArg Slot.phase (State.slot_withSlot ..)

/-- The action `r`, cancelled in the phase `p` by the token `t`: as long as the slot is its own, it is in
that phase still or was rejected as cancelled. -/
structure Doomed (r : Request) (t : Token) (p : Phase) (d : Desk) : Prop where
  cancelled : d.session.tokens.isCancelled t = true
  issued : ∃ n, n < d.session.traces ∧ r.trace = .issued n
  slot : (d.session.slot r.kind).request = some r →
    (d.session.slot r.kind).phase = p ∧ (d.session.slot r.kind).token = some t ∨
      (d.session.slot r.kind).phase = .rejected .userCancelled

theorem Doomed.of_slot {r : Request} {t : Token} {p : Phase} (h : Doomed r t p d) (hm : d.Moves step d')
    (hs : d'.session.slot r.kind = d.session.slot r.kind) : Doomed r t p d' := by
  obtain ⟨n, hlt, hn⟩ := h.issued
  exact ⟨hm.cancelled h.cancelled, ⟨n, Nat.lt_of_lt_of_le hlt hm.traces_le, hn⟩, by rw [hs]; exact h.slot⟩

theorem Doomed.of_moves {r : Request} {t : Token} {p : Phase} (h : Doomed r t p d) (hc : d.Custody)
    (hn : d.Numbered) (hm : d.Moves step d') : Doomed r t p d' := by
  have hm' := hm
  -- the slot belongs to somebody else now
  have gone : (d'.session.slot r.kind).request ≠ some r → Doomed r t p d' := fun hr => by
    obtain ⟨n, hlt, hn⟩ := h.issued
    exact ⟨hm'.cancelled h.cancelled, ⟨n, Nat.lt_of_lt_of_le hlt hm'.traces_le, hn⟩, fun h => absurd h hr⟩
  cases hm with
  | passed _ quiet _ _ => exact h.of_slot hm' (by rw [put_session]; exact quiet.slot _)
  | taken _ takes _ _ => exact h.of_slot hm' (by rw [put_session]; exact takes.slot _)
  | @released s kind releases =>
    by_cases hk : r.kind = kind
    · subst hk
      exact gone fun he => by rw [releases.slot] at he; cases he
    · exact h.of_slot hm' (releases.other _ hk)
  | @begun s kind begins =>
    by_cases hk : r.kind = kind
    · subst hk
      refine gone fun he => ?_
      rw [put_session, begins.slot] at he
      obtain ⟨n, hlt, hn⟩ := h.issued
      rw [← Option.some.inj he] at hn
      cases hn
      exact Nat.lt_irrefl _ hlt
    · exact h.of_slot hm' (by rw [put_session]; exact begins.other _ hk)
  | @driven i f r' t' signal now x flow action handling =>
    by_cases hk : r.kind = r'.kind
    · have hh := hc.holds flow action
      by_cases hr : r = r'
      · subst hr
        rcases h.slot hh.request with ⟨_, ht⟩ | hp
        · obtain rfl : t' = t := Option.some.inj (hh.token.symm.trans ht)
          have hd := hn.dropped flow h.cancelled handling
          exact ⟨hm'.cancelled h.cancelled, by rw [put_session, handling.turns.traces]; exact h.issued,
            fun _ => .inr hd.phase⟩
        · have hf := hc.inFlight flow action
          rw [hp] at hf; cases hf
      · refine gone fun he => ?_
        rw [put_session, hk, handling.turns.request, hh.request] at he
        exact hr (Option.some.inj he).symm
    · exact h.of_slot hm' (by rw [put_session]; exact handling.turns.other _ hk)

theorem Moves.waits_or_ended (hm : d.Moves step d') (hn : d.Numbered) {i : FlowId} {f : Flow} {r : Request}
    {t : Token} (ha : f.action? = some (r, t)) (ht : d.session.tokens.isCancelled t = true)
    (h : d.flow? i = some f ∨ d.outcome? i = some .cancelled) :
    d'.flow? i = some f ∨ d'.outcome? i = some .cancelled := by
  rcases h with hf | ho
  · rcases hm.stays_or_driven hn hf ha with hs | ⟨_, _, _, _, handling, rfl⟩
    · exact .inl hs
    · exact .inr (hn.dropped hf ht handling).outcome
  · exact .inr (hm.outcome? ho)

/-- All that can have become in `d'` of the action `r` that was cancelled in `d`. Its slot, as long as it
holds the action, is in the phase of the cancellation or rejected. Its flow has ended as cancelled, or still
waits where it was; then any signal, be it a late answer, drops the action. -/
structure Forfeits (d : Desk) (kind : Kind) (r : Request) (d' : Desk) : Prop where
  slot : (d'.session.slot kind).request = some r →
    (d'.session.slot kind).phase = (d.session.slot kind).phase ∨
      (d'.session.slot kind).phase = .rejected .userCancelled
  flow : ∀ i f t, d.flow? i = some f → f.action? = some (r, t) →
    d'.outcome? i = some .cancelled ∨
      d'.flow? i = some f ∧ ∀ signal now, d'.Dropped i kind (d'.wake i signal now)

theorem Custody.forfeits (hc : d.Custody) (hn : d.Numbered) {kind : Kind} {r : Request} {c : Step}
    {after : List Step} (hr : (d.session.slot kind).request = some r)
    (hf : (d.session.slot kind).phase.inFlight = true) (cancels : d.Cancels kind c)
    (own : d.Signs Signed.Own (c :: after)) :
    d.Forfeits kind r (d.run (c :: after)) := by
  obtain ⟨t, ht⟩ := hc.armed hf
  obtain ⟨rfl, n, hlt, htr⟩ := hc.traced hr
  have hslot := cancels.quiet.slot r.kind
  have doomed : Doomed r t (d.session.slot r.kind).phase (d.step c) := by
    refine ⟨cancels.isCancelled hf ht, ⟨n, ?_, htr⟩, fun _ => .inl ⟨?_, ?_⟩⟩
    · rw [cancels.quiet.traces]; exact hlt
    · rw [hslot]
    · rw [hslot, ht]
  -- the flow of the action is the one that holds the cancelled token
  have token : ∀ {i f u}, d.flow? i = some f → f.action? = some (r, u) → u = t := fun hg ha =>
    Option.some.inj ((hc.holds hg ha).token.symm.trans ht)
  have hc₁ := hc.of_moves (hc.moves hn c) own.1
  obtain ⟨hc', hn'⟩ := hc₁.run (fun _ _ h => h) (hn.step c) own.2
  obtain ⟨doomed', waits⟩ := hc₁.induction (fun _ _ h => h) (hn.step c)
    (fun xs => Doomed r t (d.session.slot r.kind).phase ((d.step c).run xs) ∧
      ∀ i f u, d.flow? i = some f → f.action? = some (r, u) →
        ((d.step c).run xs).flow? i = some f ∨ ((d.step c).run xs).outcome? i = some .cancelled)
    ⟨doomed, fun i f u hg _ => .inl ((cancels.flow? i).trans hg)⟩
    (fun before s hcb hnb _ hm ⟨hd, hw⟩ => ⟨hd.of_moves hcb hnb hm, fun i f u hg ha =>
      hm.waits_or_ended hnb (token hg ha ▸ ha) hd.cancelled (hw i f u hg ha)⟩) own.2
  refine ⟨fun h => (doomed'.slot h).imp And.left id, fun i f u hg ha => ?_⟩
  rcases waits i f u hg ha with hw | ho
  · refine .inr ⟨hw, fun signal now => ?_⟩
    obtain rfl := token hg ha
    show ((d.step c).run after).Dropped i r.kind (((d.step c).run after).wake i signal now)
    rw [wake_eq hw]
    exact hn'.dropped hw doomed'.cancelled (hc'.handling hw ha signal now)
  · exact .inl ho

/-- An action that was cancelled while it was in flight ends rejected as cancelled and never touches the
position, whatever happens afterwards. Signatures have to name no other action than their own: one that did
could settle the action that it names. -/
theorem cancellation_is_final {settings : Settings} {s : Session} (hs : Session.open? settings = .ok s)
    {before after : List Step} {c : Step} {kind : Kind} {r : Request}
    (own : (ofSession s).Signs Signed.Own (before ++ c :: after))
    (request : (((ofSession s).run before).session.slot kind).request = some r)
    (inFlight : (((ofSession s).run before).session.slot kind).phase.inFlight = true)
    (cancels : ((ofSession s).run before).Cancels kind c) :
    ((ofSession s).run before).Forfeits kind r ((ofSession s).run (before ++ c :: after)) := by
  obtain ⟨hb, hca⟩ := signs_append.mp own
  obtain ⟨hc, hn⟩ :=
    (custody_ofSession (Session.open?_eq hs).1).run (fun _ _ h => h) (numbered_ofSession s) hb
  rw [run_append]
  exact hc.forfeits hn request inFlight cancels hca

/-- The visitor connects again. -/
def reconnect : List Step :=
  [.start .connect,
   .wake 3 (.reply (.wallet (.account (.ok Simulation.sampleAccount)))) .epoch,
   .wake 3 (.reply (.wallet (.chainId (.ok 8453)))) .epoch]

theorem cancellation_is_final_reconnect :
    ((ofSession newSession).run visit).Cancels .deposit (.act .disconnect) ∧
      ((ofSession newSession).run
        (visit ++ .act .disconnect :: reconnect)).session.state.connection.isConnected = true ∧
      ((ofSession newSession).run visit).Forfeits .deposit ⟨.deposit, "500", Entry.ofText "500", .issued 0⟩
        ((ofSession newSession).run (visit ++ .act .disconnect :: reconnect)) := by
  have faithful : (ofSession newSession).Signs Signed.Faithful (visit ++ .act .disconnect :: reconnect) := by
    decide +kernel
  have cancels : ((ofSession newSession).run visit).Cancels .deposit (.act .disconnect) := by
    show ((ofSession newSession).run visit).session.disconnect.2 = .ok ()
    decide +kernel
  exact ⟨cancels, by decide +kernel,
    cancellation_is_final (show Session.open? .standard = .ok newSession from rfl)
      (faithful.mono Signed.Faithful.own)
      (by decide +kernel) (by decide +kernel) cancels⟩

end Desk

end YieldVault
