import YieldVault.Proofs.Desk.Connecting

/-!
# Where the quote of a session comes from

A snapshot is taken only if the account that it was read for is connected at that moment. The quote stays when
the account leaves, though, and the next account is connected before its own snapshot is read. So an action is
started on a quote of the connected account, or on one that was there before this account came and that no
snapshot has replaced since.
-/

namespace YieldVault

/-- Where a quote comes from that a session has taken. -/
inductive Source where
  | read (account : String)
  | given
  deriving DecidableEq

def Source.account? : Source → Option String
  | read account => some account
  | given => none

def Progress.isWaiting : Progress → Bool
  | waiting _ => true
  | _ => false

namespace Session

theorem position_of_submit {s : Session} {kind : Kind} (h : (s.submit kind).2.isWaiting = true) :
    s.state.position ≠ none := by
  intro hp
  have hv : s.state.verdictFor kind (s.state.form kind).input = .silent := by simp only [State.verdictFor, hp]
  unfold submit at h
  dsimp only at h
  split at h
  · cases h
  · split at h
    · cases h
    · simp only [hv] at h
      cases h

theorem Acting.position_none {s : Session} {x : Session × Progress} (h : s.Acting x)
    (hp : s.state.position = none) :
    x.1.state.position = none := by
  cases h with
  | unmoved => exact hp
  | rejects r reason => rw [rejectAction_position, hp]
  | signs r signed t =>
    unfold signAction
    dsimp only
    split
    · rw [commit_state, State.withSlot_position, hp]
    · exact hp
  | settles signed now =>
    have hs := s.state.settle_settling signed now
    unfold settleAction
    revert hs
    generalize s.state.settle signed now = result
    intro hs
    cases hs with
    | stale _ => exact hp
    | refused _ reason => exact (rejectAction_position ..).trans hp
    | settled _ absorbs =>
      -- a receipt is added to a position, and there is none
      have := absorbs.position
      rw [hp] at this
      cases this

theorem takeSnapshot_of_not_connected {s : Session} {account : String}
    (h : s.state.connection.address? ≠ some account) (snapshot : Snapshot) :
    (s.takeSnapshot account (.ok snapshot)).2.isOk = false := by
  simp only [takeSnapshot, if_neg h]
  rfl

end Session

namespace Desk

variable {d : Desk} {step : Step} {address : String}

/-- The source of the quote that a step brings, if the session takes it. -/
def source? (d : Desk) (step : Step) : Option Source :=
  (d.taken? step).bind fun _ =>
    match step with
    | .wake i _ _ => (d.flow? i).bind fun f => f.account?.map .read
    | _ => some .given

/-- The sources of the quotes taken in a run, in the order of taking. -/
def sources (d : Desk) : List Step → List Source
  | [] => []
  | step :: steps => (d.source? step).toList ++ (d.step step).sources steps

theorem sources_append (d : Desk) (first rest : List Step) :
    d.sources (first ++ rest) = d.sources first ++ (d.run first).sources rest := by
  induction first generalizing d with
  | nil => rfl
  | cons step first ih =>
    simp only [List.cons_append, sources, ih, List.append_assoc]
    rfl

theorem mem_sources {steps : List Step} {x : Source} (h : x ∈ d.sources steps) :
    ∃ first step rest, steps = first ++ step :: rest ∧ (d.run first).source? step = some x := by
  induction steps generalizing d with
  | nil => cases h
  | cons step steps ih =>
    rcases List.mem_append.mp h with hx | hx
    · exact ⟨[], step, steps, rfl, Option.mem_toList.mp hx⟩
    · obtain ⟨first, step', rest, rfl, he⟩ := ih hx
      exact ⟨step :: first, step', rest, rfl, he⟩

/-! ## What a step takes -/

theorem taken?_eq_some {q : Quote} (h : d.taken? step = some q) :
    step = .act (.refreshQuote q) ∨
      ∃ i signal now f account, step = .wake i signal now ∧ d.flow? i = some f ∧ f.account? = some account ∧
        d.session.state.connection.address? = some account := by
  unfold taken? at h
  split at h
  · split at h
    · cases h
      exact .inl rfl
    · cases h
  · rename_i i snapshot now
    right
    cases hf : d.flow? i with
    | none => simp [hf] at h
    | some f =>
      cases ha : f.account? with
      | none => simp [hf, ha] at h
      | some account =>
        refine ⟨i, _, now, f, account, rfl, hf, ha, ?_⟩
        by_contra hc
        simp [hf, ha, Session.takeSnapshot_of_not_connected hc] at h
  · cases h

theorem source?_eq_none_iff : d.source? step = none ↔ d.taken? step = none := by
  refine ⟨fun h => ?_, fun h => by simp [source?, h]⟩
  cases ht : d.taken? step with
  | none => rfl
  | some q =>
    rcases taken?_eq_some ht with rfl | ⟨i, signal, now, f, account, rfl, hf, ha, _⟩
    · simp [source?, ht] at h
    · simp [source?, ht, hf, ha] at h

/-- A snapshot is taken only for the account that is connected. -/
theorem connected_of_read (h : d.source? step = some (.read address)) :
    d.session.state.connection.address? = some address := by
  obtain ⟨q, ht, _⟩ := Option.bind_eq_some_iff.mp h
  rcases taken?_eq_some ht with rfl | ⟨i, signal, now, f, account, rfl, hf, ha, hc⟩
  · simp [source?, ht] at h
  · simp only [source?, ht, hf, ha, Option.bind_some, Option.map_some, Option.some.injEq,
      Source.read.injEq] at h
    rw [hc, h]

theorem position_wake_of_untaken {i : FlowId} {signal : Signal} {now : Moment}
    (hp : d.session.state.position = none) (ht : d.taken? (.wake i signal now) = none) :
    (d.wake i signal now).session.state.position = none := by
  cases hf : d.flow? i with
  | none =>
    rw [wake_eq_self hf]
    exact hp
  | some f =>
    rw [wake_eq hf, put_session]
    cases ha : f.action? with
    | some x => exact (d.session.resume_acting ha signal now).position_none hp
    | none =>
      rcases f.reads_or_not signal with ⟨snapshot, account, rfl, hac⟩ | hno
      · obtain ⟨progress, he, _⟩ := d.session.resume_snapshot hac (.ok snapshot) now
        have htaking := d.session.takeSnapshot_taking account snapshot
        rw [he]
        simp only [taken?, hf, hac, Option.bind_eq_bind, Option.bind_some] at ht
        generalize d.session.takeSnapshot account (.ok snapshot) = x at ht htaking
        cases htaking with
        | taken htakes => simp [Except.isOk, Except.toBool] at ht
        | refused e => exact hp
      · exact (d.session.resume_passes ha hno now).quiet.position.trans hp

/-- A session has no position before it takes a quote. -/
theorem position_step_of_untaken (hn : d.Numbered) (hp : d.session.state.position = none)
    (ht : d.taken? step = none) : (d.step step).session.state.position = none := by
  have moved : ∀ {d'}, d.Moves step d' → (∀ i signal now, step ≠ .wake i signal now) →
      d'.session.state.position = none := by
    intro d' hm hw
    cases hm with
    | passed _ quiet _ _ => rw [put_session]; exact quiet.position.trans hp
    | taken hq _ _ _ => rw [hq] at ht; cases ht
    | released releases => exact releases.position.trans hp
    | begun begins => rw [put_session]; exact begins.position.trans hp
    | driven _ _ _ => exact absurd rfl (hw _ _ _)
  cases step with
  | act a => exact moved (moves_act hn a) (by simp)
  | start e => exact moved (moves_start hn e) (by simp)
  | wake i signal now => exact position_wake_of_untaken hp ht
  | watch w => cases w <;> exact hp

theorem sources_ne_nil {s : Session} (hs : s.state = .initial) {steps : List Step}
    (h : ((ofSession s).run steps).session.state.position ≠ none) : (ofSession s).sources steps ≠ [] := by
  intro hn
  apply h
  induction steps using List.reverseRecOn with
  | nil =>
    show s.state.position = none
    rw [hs]
    rfl
  | append_singleton history step ih =>
    rw [sources_append, List.append_eq_nil_iff] at hn
    obtain ⟨hold, hnew⟩ := hn
    have hp : ((ofSession s).run history).session.state.position = none := by
      by_contra hc
      exact hc (ih hc hold)
    have hsrc : ((ofSession s).run history).source? step = none := by simpa [sources] using hnew
    rw [run_snoc]
    exact position_step_of_untaken (run_numbered s history) hp (source?_eq_none_iff.mp hsrc)

/-! ## While an account is connected -/

/-- The first step connects the account and the others leave it connected. -/
structure Stay (d : Desk) (address : String) (since : List Step) : Prop where
  entering : d.session.state.connection = .connecting
  staying : ∀ part, part <+: since → part ≠ [] → (d.run part).session.state.connection = .connected address

/-- An account is connected by the end of an attempt and by nothing else. -/
theorem connected_of_step (h : (d.step step).session.state.connection = .connected address) :
    d.session.state.connection = .connecting ∨ d.session.state.connection = .connected address := by
  rcases d.step_effect step with ⟨kind, raw, rfl⟩ | he
  · right
    have hl : (d.step (.act (.beginInput kind raw))).session.state.link = d.session.state.link :=
      State.link_withForm ..
    exact (congrArg Prod.fst hl).symm.trans h
  · generalize (d.step step).session.state = state at h he
    cases he with
    | worked hw => exact .inr ((congrArg Prod.fst hw.link).symm.trans h)
    | requested _ t => cases h
    | entered hc _ _ => exact .inl hc
    | dropped _ => exact .inr h
    | left _ => cases h

theorem Stay.snoc {since : List Step} (h : d.Stay address since)
    (hc : (d.run (since ++ [step])).session.state.connection = .connected address) :
    d.Stay address (since ++ [step]) := by
  refine ⟨h.entering, fun part hp hne => ?_⟩
  rcases List.prefix_concat_iff.mp hp with rfl | hold
  · exact hc
  · exact h.staying part hold hne

theorem exists_stay {s : Session} (hs : s.state = .initial) {steps : List Step}
    (h : ((ofSession s).run steps).session.state.connection = .connected address) :
    ∃ before since, steps = before ++ since ∧ ((ofSession s).run before).Stay address since := by
  induction steps using List.reverseRecOn with
  | nil =>
    rw [show ((ofSession s).run []).session.state = .initial from hs] at h
    cases h
  | append_singleton history step ih =>
    rw [run_snoc] at h
    rcases connected_of_step h with hc | hc
    · refine ⟨history, [step], rfl, hc, fun part hp hne => ?_⟩
      rcases List.prefix_concat_iff.mp (show part <+: [] ++ [step] from hp) with rfl | hnil
      · exact h
      · exact absurd (List.prefix_nil.mp hnil) hne
    · obtain ⟨before, since, rfl, stay⟩ := ih hc
      refine ⟨before, since ++ [step], by simp, stay.snoc ?_⟩
      rw [run_snoc, ← run_append]
      exact h

theorem Stay.read {since : List Step} (h : d.Stay address since) {account : String}
    (hr : .read account ∈ d.sources since) : account = address := by
  obtain ⟨first, step, rest, rfl, hsrc⟩ := mem_sources hr
  have hc := connected_of_read hsrc
  by_cases hf : first = []
  · subst hf
    rw [show (d.run []).session.state.connection = .connecting from h.entering] at hc
    cases hc
  · rw [h.staying first (List.prefix_append ..) hf] at hc
    cases hc
    rfl

/-! ## Actions -/

/-- When a submission starts an action for the connected account, the last snapshot that the session has taken
was read for this account; or it has taken none since the account was connected, and the action goes by a
quote that was there before or that was given to the session. -/
theorem quote_follows_account {settings : Settings} {s : Session} (hs : Session.open? settings = .ok s)
    {steps : List Step} {address : String}
    (connected : ((ofSession s).run steps).session.state.connection = .connected address) {kind : Kind}
    (starts : (((ofSession s).run steps).session.submit kind).2.isWaiting = true) :
    (((ofSession s).sources steps).filterMap Source.account?).getLast? = some address ∨
      ∃ before since, steps = before ++ since ∧ ((ofSession s).run before).Stay address since ∧
        (∀ source ∈ ((ofSession s).run before).sources since, source = .given) ∧
        (ofSession s).sources steps ≠ [] := by
  have h₀ := (Session.open?_eq hs).1
  obtain ⟨before, since, rfl, stay⟩ := exists_stay h₀ connected
  by_cases hread : ∃ account, .read account ∈ ((ofSession s).run before).sources since
  · left
    obtain ⟨account, hr⟩ := hread
    have hmem : ∀ a ∈ (((ofSession s).run before).sources since).filterMap Source.account?, a = address := by
      intro a ha
      obtain ⟨source, hsrc, hacc⟩ := List.mem_filterMap.mp ha
      cases source with
      | given => cases hacc
      | read b =>
        cases hacc
        exact stay.read hsrc
    have hne : (((ofSession s).run before).sources since).filterMap Source.account? ≠ [] :=
      List.ne_nil_of_mem (List.mem_filterMap.mpr ⟨_, hr, rfl⟩)
    rw [sources_append, List.filterMap_append, List.getLast?_append, List.getLast?_eq_some_getLast hne,
      hmem _ (List.getLast_mem hne)]
    rfl
  · right
    refine ⟨before, since, rfl, stay, fun source hsrc => ?_,
      sources_ne_nil h₀ (Session.position_of_submit starts)⟩
    cases source with
    | given => rfl
    | read account => exact absurd ⟨account, hsrc⟩ hread

theorem quote_follows_account_visit :
    ((ofSession newSession).run (visit.take 5)).session.state.connection =
        .connected Simulation.sampleAccount ∧
      (((ofSession newSession).run (visit.take 5)).session.submit .deposit).2.isWaiting = true ∧
      ((((ofSession newSession).sources (visit.take 5)).filterMap Source.account?).getLast? =
          some Simulation.sampleAccount ∨
        ∃ before since, visit.take 5 = before ++ since ∧
          ((ofSession newSession).run before).Stay Simulation.sampleAccount since ∧
          (∀ source ∈ ((ofSession newSession).run before).sources since, source = .given) ∧
          (ofSession newSession).sources (visit.take 5) ≠ []) := by
  have connected : ((ofSession newSession).run (visit.take 5)).session.state.connection =
    .connected Simulation.sampleAccount := by decide +kernel
  have starts : (((ofSession newSession).run (visit.take 5)).session.submit .deposit).2.isWaiting = true := by
    decide +kernel
  exact ⟨connected, starts,
    quote_follows_account (show Session.open? .standard = .ok newSession from rfl) connected starts⟩

/-- One account leaves and another one connects, whose snapshot cannot be read. -/
def handover : List Step :=
  [.start .connect,
   .wake 0 (.reply (.wallet (.account (.ok "0xA1")))) .epoch,
   .wake 0 (.reply (.wallet (.chainId (.ok 8453)))) .epoch,
   .wake 0 (.reply (.snapshot (.ok Simulation.sampleSnapshot))) .epoch,
   .act .disconnect,
   .start .connect,
   .wake 1 (.reply (.wallet (.account (.ok "0xB2")))) .epoch,
   .wake 1 (.reply (.wallet (.chainId (.ok 8453)))) .epoch,
   .wake 1 (.reply (.snapshot (.error (.chain "rpc down")))) .epoch,
   .act (.setInput .deposit "500")]

/-- The second account's deposit is started on the quote of the first. -/
theorem handover_keeps_quote :
    ((ofSession newSession).run handover).session.state.connection = .connected "0xB2" ∧
      (((ofSession newSession).run handover).session.submit .deposit).2.isWaiting = true ∧
      ((ofSession newSession).sources handover).getLast? = some (.read "0xA1") := by
  decide +kernel

end Desk

end YieldVault
