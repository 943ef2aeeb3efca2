import YieldVault.Proofs.Simulation.Race

/-!
# What a submission comes to

Whoever cancels an action before its signature is there or overdue, or later before its confirmation is there
or overdue, ends it. Otherwise it is rejected when an answer is late or a failure, and what gets through is
folded into the position, which can still refuse it. All this follows from how long the answers take, the
limits and the instant of the cancellation, but no simulated delay counts for more than thirty years.
-/

namespace YieldVault

theorem Flow.rank_pos (f : Flow) : 1 ≤ f.rank := by
  cases f <;> simp [rank]

namespace Simulation

/-! ## Submissions -/

/-- Time passes until the flow `i` has ended, and if an instant is given the action is cancelled then. -/
def pursue (s : Simulation) (i : FlowId) (kind : Kind) : Option Nat → Simulation
  | none => s.await i
  | some t => ((s.advance t).act (.cancel kind)).1.await i

/-- An action is submitted, perhaps cancelled some milliseconds later, and awaited. -/
def submission (s : Simulation) (kind : Kind) (cancel : Option Nat) : Simulation :=
  (s.start (.submit kind)).1.pursue (s.start (.submit kind)).2 kind (cancel.map (s.clock + ·))

/-- Whether an action gets through when its signature takes `S` milliseconds and its confirmation `C`. -/
def fate (settings : Settings) (S C : Nat) (eS eC : Option Rejection) (cancel : Option Nat) :
    Except Rejection Unit :=
  if cancel.any (· < min S settings.signatureLimit) then .error .userCancelled
  else
    match answered S settings.signatureLimit settings.lateSignature eS with
    | .error reason => .error reason
    | .ok () =>
      if cancel.any (· < S + min C settings.confirmationLimit) then .error .userCancelled
      else answered C settings.confirmationLimit settings.lateConfirmation eC

/-! ## Runs that come to rest -/

variable {s s' s'' : Simulation} {a : Pursuit} {f : Flow} {wait : Wait} {promise : Promise} {n : Nat}
  {bound : Option Nat} {stop : Simulation → Bool}

/-- However many steps are allowed from `n` on, the run stops at `s'`. -/
def Rests (bound : Option Nat) (stop : Simulation → Bool) (n : Nat) (s s' : Simulation) : Prop :=
  ∀ m, n ≤ m → steps bound stop m s = s'

theorem Rests.of_halt (h : stop s = true ∨ s.step? bound = none) : Rests bound stop 0 s s :=
  fun m _ => steps_of_halt h m

theorem Rests.of_step (hs : stop s = false) (h : s.step? bound = some s') (hr : Rests bound stop n s' s'') :
    Rests bound stop (n + 1) s s'' := by
  intro m hm
  obtain ⟨m, rfl⟩ := Nat.exists_eq_add_of_le' hm
  rw [← Nat.add_assoc, steps_of_step hs h]
  exact hr _ (Nat.le_add_left ..)

theorem Rests.run (hr : Rests bound stop n s s') {i : FlowId} (hf : s.desk.flow? i = some f)
    (hn : n ≤ f.rank) :
    s.run bound stop = s' := hr _ (Nat.le_trans hn (rank_le hf))

/-- When to stop before a cancellation, or at the end if there is none. -/
def ended (cancelAt : Option Nat) (i : FlowId) (s : Simulation) : Bool :=
  cancelAt.isNone && (s.desk.outcome? i).isSome

theorem Underway.not_ended (h : s.Underway a f wait promise) (cancelAt : Option Nat) :
    ended cancelAt a.flow s = false := by
  have hn : s.desk.outcome? a.flow = none := lookup_eq_none_iff_key.mpr (h.numbered.not_ended h.flow)
  simp [ended, hn]

theorem Done.step?_eq_none {result : Phase × Position} (h : s.Done a result) {t : Nat} (ht : t ≤ a.last) :
    s.step? (some t) = none := h.calm.step?_eq_none h.waits ht

theorem Done.halts {result : Phase × Position} (h : s.Done a result) {cancelAt : Option Nat}
    (ht : ∀ t ∈ cancelAt, t ≤ a.last) : ended cancelAt a.flow s = true ∨ s.step? cancelAt = none := by
  cases cancelAt with
  | none => exact .inl (by simp [ended, h.outcome])
  | some t => exact .inr (h.step?_eq_none (ht t rfl))

theorem Done.later {result : Phase × Position} (h : s.Done a result) {clock : Nat} (hc : clock ≤ a.last) :
    ({ s with clock := clock } : Simulation).Done a result :=
  ⟨h.outcome, h.phase, h.finished, h.position, h.waits, ⟨h.calm.apart, h.calm.late, h.calm.free⟩, hc⟩

theorem Done.settle {result : Phase × Position} (h : s.Done a result) : s.settle = s :=
  steps_of_halt (.inr (h.step?_eq_none h.clock_le)) _

theorem Done.await {result : Phase × Position} (h : s.Done a result) : s.await a.flow = s := by
  unfold Simulation.await
  rw [show s.run none _ = s from steps_of_halt (.inl (by simp [h.outcome])) _]
  exact h.settle

/-- What is over stays over, whether or not somebody wants to cancel it. -/
theorem Underway.pursue_done (h : s.Underway a f wait promise) {cancelAt : Option Nat}
    (hr : Rests cancelAt (ended cancelAt a.flow) n s s') (hn : n ≤ f.rank) {result : Phase × Position}
    (hd : s'.Done a result) (ht : ∀ t ∈ cancelAt, t ≤ a.last) :
    (s.pursue a.flow a.request.kind cancelAt).Done a result := by
  have hrun := hr.run h.flow hn
  cases cancelAt with
  | none =>
    show (s.run none (ended none a.flow)).settle.Done a result
    rw [hrun, hd.settle]
    exact hd
  | some t =>
    have hlater := hd.later (ht t rfl)
    show ((({ s.run (some t) (ended (some t) a.flow) with clock := t } : Simulation).act
      (.cancel a.request.kind)).1.await a.flow).Done a result
    rw [hrun, hlater.cancel, hlater.await]
    exact hlater

/-- An action that is cancelled while it waits comes to nothing. -/
theorem Underway.pursue_cancelled (h : s.Underway a f wait promise) {f' : Flow} {wait' : Wait}
    {promise' : Promise} (h' : s'.Underway a f' wait' promise')
    (hc : s'.desk.session.tokens.isCancelled a.token = false)
    {cancelAt : Option Nat} (early : cancelAt.any (· < wait'.wake) = true)
    (reaches : Rests cancelAt (ended cancelAt a.flow) 0 s' s' → Rests cancelAt (ended cancelAt a.flow) n s s')
    (hn : n ≤ f.rank) (hlast : ∀ t ∈ cancelAt, t ≤ a.last) :
    (s.pursue a.flow a.request.kind cancelAt).Done a (.rejected .userCancelled, a.position) := by
  cases cancelAt with
  | none => cases early
  | some t =>
    have ht : t < wait'.wake := by simpa using early
    have hrun := (reaches (.of_halt (.inr (h'.step?_early hc ht)))).run h.flow hn
    -- nothing has happened since, so the cancelled wait is still there and is the next to end
    obtain ⟨hclock, hcan, h''⟩ := (h'.later t).cancel
    obtain ⟨s'', hs, hd⟩ := h''.step_cancelled hcan (hclock ▸ hlast t rfl) none
    have hlater := Rests.of_step (h''.not_ended none) hs (.of_halt (hd.halts (by simp)))
    show ((({ s.run (some t) (ended (some t) a.flow) with clock := t } : Simulation).act
      (.cancel a.request.kind)).1.await a.flow).Done a _
    rw [hrun]
    show ((_ : Simulation).run none (ended none a.flow)).settle.Done a _
    rw [hlater.run h''.flow f'.rank_pos, hd.settle]
    exact hd

/-! ## From the submission on -/

theorem answered_cut (delay limit : Nat) (late : Rejection) (failure : Option Rejection) :
    answered (min delay Wait.horizon) (min limit Wait.horizon) late failure =
      answered (min delay Wait.horizon) limit late failure := by
  have h : min limit Wait.horizon < min delay Wait.horizon ↔ limit < min delay Wait.horizon := by omega
  simp only [answered, h]

theorem min_cut (delay limit : Nat) :
    min (min delay Wait.horizon) (min limit Wait.horizon) = min (min delay Wait.horizon) limit := by omega

theorem any_map_add (cancel : Option Nat) (c d : Nat) :
    (cancel.map (c + ·)).any (· < c + d) = cancel.any (· < d) := by
  cases cancel <;> simp

theorem all_of_not_any {cancelAt : Option Nat} {t : Nat} (h : cancelAt.any (· < t) = false) :
    cancelAt.all (t ≤ ·) = true := by
  cases cancelAt with
  | none => rfl
  | some u => simpa using h

/-- The second race, of a cancellation with the confirmation and its limit. -/
theorem Underway.pursue_signed {cancelAt : Option Nat} {c delay limit : Nat} {reference : String}
    {failure : Option Rejection} {amount shares : Amount}
    (h : s.Underway a (.signing a.request a.token) wait promise)
    (hstep : s.step? cancelAt = some s') (hclock : s'.clock = c)
    (hc : s'.desk.session.tokens.isCancelled a.token = false)
    (h' : s'.Underway a (.confirming a.request ⟨reference, a.request⟩ a.token) ⟨c + delay, some (c + limit)⟩
      (.reply (.confirmation (failure.elim (.ok ()) .error))))
    (ha : a.request.amount = .ok amount) (hs : a.position.sharesFor amount = some shares)
    (hlast : ∀ t ∈ cancelAt, t ≤ a.last) :
    (s.pursue a.flow a.request.kind cancelAt).Done a
      (a.position.result ⟨a.request.kind, amount, shares, reference, s'.moment (c + delay)⟩
        (if cancelAt.any (· < c + min delay limit) then .error .userCancelled
          else answered delay limit a.settings.lateConfirmation failure)) := by
  cases early : cancelAt.any (· < c + min delay limit) with
  | true =>
    rw [← Wait.wake_add] at early
    exact h.pursue_cancelled h' hc early (.of_step (h.not_ended _) hstep) (Flow.rank_pos _) hlast
  | false =>
    obtain ⟨s'', hstep', hd⟩ :=
      h'.step_confirming hc (hclock ▸ Nat.le_add_right ..) (all_of_not_any early) ha hs
    have rests :=
      Rests.of_step (h.not_ended _) hstep (.of_step (h'.not_ended _) hstep' (.of_halt (hd.halts hlast)))
    exact h.pursue_done rests (Nat.le_refl 2) hd hlast

theorem Underway.pursue_fate {S C : Nat} {eS eC : Option Rejection} {amount shares : Amount}
    (h : s.Underway a (.signing a.request a.token)
      ⟨s.clock + min S Wait.horizon, some (s.clock + min a.settings.signatureLimit Wait.horizon)⟩
      (eS.elim (.signature a.request) fun reason => .reply (.signature (.error reason))))
    (hc : s.desk.session.tokens.isCancelled a.token = false) (hw : s.world.settlement = .simulated S C eS eC)
    (ha : a.request.amount = .ok amount) (hs : a.position.sharesFor amount = some shares)
    (cancel : Option Nat)
    (hlast : s.clock + max (cancel.getD 0) (min (min S Wait.horizon) a.settings.signatureLimit +
      min (min C Wait.horizon) a.settings.confirmationLimit) = a.last) :
    (s.pursue a.flow a.request.kind (cancel.map (s.clock + ·))).Done a
      (a.position.result ⟨a.request.kind, amount, shares, s.world.reference (s.world.signatures + 1),
          s.moment (s.clock + min S Wait.horizon + min C Wait.horizon)⟩
        (fate a.settings (min S Wait.horizon) (min C Wait.horizon) eS eC cancel)) := by
  have hcancel : ∀ t ∈ cancel.map (s.clock + ·), t ≤ a.last := by
    intro t ht
    obtain ⟨u, rfl, rfl⟩ := Option.map_eq_some_iff.mp ht
    rw [Option.getD_some] at hlast
    omega
  have hearly := any_map_add cancel s.clock (min (min S Wait.horizon) a.settings.signatureLimit)
  unfold fate
  -- the limit is cut like the delay, which makes no difference to the race
  rw [← hearly, ← min_cut, ← answered_cut]
  cases early : (cancel.map (s.clock + ·)).any (· < s.clock + min (min S Wait.horizon)
      (min a.settings.signatureLimit Wait.horizon)) with
  | true =>
    rw [← Wait.wake_add] at early
    exact h.pursue_cancelled h hc early id (Nat.zero_le _) hcancel
  | false =>
    have hb := all_of_not_any early
    have hclock : s.clock ≤ s.clock + min (min S Wait.horizon) (min a.settings.signatureLimit Wait.horizon) :=
      Nat.le_add_right ..
    cases he : answered (min S Wait.horizon)
      (min a.settings.signatureLimit Wait.horizon) a.settings.lateSignature eS with
    | error reason =>
      obtain ⟨s', hstep, hd⟩ := h.step_error hc hclock hb (fun reason hf => by rw [hf]; rfl) he
      exact h.pursue_done (.of_step (h.not_ended _) hstep (.of_halt (hd.halts hcancel)))
        (Flow.rank_pos _) hd hcancel
    | ok u =>
      obtain ⟨hle, rfl⟩ := answered_eq_ok he
      obtain ⟨s', hstep, hclock', hmoment, hc', h'⟩ := h.step_signed hc hclock hb hle hw (by omega)
      have hd := h.pursue_signed hstep hclock' hc' h' ha hs hcancel
      have hlate := any_map_add cancel s.clock
        (min S Wait.horizon + min (min C Wait.horizon) a.settings.confirmationLimit)
      rw [← Nat.add_assoc] at hlate
      rw [hmoment, min_cut, answered_cut, hlate] at hd
      exact hd

/-! ## The start -/

/-- The action that a submission starts, among those who wait already. -/
def pursuit (s : Simulation) (kind : Kind) (p : Position) (last : Nat) : Pursuit :=
  ⟨s.desk.started, s.desk.session.request kind, s.desk.session.tokens.issued, p, s.settings, s.waits, last⟩

/-- The new token is nobody else's. -/
theorem Reached.calm (h : Reached s) (hc : s.cancelled? = none) {last : Nat}
    (hl : ∀ w ∈ s.waits, last < w.wait.wake) :
    s.Calm s.desk.started s.desk.session.tokens.issued last s.waits := by
  refine ⟨fun o ho => Nat.ne_of_lt (h.waits_started o ho), hl, fun o ho u hu => ⟨?_, ?_⟩⟩
  · obtain ⟨f, hf, ht⟩ := Option.bind_eq_some_iff.mp hu
    exact Nat.ne_of_lt (h.stamped.flow hf ht)
  · refine Bool.eq_false_iff.mpr fun hcan => ?_
    unfold cancelled? at hc
    rw [List.findSome?_eq_none_iff] at hc
    have hnone := hc u (by simpa [Tokens.isCancelled] using hcan)
    unfold waitOf? at hnone
    rw [List.find?_eq_none] at hnone
    exact hnone o ho (by simp [hu])

theorem Reached.start_submit (h : Reached s) {kind : Kind}
    (hs : (s.desk.session.submit kind).2.isWaiting = true) (hc : s.cancelled? = none) {S C : Nat}
    {eS eC : Option Rejection} (hw : s.world.settlement = .simulated S C eS eC) {p : Position}
    (hp : s.desk.session.state.position = some p) {last : Nat} (hl : ∀ w ∈ s.waits, last < w.wait.wake)
    (hlast : s.clock + min (min S Wait.horizon) (min s.settings.signatureLimit Wait.horizon) ≤ last) :
    (s.start (.submit kind)).1.clock = s.clock ∧ (s.start (.submit kind)).1.moment = s.moment ∧
      (s.start (.submit kind)).1.world = s.world ∧
      (s.start (.submit kind)).1.desk.session.tokens.isCancelled s.desk.session.tokens.issued = false ∧
      (s.start (.submit kind)).1.Underway (s.pursuit kind p last)
        (.signing (s.desk.session.request kind) s.desk.session.tokens.issued)
        ⟨s.clock + min S Wait.horizon, some (s.clock + min s.settings.signatureLimit Wait.horizon)⟩
        (eS.elim (.signature (s.desk.session.request kind)) fun reason =>
          .reply (.signature (.error reason))) := by
  obtain ⟨session, hb, begins⟩ := Session.begins_of_submit hs
  have numbered := (h.started (.submit kind)).numbered
  have fresh : s.desk.session.tokens.isCancelled s.desk.session.tokens.issued = false :=
    Bool.eq_false_iff.mpr fun hcan => Nat.lt_irrefl _ (h.stamped.session (.cancelled hcan))
  have hstart : s.desk.start (.submit kind) =
      { s.desk with session := session, started := s.desk.started + 1 }.put s.desk.started
        (.waiting (.signing (s.desk.session.request kind) s.desk.session.tokens.issued)) := by
    simp only [Desk.start, Session.start, hb]
  have hx : (s.start (.submit kind)).1 =
      { s with
        desk := s.desk.start (.submit kind)
        waits := s.waits ++ [⟨s.desk.started,
          ⟨s.clock + min S Wait.horizon, some (s.clock + min s.settings.signatureLimit Wait.horizon)⟩,
          eS.elim (.signature (s.desk.session.request kind)) fun reason =>
            .reply (.signature (.error reason))⟩] } := by
    show ({ s with desk := s.desk.start (.submit kind) } : Simulation).ask s.desk.started none = _
    rw [hstart, ask_signing (Desk.flow?_put_waiting_self ..) (by exact hw)]
    simp only [Simulation.settings, Desk.put_session, begins.settings]
  have calm := h.calm hc hl
  rw [hx] at numbered ⊢
  rw [hstart] at numbered ⊢
  refine ⟨rfl, rfl, rfl, ?_, ⟨Desk.flow?_put_waiting_self .., rfl, rfl, ⟨calm.apart, hl, ?_⟩, ?_⟩,
    numbered, rfl, ?_, ?_, ?_⟩
  · rw [Desk.put_session, begins.tokens]
    exact fresh
  · intro o ho u hu
    rw [Desk.flow?_put_of_ne _ (calm.apart o ho)] at hu
    rw [Desk.put_session, begins.tokens]
    exact calm.free o ho u hu
  · rw [Wait.wake_add]
    exact hlast
  · rw [Desk.put_session]
    exact begins.holds
  · rw [Desk.put_session, begins.position]
    exact hp
  · rw [Desk.put_session, begins.settings]
    rfl

/-- What a submission comes to when nothing else happens but perhaps a cancellation. -/
theorem submission_follows_fate (h : Reached s) {S C : Nat} {eS eC : Option Rejection}
    (hw : s.world.settlement = .simulated S C eS eC) {kind : Kind} (cancel : Option Nat)
    (starts : (s.desk.session.submit kind).2.isWaiting = true) (quiet : s.cancelled? = none)
    (alone : ∀ w ∈ s.waits,
      s.clock + max (cancel.getD 0) (min (min S Wait.horizon) s.settings.signatureLimit +
      min (min C Wait.horizon) s.settings.confirmationLimit) < w.wait.wake) :
    ∃ p amount shares, s.desk.session.state.position = some p ∧
      Entry.ofText (s.desk.session.state.form kind).input = .value amount ∧ p.sharesFor amount = some shares ∧
      let receipt : Receipt := ⟨kind, amount, shares, s.world.reference (s.world.signatures + 1),
        s.moment (s.clock + min S Wait.horizon + min C Wait.horizon)⟩
      let result := p.result receipt (fate s.settings (min S Wait.horizon) (min C Wait.horizon) eS eC cancel)
      let s' := s.submission kind cancel
      s'.desk.outcome? s.desk.started = some (.submitted (.ok (.finished result.1))) ∧
        s'.desk.session.state.phase kind = result.1 ∧ s'.desk.session.state.position = some result.2 := by
  obtain ⟨p, amount, shares, hp, he, ha, hs⟩ := Session.amount_of_submit starts
  obtain ⟨hclock, hmoment, hworld, fresh, underway⟩ := h.start_submit starts quiet hw hp alone (by omega)
  rw [← hclock] at underway
  have done :=
    underway.pursue_fate (a := s.pursuit kind p _) fresh (hworld ▸ hw) ha hs cancel (by rw [hclock]; rfl)
  rw [hclock, hmoment, hworld] at done
  exact ⟨p, amount, shares, hp, he, hs, done.outcome, done.phase, done.position⟩

/-- A client is connected and about to deposit 500. Later reads of the chain take ten minutes. -/
def visitor (session : Session) (settlement : Settlement) : Simulation :=
  let reader := .scripted ⟨⟨0, .ok sampleSnapshot⟩, [⟨600000, .ok sampleSnapshot⟩]⟩
  let world := ⟨.simulated .sample, reader, settlement, fun n => "0xsim" ++ Text.natText n, 0⟩
  (((ofSession session world fun _ => .epoch).start .connect).1.await 0).act (.setInput .deposit "500") |>.1

theorem reached_visitor {settings : Settings} {session : Session} (h : Session.open? settings = .ok session)
    (settlement : Settlement) : Reached (visitor session settlement) :=
  (((Reached.opened h ..).started _).await _).acted _

theorem submission_follows_fate_visitor :
    let s := ((visitor Desk.newSession (.simulated 1500 2000 none none)).start .refresh).1
    Reached s ∧ (s.desk.session.submit .deposit).2.isWaiting = true ∧ s.cancelled? = none ∧
      (∀ w ∈ s.waits, s.clock + max 3499 (min (min 1500 Wait.horizon) s.settings.signatureLimit +
        min (min 2000 Wait.horizon) s.settings.confirmationLimit) < w.wait.wake) ∧
      (s.submission .deposit (some 3499)).desk.session.state.phase .deposit = .rejected .userCancelled := by
  intro s
  have reached : Reached s :=
    (reached_visitor (show Session.open? .standard = .ok Desk.newSession from rfl) _).started _
  have starts : (s.desk.session.submit .deposit).2.isWaiting = true := by decide +kernel
  have quiet : s.cancelled? = none := Option.isNone_iff_eq_none.mp (by decide +kernel)
  have alone : ∀ w ∈ s.waits, s.clock + max 3499 (min (min 1500 Wait.horizon) s.settings.signatureLimit +
      min (min 2000 Wait.horizon) s.settings.confirmationLimit) < w.wait.wake := by decide +kernel
  obtain ⟨p, amount, shares, _, _, _, _, phase, _⟩ :=
    submission_follows_fate reached (show s.world.settlement = .simulated 1500 2000 none none from rfl)
      (some 3499) starts
      quiet alone
  refine ⟨reached, starts, quiet, alone, ?_⟩
  rw [phase]
  have hf : fate s.settings (min 1500 Wait.horizon) (min 2000 Wait.horizon) none none (some 3499) =
    .error .userCancelled := by decide +kernel
  rw [hf]
  rfl

/-- A session that would wait for a signature for more than thirty years. -/
def patientSession : Session := { Desk.newSession with
  settings := { Settings.standard with signatureLimit := Wait.horizon + 1 } }

/-- A limit and a delay of more than thirty years are both cut, so that the answer is not late any more. -/
theorem overlong_signature_in_time :
    let s := visitor patientSession (.simulated (Wait.horizon + 2) 0 none none)
    Reached s ∧ s.waits.isEmpty ∧ (s.desk.session.submit .deposit).2.isWaiting = true ∧
      fate s.settings (Wait.horizon + 2) 0 none none none =
        .error (.networkError "signature timed out after 946080000001ms") ∧
      (s.submission .deposit none).desk.session.state.phase .deposit =
        .settled ⟨.deposit, whole 500, scaled 493291239148 9, "0xsim1", .epoch⟩ := by
  refine ⟨reached_visitor (show Session.open? patientSession.settings = .ok patientSession from rfl) _, ?_⟩
  decide +kernel

end Simulation

end YieldVault
