import YieldVault.Proofs.Desk.Custody
import YieldVault.Proofs.Desk.Reach

/-!
# Connection attempts

An attempt asks the wallet, enters a connection with what came of it and, if that is an account, reads the
chain once. While the session is connecting there is exactly one attempt that asks, and it holds the session's
token. So the wallet's last word always finds the session connecting, and an attempt never ends with a fault.
An attempt that was called off looks at its token before it looks at the wallet's answer.
-/

namespace YieldVault

/-- A connection that an attempt can end with. -/
def Connection.Entered (c : Connection) : Prop :=
  (∃ address, c = .connected address) ∨ ∃ reason, c = .failed reason

/-- The end of an attempt that was called off. -/
def Outcome.calledOff : Outcome := .connected (.ok (.failed .userRejected))

namespace Session

/-! ## Cancelled tokens -/

theorem Taking.tokens {s : Session} {q : Quote} {x : Session × Except Fault Unit} (h : Taking s q x) :
    x.1.tokens = s.tokens := by
  cases h with
  | taken h => exact h.tokens
  | refused _ => rfl

theorem act_cancelled (s : Session) (a : Action) {t : Token} (h : s.tokens.isCancelled t = true) :
    (s.act a).1.tokens.isCancelled t = true := by
  cases a with
  | refreshQuote q =>
    show (s.refreshQuote q).1.tokens.isCancelled t = true
    rw [(s.refreshQuote_taking q).tokens]
    exact h
  | acknowledge kind =>
    show (s.acknowledge kind).1.tokens.isCancelled t = true
    rcases s.acknowledge_cases kind with he | hr
    · rw [he]; exact h
    · rw [hr.tokens]; exact h
  | _ => exact (s.act_quiet rfl).cancelled t h

theorem start_cancelled (s : Session) (e : Errand) {t : Token} (h : s.tokens.isCancelled t = true) :
    (s.start e).1.tokens.isCancelled t = true := by
  cases e with
  | connect => exact s.connect_passes.quiet.cancelled t h
  | refresh => exact s.refresh_passes.quiet.cancelled t h
  | submit kind =>
    have hs := s.submit_submitting kind
    show (s.submit kind).1.tokens.isCancelled t = true
    generalize s.submit kind = x at hs
    cases hs with
    | refused _ => exact h
    | begun hb => exact hb.cancelled t h

theorem Acting.tokens {s : Session} {x : Session × Progress} (h : s.Acting x) : x.1.tokens = s.tokens := by
  have rejects : ∀ r reason, (s.rejectAction r reason).1.tokens = s.tokens := by
    intro r reason
    simp only [rejectAction]
    split <;> simp [finish]
  cases h with
  | unmoved => rfl
  | rejects r reason => exact rejects r reason
  | signs r signed t =>
    simp only [signAction]
    split <;> simp [finish]
  | settles signed now =>
    unfold settleAction
    split
    · simp [finish]
    · exact rejects _ _
    · rfl

theorem resume_cancelled (s : Session) (f : Flow) (signal : Signal) (now : Moment) {t : Token}
    (h : s.tokens.isCancelled t = true) : (s.resume f signal now).1.tokens.isCancelled t = true := by
  rcases f.reads_or_not signal with ⟨snapshot, account, rfl, ha⟩ | hn
  · obtain ⟨progress, he, _⟩ := s.resume_snapshot ha (.ok snapshot) now
    rw [he]
    show (s.takeSnapshot account (.ok snapshot)).1.tokens.isCancelled t = true
    rw [(s.takeSnapshot_taking account snapshot).tokens]
    exact h
  · cases ha : f.action? with
    | none => exact (s.resume_passes ha hn now).quiet.cancelled t h
    | some x => rw [(s.resume_acting ha signal now).tokens]; exact h

/-! ## The wallet's last word -/

theorem enter_eq (s : Session) (h : s.state.connection = .connecting) {m : Connection.Move} {c : Connection}
    (he : Connection.step .connecting m = .ok c) :
    (s.enter m).1.state.connection = c ∧
      ((∃ account, c = .connected account ∧ (s.enter m).2 = .waiting (.reading account)) ∨
        (∀ account, c ≠ .connected account) ∧ (s.enter m).2 = .ended (.connected (.ok c))) := by
  unfold enter
  simp only [h, he]
  cases c with
  | connected account => simp
  | disconnected => simp
  | connecting => simp
  | failed reason => simp

theorem connecting_of_cancelConnect {s : Session} (h : s.cancelConnect.2 = true) :
    s.state.connection = .connecting := by
  unfold cancelConnect at h
  split at h
  · assumption
  · cases h

theorem act_connecting (s : Session) (a : Action) (h : (s.act a).1.state.connection = .connecting) :
    s.state.connection = .connecting := by
  have moves : ∀ {m : Connection.Move}, m = .acknowledge ∨ m = .disconnect →
      (s.moveConnection m).1.state.connection = .connecting → s.state.connection = .connecting := by
    intro m hm hc
    unfold moveConnection at hc
    cases hs : s.state.connection.step m with
    | error e => simpa [hs, attempt, bind, Except.bind] using hc
    | ok c =>
      obtain ⟨_, rfl⟩ := Connection.step_let_go hm hs
      simp [hs, attempt, bind, Except.bind, pure, Except.pure] at hc
  have work : ∀ {st : State}, s.state.Work st → st.connection = .connecting →
      s.state.connection = .connecting := by
    intro st hw hc
    rw [← hc]
    exact (congrArg Prod.fst hw.link).symm
  cases a with
  | cancelConnect =>
    exact work (by simp only [act, cancelConnect, Prod.map_fst, id]; split <;> exact .still) h
  | acknowledgeConnection => exact moves (.inl rfl) h
  | disconnect =>
    refine moves (.inr rfl) ?_
    rw [← h]
    simp only [act, disconnect_eq, Prod.map_fst, id]
    split <;> rfl
  | refreshQuote q => exact work (s.refreshQuote_work q) h
  | setInput kind raw => exact work (s.setInput_state kind raw ▸ .typed kind raw) h
  | beginInput kind raw =>
    rw [← h]
    exact (congrArg Prod.fst (State.link_withForm s.state kind _)).symm
  | completeInput t => exact work (s.completeInput_work t) h
  | fillMax kind => exact work (s.setInput_state kind _ ▸ .typed kind _) h
  | cancel kind => exact work .still h
  | acknowledge kind => exact work (s.acknowledge_work kind) h

end Session

namespace Desk

variable {d : Desk} {i : FlowId} {t : Token}

theorem session_start (d : Desk) (e : Errand) : (d.step (.start e)).session = (d.session.start e).1 :=
  put_session ..

theorem step_cancelled (h : d.session.tokens.isCancelled t = true) (step : Step) :
    (d.step step).session.tokens.isCancelled t = true := by
  cases step with
  | act a => exact d.session.act_cancelled a h
  | start e => rw [session_start]; exact d.session.start_cancelled e h
  | wake j signal now =>
    show (d.wake j signal now).session.tokens.isCancelled t = true
    cases hf : d.flow? j with
    | none => rw [wake_eq_self hf]; exact h
    | some f => rw [wake_eq hf, put_session]; exact d.session.resume_cancelled f signal now h
  | watch w => cases w <;> exact h

/-! ## One flow among others -/

theorem flow?_step_of_ne (hn : d.Numbered) {f : Flow} (hf : d.flow? i = some f) {step : Step}
    (h : ∀ signal now, step ≠ .wake i signal now) : (d.step step).flow? i = some f := by
  cases step with
  | act a => exact hf
  | watch w => exact hf
  | start e =>
    have hi : i ≠ d.started := Nat.ne_of_lt (hn.lt hf)
    show (d.start e).flow? i = some f
    unfold start
    rw [flow?_put_of_ne _ hi]
    exact hf
  | wake j signal now =>
    have hi : i ≠ j := by
      intro he
      exact h signal now (by rw [he])
    show (d.wake j signal now).flow? i = some f
    cases hg : d.flow? j with
    | none => rw [wake_eq_self hg]; exact hf
    | some g => rw [wake_eq hg, flow?_put_of_ne _ hi]; exact hf

theorem outcome?_step {o : Outcome} (h : d.outcome? i = some o) (step : Step) :
    (d.step step).outcome? i = some o := by
  cases step with
  | act a => exact h
  | watch w => exact h
  | start e => exact outcome?_put h _ _
  | wake j signal now =>
    show (d.wake j signal now).outcome? i = some o
    cases hg : d.flow? j with
    | none => rw [wake_eq_self hg]; exact h
    | some g => rw [wake_eq hg]; exact outcome?_put h _ _

theorem attempt?_eq_some_iff : d.attempt? i = some t ↔ ∃ stage, d.flow? i = some (.connecting stage t) := by
  unfold attempt?
  constructor
  · intro h
    split at h
    · rename_i stage u hf
      cases h
      exact ⟨stage, hf⟩
    · cases h
  · rintro ⟨stage, hf⟩
    rw [hf]

theorem attempt?_step_of_ne (hn : d.Numbered) (ht : d.attempt? i = some t) {step : Step}
    (h : ∀ signal now, step ≠ .wake i signal now) : (d.step step).attempt? i = some t := by
  obtain ⟨stage, hf⟩ := attempt?_eq_some_iff.mp ht
  exact attempt?_eq_some_iff.mpr ⟨stage, flow?_step_of_ne hn hf h⟩

theorem attempt?_start {c : Connection} (h : d.session.state.connection.step .request = .ok c) :
    (d.step (.start .connect)).attempt? d.started = some d.session.tokens.issued := by
  refine attempt?_eq_some_iff.mpr ⟨.askAccount, ?_⟩
  show (d.start .connect).flow? d.started = _
  unfold start
  simp only [Session.start, Session.connect, h]
  exact flow?_put_waiting_self ..

/-- What a signal does to an attempt that asks the wallet. -/
inductive Asked (d : Desk) (i : FlowId) (t : Token) (d' : Desk) : Prop
  | goesOn (flow : d'.attempt? i = some t) (state : d'.session.state = d.session.state)
  | reads {account : String} (flow : d'.flow? i = some (.reading account))
    (state : d'.session.state.connection = .connected account)
  | ends {c : Connection} (outcome : d'.outcome? i = some (.connected (.ok c))) (hc : c.Entered)
    (state : d'.session.state.connection = c)

theorem Attempting.asked (h : d.Attempting) (hn : d.Numbered) (ht : d.attempt? i = some t) (signal : Signal)
    (now : Moment) : d.Asked i t (d.wake i signal now) := by
  obtain ⟨stage, hf⟩ := attempt?_eq_some_iff.mp ht
  have hc : d.session.state.connection = .connecting := congrArg Prod.fst (h.connecting ht)
  have ha := d.session.resumeConnecting_attempt stage t signal
  rw [wake_eq hf]
  simp only [Session.resume]
  generalize d.session.resumeConnecting stage t signal = x at ha
  cases ha with
  | unmoved => exact .goesOn ht rfl
  | asks next =>
    exact .goesOn (attempt?_eq_some_iff.mpr ⟨next, flow?_put_waiting_self ..⟩) (by rw [put_session])
  | @enters m hm =>
    obtain ⟨c, he, hne⟩ := Connection.step_entry_connecting hm
    obtain ⟨hs, ⟨account, rfl, hp⟩ | ⟨hno, hp⟩⟩ := d.session.enter_eq hc he
    · rw [hp]
      exact .reads (flow?_put_waiting_self ..) (by rw [put_session]; exact hs)
    · rw [hp]
      refine .ends (hn.outcome?_ended hf _) ?_ (by rw [put_session]; exact hs)
      rcases hm with ⟨address, rfl⟩ | ⟨reason, rfl⟩
      · cases he
        unfold Connection.ofAccount
        split
        · exact .inr ⟨_, rfl⟩
        · exact .inl ⟨_, rfl⟩
      · cases he
        exact .inr ⟨_, rfl⟩

/-! ## Exactly one attempt -/

/-- While the session is connecting somebody asks the wallet. -/
def Attended (d : Desk) : Prop := d.session.state.connection = .connecting → ∃ i t, d.attempt? i = some t

theorem Attended.of_link (h : d.Attended) (hn : d.Numbered) {step : Step}
    (hl : (d.step step).session.state.connection = .connecting → d.session.state.connection = .connecting)
    (hw : ∀ {i signal now}, step = .wake i signal now → d.attempt? i = none) : (d.step step).Attended := by
  intro hc
  obtain ⟨i, t, ht⟩ := h (hl hc)
  refine ⟨i, t, attempt?_step_of_ne hn ht ?_⟩
  intro signal now he
  rw [hw he] at ht
  cases ht

theorem Attended.step (h : d.Attended) (ha : d.Attempting) (hn : d.Numbered) (step : Step) :
    (d.step step).Attended := by
  cases step with
  | act a => exact h.of_link hn (d.session.act_connecting a) (fun he => by cases he)
  | watch w => exact h.of_link hn (fun hc => by cases w <;> exact hc) (fun he => by cases he)
  | start e =>
    have same : (d.session.start e).1.state.connection = d.session.state.connection →
        (d.step (.start e)).Attended := by
      intro he
      refine h.of_link hn ?_ (fun he => by cases he)
      rw [session_start, he]
      exact id
    cases e with
    | refresh =>
      apply same
      simp only [Session.start, Session.refresh]
      split <;> rfl
    | submit kind => exact same (congrArg Prod.fst (d.session.submit_work kind).link)
    | connect =>
      cases hs : d.session.state.connection.step .request with
      | error e =>
        apply same
        simp [Session.start, Session.connect, hs]
      | ok c =>
        intro _
        exact ⟨_, _, attempt?_start hs⟩
  | wake j signal now =>
    by_cases hj : ∃ t, d.attempt? j = some t
    · obtain ⟨t, ht⟩ := hj
      intro hc
      cases ha.asked hn ht signal now with
      | goesOn flow _ => exact ⟨j, t, flow⟩
      | reads _ state =>
        rw [show (d.step (.wake j signal now)).session.state.connection = _ from state] at hc
        cases hc
      | ends _ hc' state =>
        rw [show (d.step (.wake j signal now)).session.state.connection = _ from state] at hc
        subst hc
        rcases hc' with ⟨_, he⟩ | ⟨_, he⟩ <;> cases he
    · have hnone : d.attempt? j = none := by simpa [Option.eq_none_iff_forall_ne_some] using hj
      refine h.of_link hn ?_ (fun he => by cases he; exact hnone)
      intro hc
      rw [← hc]
      show _ = (d.wake j signal now).session.state.connection
      cases hf : d.flow? j with
      | none => rw [wake_eq_self hf]
      | some f =>
        rw [wake_eq hf, put_session]
        have hno : ∀ stage t, f ≠ .connecting stage t := by
          intro stage t he
          exact hj ⟨t, attempt?_eq_some_iff.mpr ⟨stage, by rw [hf, he]⟩⟩
        exact (congrArg Prod.fst (d.session.resume_work hno signal now).link).symm

/-! ## The course of an attempt -/

/-- The attempt of the flow `i` asks the wallet, reads the chain, or has ended without a fault. -/
inductive Proceeds (d : Desk) (i : FlowId) : Prop
  | asks {t : Token} (flow : d.attempt? i = some t)
  | reads {account : String} (flow : d.flow? i = some (.reading account))
  | ended {c : Connection} (outcome : d.outcome? i = some (.connected (.ok c))) (hc : c.Entered)

theorem Proceeds.step (h : d.Proceeds i) (ha : d.Attempting) (hn : d.Numbered) (step : Step) :
    (d.step step).Proceeds i := by
  by_cases hw : ∃ signal now, step = .wake i signal now
  · obtain ⟨signal, now, rfl⟩ := hw
    cases h with
    | asks flow =>
      cases ha.asked hn flow signal now with
      | goesOn flow' _ => exact .asks flow'
      | reads flow' _ => exact .reads flow'
      | ends outcome hc _ => exact .ended outcome hc
    | ended outcome hc => exact .ended (outcome?_step outcome _) hc
    | @reads account flow =>
      show (d.wake i signal now).Proceeds i
      rw [wake_eq flow]
      cases signal with
      | reply r =>
        cases r with
        | snapshot result => exact .ended (hn.outcome?_ended flow _) (.inl ⟨account, rfl⟩)
        | _ => exact .reads flow
      | _ => exact .reads flow
  · have hne : ∀ signal now, step ≠ .wake i signal now := fun signal now he => hw ⟨signal, now, he⟩
    cases h with
    | asks flow => exact .asks (attempt?_step_of_ne hn flow hne)
    | reads flow => exact .reads (flow?_step_of_ne hn flow hne)
    | ended outcome hc => exact .ended (outcome?_step outcome step) hc

theorem Proceeds.no_fault (h : d.Proceeds i) (hn : d.Numbered) (e : Fault) :
    d.outcome? i ≠ some (.connected (.error e)) := by
  have waits : ∀ {f : Flow}, d.flow? i = some f → d.outcome? i = none := by
    intro f hf
    exact lookup_eq_none_iff_key.mpr (hn.not_ended hf)
  cases h with
  | asks flow =>
    obtain ⟨stage, hf⟩ := attempt?_eq_some_iff.mp flow
    simp [waits hf]
  | reads flow => simp [waits flow]
  | ended outcome _ => simp [outcome]

/-! ## Calling off -/

/-- The attempt of the flow `i` has ended as called off, or it still asks the wallet and any
signal ends it so. -/
def CalledOff (d : Desk) (i : FlowId) : Prop :=
  d.outcome? i = some .calledOff ∨
    (∃ t, d.attempt? i = some t) ∧ ∀ signal now,
      (d.wake i signal now).outcome? i = some .calledOff ∧
        (d.wake i signal now).session.state.connection = .failed .userRejected

theorem Attempting.ends_calledOff (h : d.Attempting) (hn : d.Numbered) (ht : d.attempt? i = some t)
    (hc : d.session.tokens.isCancelled t = true) (signal : Signal) (now : Moment) :
    (d.wake i signal now).outcome? i = some .calledOff ∧
      (d.wake i signal now).session.state.connection = .failed .userRejected := by
  obtain ⟨stage, hf⟩ := attempt?_eq_some_iff.mp ht
  have hs : d.session.state.connection = .connecting := congrArg Prod.fst (h.connecting ht)
  obtain ⟨hstate, ⟨account, he, _⟩ | ⟨_, hp⟩⟩ :=
    d.session.enter_eq hs (show Connection.step .connecting (.rejected .userRejected) = .ok _ from rfl)
  · cases he
  · rw [wake_eq hf]
    simp only [Session.resume, Session.resumeConnecting, if_pos hc, hp]
    exact ⟨hn.outcome?_ended hf _, by rw [put_session]; exact hstate⟩

/-- The attempt with the token `t` was called off: it has ended so, or it asks the wallet with
a cancelled token. -/
def Recalled (d : Desk) (i : FlowId) (t : Token) : Prop :=
  d.outcome? i = some .calledOff ∨ d.attempt? i = some t ∧ d.session.tokens.isCancelled t = true

theorem Recalled.step (h : d.Recalled i t) (ha : d.Attempting) (hn : d.Numbered) (step : Step) :
    (d.step step).Recalled i t := by
  rcases h with ho | ⟨ht, hc⟩
  · exact .inl (outcome?_step ho step)
  · by_cases hw : ∃ signal now, step = .wake i signal now
    · obtain ⟨signal, now, rfl⟩ := hw
      exact .inl (ha.ends_calledOff hn ht hc signal now).1
    · refine .inr ⟨attempt?_step_of_ne hn ht ?_, step_cancelled hc step⟩
      intro signal now he
      exact hw ⟨signal, now, he⟩

theorem Recalled.calledOff (h : d.Recalled i t) (ha : d.Attempting) (hn : d.Numbered) : d.CalledOff i := by
  rcases h with ho | ⟨ht, hc⟩
  · exact .inl ho
  · exact .inr ⟨⟨t, ht⟩, ha.ends_calledOff hn ht hc⟩

/-- The token that is cancelled is the one of the attempt that asks. -/
theorem Attempting.recalled (h : d.Attempting) (ht : d.attempt? i = some t) :
    (d.step (.act .cancelConnect)).Recalled i t := by
  have hl := h.connecting ht
  have hc : d.session.state.connection = .connecting := congrArg Prod.fst hl
  have hk : d.session.state.connectToken = some t := congrArg Prod.snd hl
  refine .inr ⟨ht, ?_⟩
  simp only [Desk.step, Desk.act, Session.act, Session.cancelConnect, hc, hk, Prod.map_fst, id]
  exact d.session.tokens.isCancelled_cancel t

/-! ## Runs -/

theorem run_numbered (s : Session) (steps : List Step) : ((ofSession s).run steps).Numbered := by
  induction steps using List.reverseRecOn with
  | nil => exact numbered_ofSession s
  | append_singleton history step ih =>
    rw [run_snoc]
    exact ih.step step

/-- What holds at some point of a run, and is kept by every step of a reachable desk, holds at its end. -/
theorem run_carries {P : Desk → Prop} (hP : ∀ {d}, d.Attempting → d.Numbered → ∀ step, P d → P (d.step step))
    {s : Session} (before after : List Step) (h : P ((ofSession s).run before)) :
    P ((ofSession s).run (before ++ after)) := by
  induction after using List.reverseRecOn with
  | nil => simpa using h
  | append_singleton history step ih =>
    rw [← List.append_assoc, run_snoc]
    exact hP (run_attempting s _) (run_numbered s _) step ih

theorem run_attended {s : Session} (hs : s.state = .initial) (steps : List Step) :
    ((ofSession s).run steps).Attended := by
  have h₀ : ((ofSession s).run []).Attended := by
    intro hc
    rw [show ((ofSession s).run []).session.state = .initial from hs] at hc
    cases hc
  simpa using run_carries (fun ha hn step h => Attended.step h ha hn step) [] steps h₀

theorem run_named {s : Session} (hs : s.state = .initial) (steps : List Step) :
    ((ofSession s).run steps).session.state.connection.Named := by
  refine run_keeps (P := fun st => st.connection.Named) ?_ ?_ ?_ steps
  · intro st kind raw h
    rw [show (st.beginInput kind raw).1.connection = _ from congrArg Prod.fst (State.link_withForm st kind _)]
    exact h
  · intro st st' h he
    cases he with
    | worked hw =>
      rw [show st'.connection = _ from congrArg Prod.fst hw.link]
      exact h
    | requested _ _ => intro address ha; cases ha
    | entered _ _ hn => exact hn
    | dropped _ => exact h
    | left _ => intro address ha; cases ha
  · show s.state.connection.Named
    rw [hs]
    intro address ha
    cases ha

/-- The session has a token to call an attempt off exactly while it is connecting, and then exactly
one attempt asks the wallet. A connected account is not blank. An attempt whose request was accepted
asks, reads or ends without a fault, and one that was called off ends as rejected by the user,
whatever the wallet answers. -/
theorem connect_protocol {settings : Settings} {s : Session} (hs : Session.open? settings = .ok s)
    (steps : List Step) :
    let d := (ofSession s).run steps
    (d.session.state.connectToken.isSome = true ↔ d.session.state.connection = .connecting) ∧
      (d.session.state.connection = .connecting ↔ ∃ i t, d.attempt? i = some t) ∧
      (∀ i j t u, d.attempt? i = some t → d.attempt? j = some u → i = j) ∧
      (∀ address, d.session.state.connection = .connected address → Text.trimChars address.toList ≠ []) ∧
      (∀ before after c, steps = before ++ .start .connect :: after →
        ((ofSession s).run before).session.state.connection.step .request = .ok c →
          d.Proceeds ((ofSession s).run before).started ∧
            ∀ e, d.outcome? ((ofSession s).run before).started ≠ some (.connected (.error e))) ∧
      ∀ before after, steps = before ++ .act .cancelConnect :: after →
        ((ofSession s).run before).session.cancelConnect.2 = true →
          ∃ i t, ((ofSession s).run before).attempt? i = some t ∧ d.CalledOff i := by
  intro d
  have hi := (Session.open?_eq hs).1
  have attempting := run_attempting s steps
  refine ⟨(run_cancellable hi steps).attempt, ⟨run_attended hi steps, ?_⟩, ?_, run_named hi steps, ?_, ?_⟩
  · rintro ⟨i, t, ht⟩
    exact congrArg Prod.fst (attempting.connecting ht)
  · intro i j t u ht hu
    exact attempting.alone ht hu
  · intro before after c hsteps hc
    have begun : ((ofSession s).run (before ++ [.start .connect])).Proceeds
        ((ofSession s).run before).started := by
      rw [run_snoc]
      exact .asks (attempt?_start hc)
    have h := run_carries (fun ha hn step h => Proceeds.step h ha hn step) _ after begun
    have hd : d.Proceeds ((ofSession s).run before).started := by simpa [hsteps, d] using h
    exact ⟨hd, hd.no_fault (run_numbered s steps)⟩
  · intro before after hsteps hc
    obtain ⟨i, t, ht⟩ := run_attended hi before (Session.connecting_of_cancelConnect hc)
    have recalled : ((ofSession s).run (before ++ [.act .cancelConnect])).Recalled i t := by
      rw [run_snoc]
      exact (run_attempting s before).recalled ht
    have h := run_carries (fun ha hn step h => Recalled.step h ha hn step) _ after recalled
    have hd : d.Recalled i t := by simpa [hsteps, d] using h
    exact ⟨i, t, ht, hd.calledOff attempting (run_numbered s steps)⟩

/-- A visitor asks to be connected, thinks better of it and asks again; the wallet knows nothing of that and
answers the first time as if it were wanted. The second time it names a blank account. -/
def hesitation : List Step :=
  [.start .connect,
   .wake 0 (.reply (.wallet (.account (.ok Simulation.sampleAccount)))) .epoch,
   .act .cancelConnect,
   .start .connect,
   .wake 0 (.reply (.wallet (.chainId (.ok 8453)))) .epoch,
   .start .connect,
   .wake 2 (.reply (.wallet (.account (.ok " ")))) .epoch,
   .wake 2 (.reply (.wallet (.chainId (.ok 8453)))) .epoch]

theorem connect_protocol_hesitation :
    (∃ i t, ((ofSession newSession).run (hesitation.take 2)).attempt? i = some t ∧
      ((ofSession newSession).run hesitation).CalledOff i) ∧
      ((ofSession newSession).run hesitation).Proceeds 2 ∧
      ((ofSession newSession).run hesitation).session.state.connection =
        .failed (.unknown "wallet returned no account") := by
  have protocol := connect_protocol (show Session.open? .standard = .ok newSession from rfl) hesitation
  refine ⟨protocol.2.2.2.2.2 (hesitation.take 2) (hesitation.drop 3) rfl (by decide +kernel),
    ?_, by decide +kernel⟩
  exact (protocol.2.2.2.2.1 (hesitation.take 5) (hesitation.drop 6) .connecting rfl (by decide +kernel)).1

end Desk

end YieldVault
