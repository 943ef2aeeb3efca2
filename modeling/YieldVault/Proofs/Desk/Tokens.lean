import YieldVault.Proofs.Desk.Connecting

/-!
# Tokens in use were issued

A token comes up in four places: among the cancelled ones, with a connection attempt, in the slot of an action
and with the flow that it cancels. It gets there when it is issued, and from there only to the cancelled ones.
So the next token to be issued is new: it is not cancelled and no flow has it.
-/

namespace YieldVault

def Progress.token? : Progress → Option Token
  | waiting f => f.token?
  | _ => none

namespace Session

inductive Knows (s : Session) (t : Token) : Prop
  | cancelled (h : s.tokens.isCancelled t = true)
  | attempt (h : s.state.connectToken = some t)
  | action {k : Kind} (h : (s.slot k).token = some t)

/-- All tokens that come up from `s` to `s'` are issued in between. -/
structure Issues (s s' : Session) : Prop where
  le : s.tokens.issued ≤ s'.tokens.issued
  known : ∀ {t}, s'.Knows t → s.Knows t ∨ t < s'.tokens.issued

theorem Issues.refl (s : Session) : s.Issues s := ⟨Nat.le_refl _, .inl⟩

theorem Issues.trans {s s' s'' : Session} (h : s.Issues s') (h' : s'.Issues s'') : s.Issues s'' := by
  refine ⟨Nat.le_trans h.le h'.le, fun hk => ?_⟩
  rcases h'.known hk with hk | hlt
  · rcases h.known hk with hk | hlt
    · exact .inl hk
    · exact .inr (Nat.lt_of_lt_of_le hlt h'.le)
  · exact .inr hlt

/-- No token is issued or cancelled, and none gets anywhere. -/
theorem Issues.of_tokens {s s' : Session} (ht : s'.tokens = s.tokens)
    (ha : ∀ t, s'.state.connectToken = some t → s.state.connectToken = some t)
    (hs : ∀ k t, (s'.slot k).token = some t → (s.slot k).token = some t) : s.Issues s' := by
  refine ⟨ht ▸ Nat.le_refl _, fun hk => .inl ?_⟩
  cases hk with
  | cancelled h => exact .cancelled (by rwa [ht] at h)
  | attempt h => exact .attempt (ha _ h)
  | action h => exact .action (hs _ _ h)

theorem Issues.of_link {s s' : Session} (ht : s'.tokens = s.tokens) (hl : s'.state.link = s.state.link)
    (hs : ∀ k t, (s'.slot k).token = some t → (s.slot k).token = some t) : s.Issues s' := by
  refine .of_tokens ht (fun t h => ?_) hs
  rwa [show s'.state.connectToken = s.state.connectToken from congrArg Prod.snd hl] at h

theorem Issues.cancel {s : Session} {t : Token} (h : s.Knows t) :
    s.Issues { s with tokens := s.tokens.cancel t } := by
  refine ⟨Nat.le_of_eq (s.tokens.cancel_issued t).symm, fun hk => .inl ?_⟩
  cases hk with
  | cancelled hc =>
    rcases Tokens.isCancelled_of_cancel hc with rfl | hc
    · exact h
    · exact .cancelled hc
  | attempt ha => exact .attempt ha
  | action hs => exact .action hs

/-! ## Operations that end at once -/

theorem moveConnection_issues (s : Session) (m : Connection.Move) : s.Issues (s.moveConnection m).1 := by
  have hq := s.moveConnection_quiet m
  refine .of_tokens ?_ ?_ (fun k t h => by rwa [hq.slot] at h)
  · unfold moveConnection
    cases s.state.connection.step m <;> simp [attempt, bind, Except.bind, pure, Except.pure]
  · intro t
    unfold moveConnection
    cases s.state.connection.step m <;> simp [attempt, bind, Except.bind, pure, Except.pure]

theorem Issues.cancelSlot {s s' : Session} (h : s.Issues s') (kind : Kind) :
    s.Issues { s' with tokens := ((s'.slot kind).cancel s'.tokens).1 } := by
  rcases (s'.slot kind).cancel_cases s'.tokens with he | ⟨t, ht, he⟩
  · rw [he]
    exact h
  · rw [he]
    exact h.trans (.cancel (.action ht))

theorem cancelActions_issues (s : Session) : s.Issues s.cancelActions :=
  ((Issues.refl s).cancelSlot .deposit).cancelSlot .withdraw

theorem disconnect_issues (s : Session) : s.Issues s.disconnect.1 := by
  have h := s.moveConnection_issues .disconnect
  rw [disconnect_eq]
  split
  · exact h.trans (cancelActions_issues _)
  · exact h

theorem setInput_issues (s : Session) (kind : Kind) (raw : String) : s.Issues (s.setInput kind raw).1 := by
  have hw : s.state.Work (s.setInput kind raw).1.state := s.setInput_state kind raw ▸ .typed kind raw
  refine .of_link ?_ hw.link (fun k t h => by rwa [(s.setInput_quiet kind raw).slot] at h)
  simp only [setInput, beginInput, completeInput]
  split <;> simp

theorem Taking.issues {s : Session} {q : Quote} {x : Session × Except Fault Unit} (h : Taking s q x)
    (hw : s.state.Work x.1.state) : s.Issues x.1 := by
  refine .of_link h.tokens hw.link fun k t ht => ?_
  cases h with
  | taken h => rwa [h.slot] at ht
  | refused _ => exact ht

theorem act_issues (s : Session) (a : Action) : s.Issues (s.act a).1 := by
  cases a with
  | cancelConnect =>
    simp only [act, cancelConnect, Prod.map_fst, id]
    split
    · exact .cancel (.attempt ‹_›)
    · exact .refl s
  | acknowledgeConnection => exact s.moveConnection_issues .acknowledge
  | disconnect => exact s.disconnect_issues
  | refreshQuote q => exact (s.refreshQuote_taking q).issues (s.refreshQuote_work q)
  | setInput kind raw => exact s.setInput_issues kind raw
  | fillMax kind => exact s.setInput_issues kind _
  | beginInput kind raw =>
    refine .of_link rfl (State.link_withForm s.state kind _) fun k t h => ?_
    rwa [show (s.act (.beginInput kind raw)).1.slot k = _ from (s.beginInput_quiet kind raw).slot k] at h
  | completeInput ticket =>
    refine .of_link ?_ (s.completeInput_work ticket).link fun k t h => ?_
    · simp only [act, completeInput, Prod.map_fst, id]
      split <;> simp
    · rwa [show (s.act (.completeInput ticket)).1.slot k = _ from (s.completeInput_quiet ticket).slot k] at h
  | cancel kind => exact (Issues.refl s).cancelSlot kind
  | acknowledge kind =>
    show s.Issues (s.acknowledge kind).1
    rcases s.acknowledge_cases kind with he | hr
    · rw [he]
      exact .refl s
    · refine .of_link hr.tokens (s.acknowledge_work kind).link fun k t h => ?_
      by_cases hk : k = kind
      · subst hk
        rwa [hr.slot] at h
      · rwa [hr.other k hk] at h

/-! ## Flows -/

/-- A flow is started with a token that was issued for it, if with any. -/
theorem start_issues (s : Session) (e : Errand) :
    s.Issues (s.start e).1 ∧ ∀ t, (s.start e).2.token? = some t → t < (s.start e).1.tokens.issued := by
  cases e with
  | refresh =>
    simp only [start, refresh]
    split <;> exact ⟨.refl s, fun t h => by cases h⟩
  | connect =>
    simp only [start, connect]
    split
    · exact ⟨.refl s, fun t h => by cases h⟩
    · constructor
      · refine ⟨by simp [Tokens.issue], fun hk => ?_⟩
        cases hk with
        | cancelled h => exact .inl (.cancelled (by rwa [commit_tokens] at h))
        | attempt h =>
          rw [commit_state] at h
          cases h
          simp [Tokens.issue]
        | @action k h =>
          rw [commit_slot] at h
          refine .inl (.action (k := k) ?_)
          cases k <;> exact h
      · rintro t ⟨⟩
        simp [Tokens.issue]
  | submit kind =>
    have hp := s.submit_progress kind
    have hl := (s.submit_work kind).link
    have h := s.submit_submitting kind
    show s.Issues (s.submit kind).1 ∧ ∀ t, (s.submit kind).2.token? = some t →
      t < (s.submit kind).1.tokens.issued
    generalize s.submit kind = x at h hl hp
    cases h with
    | @refused progress h =>
      refine ⟨.refl s, fun t ht => ?_⟩
      rcases hp with ⟨_, rfl⟩ | ⟨r, u, rfl⟩
      · cases ht
      · cases h
    | @begun s' hb =>
      have hi : s'.tokens.issued = s.tokens.issued + 1 := by rw [hb.tokens]; rfl
      refine ⟨⟨by rw [hi]; exact Nat.le_succ _, fun hk => ?_⟩, ?_⟩
      · cases hk with
        | cancelled h => exact .inl (.cancelled (by rwa [hb.tokens] at h))
        | attempt h =>
          exact .inl (.attempt (by rwa [show s'.state.connectToken = _ from congrArg Prod.snd hl] at h))
        | @action k h =>
          by_cases hk : k = kind
          · subst hk
            rw [hb.slot] at h
            cases h
            exact .inr (by rw [hi]; exact Nat.lt_succ_self _)
          · exact .inl (.action (k := k) (by rwa [hb.other k hk] at h))
      · rintro t ⟨⟩
        show s.tokens.issued < s'.tokens.issued
        rw [hi]
        exact Nat.lt_succ_self _

theorem rejectAction_token (s : Session) (r : Request) (reason : Rejection) (k : Kind) {t : Token}
    (h : ((s.rejectAction r reason).1.slot k).token = some t) : (s.slot k).token = some t := by
  simp only [rejectAction] at h
  cases hr : (s.state.form r.kind).slot.reject r.trace reason with
  | error e =>
    rw [hr] at h
    exact h
  | ok slot =>
    obtain ⟨_, _, rfl⟩ := Slot.reject_eq_ok_iff.mp hr
    simp only [hr, finish, commit_slot] at h
    by_cases hk : k = r.kind
    · subst hk
      rw [State.slot_withSlot] at h
      cases h
    · rwa [State.slot_withSlot_of_ne _ hk] at h

theorem rejectAction_token? (s : Session) (r : Request) (reason : Rejection) :
    (s.rejectAction r reason).2.token? = none := by
  unfold rejectAction
  dsimp only
  split <;> rfl

/-- An action that moves on keeps its token or loses it. -/
theorem Acting.token {s : Session} {x : Session × Progress} (h : s.Acting x) (k : Kind) {t : Token}
    (ht : (x.1.slot k).token = some t) : (s.slot k).token = some t := by
  cases h with
  | unmoved => exact ht
  | rejects r reason => exact s.rejectAction_token r reason k ht
  | signs r signed u =>
    simp only [signAction] at ht
    cases hr : (s.state.form r.kind).slot.sign r.trace signed.reference with
    | error e =>
      rw [hr] at ht
      exact ht
    | ok slot =>
      obtain ⟨_, _, rfl⟩ := Slot.sign_eq_ok_iff.mp hr
      simp only [hr, commit_slot] at ht
      by_cases hk : k = r.kind
      · subst hk
        rw [State.slot_withSlot] at ht
        exact ht
      · rwa [State.slot_withSlot_of_ne _ hk] at ht
  | settles signed now =>
    unfold settleAction at ht
    have hs := s.state.settle_settling signed now
    generalize s.state.settle signed now = result at hs ht
    cases hs with
    | stale _ => exact ht
    | refused _ reason => exact s.rejectAction_token _ _ k ht
    | settled _ _ _ _ slot other =>
      simp only [finish, commit_slot] at ht
      by_cases hk : k = signed.request.kind
      · subst hk
        rw [slot] at ht
        cases ht
      · rwa [other k hk] at ht

theorem Acting.issues {s : Session} {x : Session × Progress} (h : s.Acting x) : s.Issues x.1 :=
  .of_link h.tokens h.work.link fun k _ ht => h.token k ht

theorem enter_issues (s : Session) (m : Connection.Move) :
    s.Issues (s.enter m).1 ∧ (s.enter m).2.token? = none := by
  constructor
  · refine .of_tokens ?_ ?_ fun k t h => by rwa [(s.enter_passes m).quiet.slot] at h
    · simp only [enter]
      split
      · rfl
      · split <;> exact commit_tokens ..
    · intro t h
      simp only [enter] at h
      split at h
      · cases h
      · split at h <;> simp at h
  · simp only [enter]
    split
    · rfl
    · split <;> rfl

theorem takeSnapshot_issues (s : Session) (account : String) (result : Except Fault Snapshot) :
    s.Issues (s.takeSnapshot account result).1 := by
  cases result with
  | error e => exact .refl s
  | ok snapshot => exact (s.takeSnapshot_taking account snapshot).issues (s.takeSnapshot_work account _)

/-- A flow that waits on keeps its token. -/
theorem resume_issues (s : Session) (f : Flow) (signal : Signal) (now : Moment) :
    s.Issues (s.resume f signal now).1 ∧ ∀ t, (s.resume f signal now).2.token? = some t →
      f.token? = some t := by
  cases f with
  | connecting stage u =>
    have ha := s.resumeConnecting_attempt stage u signal
    show s.Issues (s.resumeConnecting stage u signal).1 ∧ _
    simp only [resume]
    generalize s.resumeConnecting stage u signal = x at ha
    cases ha with
    | unmoved => exact ⟨.refl s, fun t h => by cases h⟩
    | asks next => exact ⟨.refl s, fun t h => h⟩
    | @enters m hm =>
      obtain ⟨hi, ht⟩ := s.enter_issues m
      exact ⟨hi, fun t h => by rw [ht] at h; cases h⟩
  | reading account =>
    cases signal with
    | reply r =>
      cases r with
      | snapshot result => exact ⟨s.takeSnapshot_issues account result, fun t h => by cases h⟩
      | _ => exact ⟨.refl s, fun t h => by cases h⟩
    | _ => exact ⟨.refl s, fun t h => by cases h⟩
  | refreshing account =>
    cases signal with
    | reply r =>
      cases r with
      | snapshot result => exact ⟨s.takeSnapshot_issues account result, fun t h => by cases h⟩
      | _ => exact ⟨.refl s, fun t h => by cases h⟩
    | _ => exact ⟨.refl s, fun t h => by cases h⟩
  | signing r u =>
    have ha := s.resume_acting (f := .signing r u) rfl signal now
    refine ⟨ha.issues, fun t h => ?_⟩
    simp only [resume, resumeSigning, signAction] at h
    split at h
    · rw [rejectAction_token?] at h
      cases h
    · split at h
      · rw [rejectAction_token?] at h
        cases h
      · split at h
        · exact h
        · cases h
      · rw [rejectAction_token?] at h
        cases h
      · cases h
  | confirming r signed u =>
    have ha := s.resume_acting (f := .confirming r signed u) rfl signal now
    refine ⟨ha.issues, fun t h => ?_⟩
    simp only [resume, resumeConfirming, settleAction] at h
    split at h
    · rw [rejectAction_token?] at h
      cases h
    · split at h
      · rw [rejectAction_token?] at h
        cases h
      · split at h
        · cases h
        · rw [rejectAction_token?] at h
          cases h
        · cases h
      · rw [rejectAction_token?] at h
        cases h
      · cases h

theorem watch_issues (s : Session) (w : Watch) : s.Issues (s.watch w) := by
  cases w <;> exact .of_link rfl rfl fun _ _ h => h

end Session

namespace Desk

/-- Every token that comes up anywhere was issued. -/
structure Stamped (d : Desk) : Prop where
  session : ∀ {t}, d.session.Knows t → t < d.session.tokens.issued
  flow : ∀ {i f t}, d.flow? i = some f → f.token? = some t → t < d.session.tokens.issued

theorem stamped_ofSession {settings : Settings} {s : Session} (hs : Session.open? settings = .ok s) :
    (ofSession s).Stamped := by
  obtain ⟨hst, ht, _⟩ := Session.open?_eq hs
  refine ⟨fun hk => ?_, fun hf => by cases hf⟩
  cases hk with
  | cancelled h =>
    rw [show (ofSession s).session.tokens = .none from ht] at h
    cases h
  | attempt h =>
    rw [show (ofSession s).session.state = .initial from hst] at h
    cases h
  | @action k h =>
    unfold Session.slot at h
    rw [show (ofSession s).session.state = .initial from hst] at h
    cases k <;> cases h

variable {d : Desk}

theorem Stamped.of_issues (h : d.Stamped) {s : Session} (hs : d.session.Issues s) (n : Nat) :
    ({ d with session := s, started := n } : Desk).Stamped := by
  refine ⟨fun hk => ?_, fun hf ht => Nat.lt_of_lt_of_le (h.flow hf ht) hs.le⟩
  rcases hs.known hk with hk | hlt
  · exact Nat.lt_of_lt_of_le (h.session hk) hs.le
  · exact hlt

theorem Stamped.put (h : d.Stamped) {i : FlowId} {progress : Progress}
    (hp : ∀ t, progress.token? = some t → t < d.session.tokens.issued) : (d.put i progress).Stamped := by
  refine ⟨fun hk => ?_, fun {j f t} hf ht => ?_⟩
  · rw [put_session] at hk ⊢
    exact h.session hk
  · rw [put_session]
    by_cases hj : j = i
    · subst hj
      cases progress with
      | unmoved => exact h.flow hf ht
      | ended o =>
        rw [flow?_put_ended_self] at hf
        cases hf
      | waiting g =>
        rw [flow?_put_waiting_self] at hf
        cases hf
        exact hp t ht
    · rw [flow?_put_of_ne _ hj] at hf
      exact h.flow hf ht

theorem Stamped.step (h : d.Stamped) (step : Step) : (d.step step).Stamped := by
  cases step with
  | act a => exact h.of_issues (d.session.act_issues a) d.started
  | watch w => exact h.of_issues (d.session.watch_issues w) d.started
  | start e =>
    obtain ⟨hi, hp⟩ := d.session.start_issues e
    exact (h.of_issues hi (d.started + 1)).put hp
  | wake i signal now =>
    show (d.wake i signal now).Stamped
    cases hf : d.flow? i with
    | none =>
      rw [wake_eq_self hf]
      exact h
    | some f =>
      obtain ⟨hi, hp⟩ := d.session.resume_issues f signal now
      rw [wake_eq hf]
      refine (h.of_issues hi d.started).put fun t ht => ?_
      exact Nat.lt_of_lt_of_le (h.flow hf (hp t ht)) hi.le

theorem run_stamped {settings : Settings} {s : Session} (hs : Session.open? settings = .ok s)
    (steps : List Step) :
    ((ofSession s).run steps).Stamped := by
  induction steps using List.reverseRecOn with
  | nil => exact stamped_ofSession hs
  | append_singleton history step ih =>
    rw [run_snoc]
    exact ih.step step

end Desk

end YieldVault
