import YieldVault.Proofs.Session.Effect
import YieldVault.Proofs.Session.Segment

/-!
# Drafts

The text in a form and the number of its edit. Typing replaces both, a settlement empties the text under
a new number, and nothing else touches them: neither quotes nor snapshots nor verdicts nor the moves of
a slot. A ticket is completed just when its number is that of the draft, and completing it judges the
draft and leaves it as it is.
-/

namespace YieldVault

namespace State

/-! ## Drafts -/

/-- The text of a form and the number of its last ticket. -/
def draft (s : State) (k : Kind) : String × Nat := ((s.form k).input, (s.form k).generation)

theorem draft_withForm (s : State) {kind : Kind} {f : Form} (hi : f.input = (s.form kind).input)
    (hg : f.generation = (s.form kind).generation) (k : Kind) : (s.withForm kind f).draft k = s.draft k := by
  unfold draft
  by_cases hk : k = kind
  · subst hk
    rw [form_withForm, hi, hg]
  · rw [form_withForm_of_ne s hk]

theorem draft_judge (s : State) (kind k : Kind) : (s.judge kind).draft k = s.draft k :=
  draft_withForm s (by rfl) (by rfl) k

theorem draft_withSlot (s : State) (kind : Kind) (slot : Slot) (k : Kind) :
    (s.withSlot kind slot).draft k = s.draft k := draft_withForm s (by rfl) (by rfl) k

theorem draft_revalidate (s : State) (kind k : Kind) : (s.revalidate kind).1.draft k = s.draft k := by
  simp only [revalidate]
  split
  · rfl
  · exact draft_judge s kind k

theorem draft_revalidateAll (s : State) (k : Kind) : s.revalidateAll.1.draft k = s.draft k :=
  (draft_revalidate _ .withdraw k).trans (draft_revalidate s .deposit k)

theorem draft_requote (s : State) (p : Position) (stats : Stats) (k : Kind) :
    (s.requote p stats).draft k = s.draft k := by
  have h := draft_revalidateAll { s with position := some p } k
  cases k <;> exact h

theorem draft_beginInput (s : State) (kind : Kind) (raw : String) (k : Kind) :
    (s.beginInput kind raw).1.draft k = if kind = k then (raw, (s.draft k).2 + 1) else s.draft k := by
  unfold draft beginInput
  by_cases hk : kind = k
  · subst hk
    rw [if_pos rfl, form_withForm]
  · rw [if_neg hk, form_withForm_of_ne s (Ne.symm hk)]

theorem draft_cleared (s : State) (kind k : Kind) :
    (s.cleared kind).1.draft k = if kind = k then ("", (s.draft k).2 + 1) else s.draft k := by
  unfold cleared
  rw [draft_revalidateAll, draft_withForm _ (by rfl) (by rfl), draft_beginInput]

theorem draft_settledWith (s : State) (kind : Kind) (receipt : Receipt) (p : Position) (k : Kind) :
    (s.settledWith kind receipt p).draft k = if kind = k then ("", (s.draft k).2 + 1) else s.draft k := by
  have h : ({ s with position := some p } : State).draft k = s.draft k := by cases k <;> rfl
  unfold settledWith
  rw [draft_cleared, draft_withSlot, h]

/-- An action settles only by emptying its form. -/
theorem Effect.unsettled {s s' : State} (h : s.Effect s') (kept : ∀ k, s'.draft k = s.draft k) {k : Kind}
    {r : Receipt} (hs : s'.phase k = .settled r) : ∃ r', s.phase k = .settled r' := by
  cases h with
  | worked h =>
    rcases h.slot_or_settled with hslot | ⟨kind, receipt, p, rfl⟩
    · rcases hslot k with he | turn
      · exact ⟨r, (congrArg Slot.phase he).symm.trans hs⟩
      · exact absurd hs (turn.phase_ne_settled r)
    · have hg := congrArg Prod.snd (kept kind)
      rw [draft_settledWith, if_pos rfl] at hg
      exact absurd hg (Nat.succ_ne_self _)
  | _ => cases k <;> exact ⟨r, hs⟩

end State

namespace Session

variable (s : Session)

/-! ## Operations that end at once -/

/-- The text that an operation writes into a form. -/
def typed? (k : Kind) : Action → Option String
  | .setInput kind raw => if kind = k then some raw else none
  | .beginInput kind raw => if kind = k then some raw else none
  | .fillMax kind => if kind = k then some (s.state.maximum kind) else none
  | _ => none

theorem refreshQuote_draft (q : Quote) (k : Kind) : (s.refreshQuote q).1.state.draft k = s.state.draft k := by
  unfold refreshQuote
  rcases s.attempt_state Position.Refusal.toFault (s.state.replaceQuote q) with he | ⟨st, es, hr, he⟩
  · rw [he]
  · obtain ⟨p, stats, rfl⟩ := State.replaceQuote_eq hr
    rw [he, State.draft_requote]

theorem completeInput_draft (t : Ticket) (k : Kind) :
    (s.completeInput t).1.state.draft k = s.state.draft k := by
  unfold completeInput
  cases h : s.state.completeInput t with
  | none => rfl
  | some x =>
    show (s.commit x.1 [.verdict t.kind x.2]).state.draft k = _
    rw [commit_state, State.completeInput_eq h, State.draft_judge]

theorem setInput_draft (kind : Kind) (raw : String) (k : Kind) :
    (s.setInput kind raw).1.state.draft k =
      if kind = k then (raw, (s.state.draft k).2 + 1) else s.state.draft k := by
  rw [setInput_state, State.draft_judge, State.draft_beginInput]

theorem acknowledge_draft (kind k : Kind) : (s.acknowledge kind).1.state.draft k = s.state.draft k := by
  unfold acknowledge
  cases ha : (s.state.form kind).slot.acknowledge with
  | error e => simp only [ha, attempt, bind, Except.bind]
  | ok slot =>
    simp only [ha, attempt, bind, Except.bind, pure, Except.pure, commit_state, State.draft_withSlot]

theorem moveConnection_draft (m : Connection.Move) (k : Kind) :
    (s.moveConnection m).1.state.draft k = s.state.draft k := by
  unfold moveConnection
  cases hc : s.state.connection.step m with
  | error e => rfl
  | ok c =>
    show (s.commit { s.state with connection := c } [.connection c]).state.draft k = _
    rw [commit_state]
    cases k <;> rfl

theorem disconnect_draft (k : Kind) : s.disconnect.1.state.draft k = s.state.draft k := by
  have h := s.moveConnection_draft .disconnect k
  rw [disconnect_eq]
  split <;> exact h

theorem act_draft (a : Action) (k : Kind) :
    (s.act a).1.state.draft k =
      (s.typed? k a).elim (s.state.draft k) fun text => (text, (s.state.draft k).2 + 1) := by
  cases a with
  | setInput kind raw =>
    refine (s.setInput_draft kind raw k).trans ?_
    by_cases hk : kind = k <;> simp [typed?, hk]
  | fillMax kind =>
    refine (s.setInput_draft kind _ k).trans ?_
    by_cases hk : kind = k <;> simp [typed?, hk]
  | beginInput kind raw =>
    refine (State.draft_beginInput s.state kind raw k).trans ?_
    by_cases hk : kind = k <;> simp [typed?, hk]
  | cancelConnect =>
    simp only [act, cancelConnect, Prod.map_fst, id]
    split <;> rfl
  | cancel kind => rfl
  | acknowledgeConnection => exact s.moveConnection_draft .acknowledge k
  | disconnect => exact s.disconnect_draft k
  | refreshQuote q => exact s.refreshQuote_draft q k
  | completeInput t => exact s.completeInput_draft t k
  | acknowledge kind => exact s.acknowledge_draft kind k

/-! ## Flows -/

theorem connect_draft (k : Kind) : s.connect.1.state.draft k = s.state.draft k := by
  unfold connect
  split
  · rfl
  · rw [commit_state]
    cases k <;> rfl

theorem submit_draft (kind k : Kind) : (s.submit kind).1.state.draft k = s.state.draft k := by
  unfold submit
  dsimp only
  split
  · rfl
  · split
    · rfl
    · split
      · rfl
      · split
        · rfl
        · rw [commit_state, State.draft_withSlot]

theorem start_draft (e : Errand) (k : Kind) : (s.start e).1.state.draft k = s.state.draft k := by
  cases e with
  | connect => exact s.connect_draft k
  | submit kind => exact s.submit_draft kind k
  | refresh =>
    simp only [start, refresh]
    split <;> rfl

theorem enter_draft (m : Connection.Move) (k : Kind) : (s.enter m).1.state.draft k = s.state.draft k := by
  unfold enter
  dsimp only
  split
  · cases k <;> rfl
  · split <;> rw [commit_state] <;> cases k <;> rfl

theorem takeSnapshot_draft (account : String) (result : Except Fault Snapshot) (k : Kind) :
    (s.takeSnapshot account result).1.state.draft k = s.state.draft k := by
  unfold takeSnapshot
  split
  · rfl
  · split
    · rename_i snapshot _
      rcases s.attempt_state Position.Refusal.toFault
        (s.state.applySnapshot snapshot) with he | ⟨st, es, hr, he⟩
      · rw [he]
      · obtain ⟨p, stats, rfl⟩ := State.applySnapshot_eq hr
        rw [he, State.draft_requote]
    · rfl

theorem rejectAction_draft (r : Request) (reason : Rejection) (k : Kind) :
    (s.rejectAction r reason).1.state.draft k = s.state.draft k := by
  simp only [rejectAction]
  split
  · simp only [finish, commit_state, State.draft_withSlot]
  · rfl

/-- All that a segment can do to the drafts: nothing, or the form of a settled action is emptied. -/
inductive Drafts (s : Session) (s' : Session) : Prop
  | kept (h : ∀ k, s'.state.draft k = s.state.draft k)
  | settled {kind : Kind} (h : Slot.isSubmitted (s.state.phase kind) = true) (receipt : Receipt)
      (p : Position) (state : s'.state = s.state.settledWith kind receipt p)

theorem settleAction_drafts (signed : Signed) (now : Moment) : s.Drafts (s.settleAction signed now).1 := by
  by_cases ha : s.state.Awaits signed
  · have hp : Slot.isSubmitted (s.state.form signed.request.kind).slot.phase = true := ha.2
    unfold settleAction
    cases hf : s.state.fold signed now with
    | error reason =>
      rw [State.settle_eq_of_fold_error ha hf]
      exact .kept fun k => s.rejectAction_draft _ _ k
    | ok x =>
      rw [State.settle_eq_of_fold ha hf (Slot.settle_eq_ok_iff.mpr ⟨ha.1, hp, rfl⟩)]
      exact .settled ha.2 x.1 x.2 (commit_state ..)
  · have hs := State.settle_settling s.state signed now
    unfold settleAction
    generalize s.state.settle signed now = result at hs
    cases hs with
    | stale _ => exact .kept fun _ => rfl
    | refused h _ => exact absurd h ha
    | settled h => exact absurd h ha

theorem Acting.drafts {s : Session} {x : Session × Progress} (h : s.Acting x) : s.Drafts x.1 := by
  cases h with
  | unmoved => exact .kept fun _ => rfl
  | rejects r reason => exact .kept fun k => s.rejectAction_draft r reason k
  | settles signed now => exact s.settleAction_drafts signed now
  | signs r signed t =>
    refine .kept fun k => ?_
    simp only [signAction]
    split
    · rw [commit_state, State.draft_withSlot]
    · rfl

theorem Attempt.draft {s : Session} {t : Token} {x : Session × Progress} (h : s.Attempt t x) (k : Kind) :
    x.1.state.draft k = s.state.draft k := by
  cases h with
  | unmoved => rfl
  | asks _ => rfl
  | @enters m _ => exact s.enter_draft m k

theorem resume_drafts (f : Flow) (signal : Signal) (now : Moment) : s.Drafts (s.resume f signal now).1 := by
  cases f with
  | connecting stage t => exact .kept fun k => (s.resumeConnecting_attempt stage t signal).draft k
  | signing r t => exact (s.resume_acting rfl signal now).drafts
  | confirming r signed t => exact (s.resume_acting rfl signal now).drafts
  | reading account =>
    cases signal with
    | reply r =>
      cases r with
      | snapshot result => exact .kept fun k => s.takeSnapshot_draft account result k
      | _ => exact .kept fun _ => rfl
    | _ => exact .kept fun _ => rfl
  | refreshing account =>
    cases signal with
    | reply r =>
      cases r with
      | snapshot result => exact .kept fun k => s.takeSnapshot_draft account result k
      | _ => exact .kept fun _ => rfl
    | _ => exact .kept fun _ => rfl

end Session

/-! ## Completing -/

namespace State

theorem judge_judge (s : State) (k : Kind) : (s.judge k).judge k = s.judge k := by
  unfold judge
  rw [form_withForm]
  simp only [verdictFor, withForm_position]
  cases k <;> rfl

theorem verdictFor_judge (s : State) (kind k : Kind) (raw : String) :
    (s.judge kind).verdictFor k raw = s.verdictFor k raw := by
  simp only [verdictFor, judge, withForm_position]

end State

namespace Session

variable {s : Session} {t : Ticket}

theorem completeInput_of_current (h : (s.state.form t.kind).generation = t.generation) :
    s.completeInput t =
      (s.commit (s.state.judge t.kind)
        [.verdict t.kind (s.state.verdictFor t.kind (s.state.form t.kind).input)],
        some (s.state.verdictFor t.kind (s.state.form t.kind).input)) := by
  have hc : s.state.completeInput t =
      some (s.state.judge t.kind, s.state.verdictFor t.kind (s.state.form t.kind).input) := if_pos h
  simp only [completeInput, hc]

theorem completeInput_of_superseded (h : (s.state.form t.kind).generation ≠ t.generation) :
    s.completeInput t = (s, none) := by
  have hc : s.state.completeInput t = none := if_neg h
  simp only [completeInput, hc]

theorem completeInput_isSome_iff :
    (s.completeInput t).2.isSome = true ↔ (s.state.form t.kind).generation = t.generation := by
  by_cases h : (s.state.form t.kind).generation = t.generation
  · simp [completeInput_of_current h, h]
  · simp [completeInput_of_superseded h, h]

/-- Completing a second time finds the verdict stored. -/
theorem completeInput_twice (h : (s.state.form t.kind).generation = t.generation) :
    ((s.completeInput t).1.completeInput t).2 = (s.completeInput t).2 ∧
      ((s.completeInput t).1.completeInput t).1.state = (s.completeInput t).1.state := by
  have hstate : (s.completeInput t).1.state = s.state.judge t.kind := by
    rw [completeInput_of_current h]
    exact commit_state ..
  have hdraft : (s.completeInput t).1.state.draft t.kind = s.state.draft t.kind :=
    s.completeInput_draft t t.kind
  have hinput : ((s.completeInput t).1.state.form t.kind).input = (s.state.form t.kind).input :=
    congrArg Prod.fst hdraft
  have hcurrent : ((s.completeInput t).1.state.form t.kind).generation = t.generation :=
    (congrArg Prod.snd hdraft).trans h
  rw [completeInput_of_current hcurrent]
  constructor
  · rw [hinput, hstate, State.verdictFor_judge, completeInput_of_current h]
  · rw [commit_state, hstate, State.judge_judge]

end Session

end YieldVault
