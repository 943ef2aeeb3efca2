import YieldVault.Proofs.Desk.Origin

/-!
# The ledger of a session

The position is the sum of what has happened to it. Every quote that the session takes replaces it,
every action that settles adds its own receipt once, and nothing else does anything to it.
-/

namespace YieldVault

/-- A line of the ledger. -/
inductive Update where
  | replaced (q : Quote)
  | settled (r : Receipt)
  deriving DecidableEq

namespace Update

/-- The position after a line; none if the line cannot be posted. -/
def post (position : Option Position) : Update → Option (Option Position)
  | replaced q => (Position.ofQuote q).toOption.map some
  | settled r => (position.bind fun p => (p.apply r).toOption).map some

def receipt? : Update → Option Receipt
  | settled r => some r
  | replaced _ => none

end Update

/-- The receipt of a submission that ended settled. -/
def Outcome.receipt? : Outcome → Option Receipt
  | submitted (.ok (.finished (.settled r))) => some r
  | _ => none

theorem Request.entry_of_amount {r : Request} {a : Amount} (h : r.amount = .ok a) : r.entry = .value a := by
  unfold amount at h
  split at h
  · rename_i b hb
    cases h
    have hv := (Option.filter_eq_some_iff.mp hb).1
    cases he : r.entry with
    | value c => rw [he] at hv; cases hv; rfl
    | invalid => rw [he] at hv; cases hv
  · cases h

namespace Desk

/-! ## Lines of a step -/

/-- The receipt of the action that is settled in `d'` and was not in `d`. -/
def settled? (d d' : Desk) (kind : Kind) : Option Receipt :=
  match d.session.state.phase kind, d'.session.state.phase kind with
  | .settled _, _ => none
  | _, .settled r => some r
  | _, _ => none

/-- The lines of a step from `d` to `d'`: the quote that was taken and the actions that have settled. -/
def lines (d : Desk) (step : Step) (d' : Desk) : List Update :=
  (d.taken? step).toList.map .replaced ++ (Kind.all.filterMap (d.settled? d')).map .settled

def posted (d : Desk) (step : Step) : List Update := d.lines step (d.step step)

/-- All lines of a run, in the order of posting. -/
def updates (d : Desk) : List Step → List Update
  | [] => []
  | s :: steps => d.posted s ++ (d.step s).updates steps

theorem updates_snoc (d : Desk) (before : List Step) (s : Step) :
    d.updates (before ++ [s]) = d.updates before ++ (d.run before).posted s := by
  induction before generalizing d with
  | nil => simp [updates, run]
  | cons s' before ih => simp only [List.cons_append, updates, ih, List.append_assoc]; rfl

theorem settled?_of_slot_eq {d d' : Desk} {k : Kind} (h : d'.session.slot k = d.session.slot k) :
    d.settled? d' k = none := by
  have hp : d'.session.state.phase k = d.session.state.phase k := congrArg Slot.phase h
  unfold settled?
  rw [hp]
  cases d.session.state.phase k <;> rfl

theorem settled?_of_not_settled {d d' : Desk} {k : Kind} (h : ∀ r, (d'.session.slot k).phase ≠ .settled r) :
    d.settled? d' k = none := by
  unfold settled?
  split
  · rfl
  · exact absurd ‹_› (h _)
  · rfl

theorem settled?_of_inFlight {d d' : Desk} {k : Kind}
    (h : (d.session.slot k).phase.inFlight = true) {r : Receipt}
    (hr : (d'.session.slot k).phase = .settled r) : d.settled? d' k = some r := by
  have hp : d'.session.state.phase k = .settled r := hr
  have hf : (d.session.state.phase k).inFlight = true := h
  unfold settled?
  rw [hp]
  cases hq : d.session.state.phase k with
  | settled r' => rw [hq] at hf; cases hf
  | _ => rfl

theorem filterMap_settled? {d d' : Desk} (kind : Kind) (h : ∀ k, k ≠ kind → d.settled? d' k = none) :
    Kind.all.filterMap (d.settled? d') = (d.settled? d' kind).toList := by
  cases kind with
  | deposit =>
    simp [Kind.all, h .withdraw (by decide), List.filterMap_cons]
    cases d.settled? d' .deposit <;> rfl
  | withdraw =>
    simp [Kind.all, h .deposit (by decide), List.filterMap_cons]
    cases d.settled? d' .withdraw <;> rfl

section Lines
variable {d d' : Desk} {step : Step}

theorem lines_of_slots_eq (hs : ∀ k, d'.session.slot k = d.session.slot k) :
    d.lines step d' = (d.taken? step).toList.map .replaced := by
  have hn : ∀ k, d.settled? d' k = none := fun k => settled?_of_slot_eq (hs k)
  simp [lines, hn]

theorem lines_of_not_settled (ht : d.taken? step = none) (kind : Kind)
    (hk : ∀ r, (d'.session.slot kind).phase ≠ .settled r)
    (other : ∀ k, k ≠ kind → d'.session.slot k = d.session.slot k) : d.lines step d' = [] := by
  simp [lines, ht, filterMap_settled? kind fun k h => settled?_of_slot_eq (other k h),
    settled?_of_not_settled hk]

theorem lines_of_settled (ht : d.taken? step = none) {kind : Kind}
    (hf : (d.session.slot kind).phase.inFlight = true) {r : Receipt}
    (hr : (d'.session.slot kind).phase = .settled r)
    (other : ∀ k, k ≠ kind → d'.session.slot k = d.session.slot k) : d.lines step d' = [.settled r] := by
  simp [lines, ht, filterMap_settled? kind fun k h => settled?_of_slot_eq (other k h),
    settled?_of_inFlight hf hr]

end Lines

theorem taken?_of_action {d : Desk} {i : FlowId} {f : Flow} {x : Request × Token} (hf : d.flow? i = some f)
    (ha : f.action? = some x) (signal : Signal) (now : Moment) : d.taken? (.wake i signal now) = none := by
  have hac : f.account? = none := by cases f <;> first | rfl | cases ha
  unfold taken?
  split <;> simp_all

/-- The receipts of the submissions that have ended settled, in the order of ending. -/
def receipts (d : Desk) : List Receipt := d.outcomes.filterMap (·.2.receipt?)

theorem receipts_put_plain {d : Desk} {s : Session} {n : Nat} {progress : Progress} (h : progress.IsPlain)
    (i : FlowId) : ({ d with session := s, started := n }.put i progress).receipts = d.receipts := by
  cases progress with
  | unmoved => rfl
  | waiting f => rfl
  | ended o =>
    have ho : o.receipt? = none := by
      unfold Outcome.receipt?
      split
      · exact h.elim
      · rfl
    simp [receipts, put, ho]

/-- All that a step can post. -/
inductive Posting (d : Desk) : Step → Desk → List Update → Prop
  | nothing {step : Step} {d' : Desk} (position : d'.session.state.position = d.session.state.position)
      (receipts : d'.receipts = d.receipts) : Posting d step d' []
  | replaced {step : Step} {d' : Desk} {q : Quote} {p : Position} (quote : Position.ofQuote q = .ok p)
      (position : d'.session.state.position = some p) (receipts : d'.receipts = d.receipts) :
      Posting d step d' [.replaced q]
  | settled {i : FlowId} {signal : Signal} {now : Moment} {d' : Desk} {request : Request} {signed : Signed}
      {t : Token} {p p' : Position} {r : Receipt} (flow : d.flow? i = some (.confirming request signed t))
      (absorbs : d.session.state.Absorbs signed p r p') (position : d'.session.state.position = some p')
      (outcomes : d'.outcomes = d.outcomes ++ [(i, .submitted (.ok (.finished (.settled r))))]) :
      Posting d (.wake i signal now) d' [.settled r]

theorem Sound.posting {d d' : Desk} (h : d.Sound) {step : Step} (hm : d.Moves step d') :
    Posting d step d' (d.lines step d') := by
  cases hm with
  | passed untaken quiet plain _ =>
    rw [lines_of_slots_eq fun k => by rw [put_session]; exact quiet.slot k, untaken]
    exact .nothing (by rw [put_session]; exact quiet.position) (receipts_put_plain plain _)
  | taken hq takes plain _ =>
    obtain ⟨p, hp, hpos⟩ := takes.position
    rw [lines_of_slots_eq fun k => by rw [put_session]; exact takes.slot k, hq]
    exact .replaced hp (by rw [put_session]; exact hpos) (receipts_put_plain plain _)
  | released releases =>
    rw [lines_of_not_settled rfl _ (fun r hr => by rw [releases.slot] at hr; cases hr) releases.other]
    exact .nothing releases.position rfl
  | begun begins =>
    rw [lines_of_not_settled rfl _ (fun r hr => by rw [put_session, begins.slot] at hr; cases hr)
      fun k hk => by rw [put_session]; exact begins.other k hk]
    exact .nothing (by rw [put_session]; exact begins.position) rfl
  | @driven i f r t signal now x flow action handling =>
    have ht := taken?_of_action flow action signal now
    have turns := handling.turns
    cases handling with
    | unmoved _ =>
      rw [lines_of_slots_eq fun k => by rw [put_session], ht]
      exact .nothing rfl rfl
    | rejected reason _ =>
      rw [lines_of_not_settled ht r.kind (fun _ hr => ?_) (by rw [put_session]; exact turns.other)]
      · exact .nothing (by rw [put_session, Session.commit_state]; exact State.withSlot_position ..)
          (by simp [receipts, put, Progress.finished, Outcome.receipt?])
      · rw [put_session, Session.commit_slot, State.slot_withSlot] at hr; cases hr
    | signed _ =>
      rw [lines_of_not_settled ht r.kind (fun _ hr => ?_) (by rw [put_session]; exact turns.other)]
      · exact .nothing (by rw [put_session, Session.commit_state]; exact State.withSlot_position ..) rfl
      · rw [put_session, Session.commit_slot, State.slot_withSlot] at hr; cases hr
    | settled _ _ absorbs _ position slot _ =>
      rw [lines_of_settled ht (h.custody.inFlight flow action)
        (by rw [put_session, Session.commit_slot, slot])
        (by rw [put_session]; exact turns.other)]
      exact .settled flow absorbs (by rw [put_session, Session.commit_state, position]) rfl
    | stray _ hs => exact absurd (h.driven.awaits h.custody flow) hs

/-! ## The ledger of a run -/

/-- The lines of a run add up to the position, and their receipts are those of the settled submissions. -/
structure Balanced (d₀ : Desk) (steps : List Step) : Prop where
  position : (d₀.updates steps).foldlM Update.post none = some (d₀.run steps).session.state.position
  receipts : (d₀.updates steps).filterMap Update.receipt? = (d₀.run steps).receipts

theorem Balanced.snoc {d₀ : Desk} {before : List Step} (h : Balanced d₀ before) {step : Step}
    (hp : Posting (d₀.run before) step (d₀.run (before ++ [step])) ((d₀.run before).posted step)) :
    Balanced d₀ (before ++ [step]) := by
  -- the lines of the step are posted on the balance before it
  have fold : ∀ {us x}, us.foldlM Update.post (d₀.run before).session.state.position = some x →
      (d₀.updates before ++ us).foldlM Update.post none = some x := fun hu => by
    rw [List.foldlM_append, h.position]; exact hu
  rw [run_snoc] at hp
  generalize hus : (d₀.run before).posted step = us at hp
  refine ⟨?_, ?_⟩ <;> rw [updates_snoc, hus, run_snoc]
  · cases hp with
    | nothing position _ => rw [position]; exact fold rfl
    | replaced quote position _ =>
      rw [position]; exact fold (by simp [List.foldlM, Update.post, quote, Except.toOption])
    | settled _ absorbs position _ =>
      rw [position]
      exact fold (by simp [List.foldlM, Update.post, absorbs.position, absorbs.applied, Except.toOption])
  · rw [List.filterMap_append, h.receipts]
    cases hp with
    | nothing _ receipts => rw [receipts]; simp
    | replaced _ _ receipts => rw [receipts]; simp [Update.receipt?]
    | settled _ _ _ outcomes =>
      simp only [Desk.receipts, outcomes, List.filterMap_append]; rfl

/-- The receipt `r`, posted by `step` after `before`, is that of the action submitted after `first`: its
amount is what the form said then, its reference is that of the submitted phase, and its shares are the worth
of the amount at the position that it is added to. -/
structure Earned (d₀ : Desk) (before first : List Step) (step : Step) (r : Receipt) : Prop where
  submitted : ∃ rest, before = first ++ .start (.submit r.kind) :: rest
  flow : ∃ signal now, step = .wake (d₀.run first).started signal now
  amount : Entry.ofText ((d₀.run first).session.state.form r.kind).input = .value r.amount
  reference : (d₀.run before).session.state.phase r.kind = .submitted r.reference
  shares : ∃ p, (d₀.run before).session.state.position = some p ∧ p.sharesFor r.amount = some r.shares
  outcome : ((d₀.run before).step step).outcome? (d₀.run first).started =
    some (.submitted (.ok (.finished (.settled r))))

theorem Posting.earned {d₀ : Desk} {before : List Step} {step : Step} {us : List Update} {r : Receipt}
    (hp : Posting (d₀.run before) step ((d₀.run before).step step) us) (hr : .settled r ∈ us)
    (sound : (d₀.run before).Sound) (rooted : Rooted d₀ before) : ∃ first, Earned d₀ before first step r := by
  generalize hd' : (d₀.run before).step step = d' at hp
  cases hp with
  | nothing => cases hr
  | replaced => simp at hr
  | @settled i signal now _ request signed t p p' r' flow absorbs _ outcomes =>
    obtain rfl : r = r' := by simpa using hr
    -- the receipt is made out for the signed request, which is the one that was submitted
    have same := sound.driven.same flow
    subst same
    obtain ⟨first, rest, hst⟩ := rooted _ _ _ _ flow rfl
    have hreq := hst.request
    have hout : d'.outcome? i = some (.submitted (.ok (.finished (.settled r)))) := by
      rw [outcome?, outcomes, List.lookup_append, lookup_eq_none_iff_key.mpr (sound.numbered.not_ended flow)]
      simp
    refine ⟨first, ⟨rest, by rw [absorbs.kind]; exact hst.history⟩, ⟨signal, now, by rw [hst.number]⟩, ?_, ?_,
      ⟨p, absorbs.position, absorbs.shares⟩, by rw [← hst.number, hd']; exact hout⟩
    · have he := Request.entry_of_amount absorbs.amount
      rw [hreq] at he
      rw [absorbs.kind]; exact he
    · rw [absorbs.kind, absorbs.reference]; exact (sound.custody.holds flow rfl).phase

theorem run_balanced {s : Session} (hs : s.state = .initial) {steps : List Step}
    (h : (ofSession s).Signs Signed.Faithful steps) : Balanced (ofSession s) steps := by
  refine ((sound_ofSession hs).induction (Balanced (ofSession s)) ⟨?_, rfl⟩
    (fun before step sound _ hm hb => ?_) h).1
  · show some none = some s.state.position
    rw [hs]; rfl
  · have hp := sound.posting hm
    rw [show (ofSession s).run (before ++ [step]) = _ from run_snoc ..] at hp
    exact hb.snoc (by rw [run_snoc]; exact hp)

/-- After every run the position is the sum of the lines posted in it. The receipts among them are
those of the settled submissions, each of which has ended once, and every receipt is earned by the
submission that it is for. -/
theorem ledger_balances {settings : Settings} {s : Session} (hs : Session.open? settings = .ok s)
    {steps : List Step} (faithful : (ofSession s).Signs Signed.Faithful steps) :
    ((ofSession s).updates steps).foldlM Update.post none =
        some ((ofSession s).run steps).session.state.position ∧
      ((ofSession s).updates steps).filterMap Update.receipt? = ((ofSession s).run steps).receipts ∧
      (((ofSession s).run steps).outcomes.map (·.1)).Nodup ∧
      ∀ before step after r, steps = before ++ step :: after →
        .settled r ∈ ((ofSession s).run before).posted step →
        ∃ first, Earned (ofSession s) before first step r := by
  have h₀ := (Session.open?_eq hs).1
  have balanced := run_balanced h₀ faithful
  have outcomes := (List.nodup_append.mp ((sound_ofSession h₀).run faithful).numbered.nodup).2.1
  refine ⟨balanced.position, balanced.receipts, outcomes, fun before step after r he hr => ?_⟩
  obtain ⟨hb, _⟩ := signs_append.mp (he ▸ faithful)
  have sound := (sound_ofSession h₀).run hb
  exact (sound.posting (sound.custody.moves sound.numbered step)).earned hr sound (run_rooted h₀ hb)

theorem ledger_balances_visit : (ofSession newSession).Signs Signed.Faithful (visit ++ visitEnd) ∧
    ((ofSession newSession).updates (visit ++ visitEnd)).length = 2 ∧
      ((ofSession newSession).updates (visit ++ visitEnd)).foldlM Update.post none =
        some ((ofSession newSession).run (visit ++ visitEnd)).session.state.position ∧
      ((ofSession newSession).updates (visit ++ visitEnd)).filterMap Update.receipt? =
        ((ofSession newSession).run (visit ++ visitEnd)).receipts := by
  have faithful : (ofSession newSession).Signs Signed.Faithful (visit ++ visitEnd) := by decide +kernel
  have ledger := ledger_balances (show Session.open? .standard = .ok newSession from rfl) faithful
  exact ⟨faithful, by decide +kernel, ledger.1, ledger.2.1⟩

end Desk

end YieldVault
