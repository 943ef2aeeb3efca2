import YieldVault.Proofs.Desk.Freshness
import YieldVault.Proofs.Desk.Reading
import YieldVault.Proofs.Session.Draft

/-!
# Tickets

A form is written into by hand, by filling it, and by the settlement of its own action, which leaves it empty.
Each time it gets a ticket, and the tickets of a form are numbered in this order. Nothing else changes its
text or its number, and a verdict is given for the last number only.
-/

namespace YieldVault

/-! ## Edits -/

/-- A text that was written into a form, and the ticket for its verdict. -/
structure Edit where
  ticket : Ticket
  text : String
  deriving DecidableEq

namespace Desk

/-- The text that a step writes into a form: what an operation types or fills in, and nothing at all when the
action of the form settles. -/
def written? (k : Kind) (d : Desk) : Step → Option String
  | .act a => d.session.typed? k a
  | step => (d.settled? (d.step step) k).map fun _ => ""

def edit? (k : Kind) (d : Desk) (step : Step) : Option Edit :=
  (d.written? k step).map fun text => ⟨(d.session.state.beginInput k text).2, text⟩

/-- All edits of a form along a run, in order. -/
def edits (d : Desk) (k : Kind) (steps : List Step) : List Edit := gather (edit? k) d steps

theorem settled?_of_kept {d d' : Desk} (h : d.session.state.Effect d'.session.state)
    (kept : ∀ k, d'.session.state.draft k = d.session.state.draft k) (k : Kind) : d.settled? d' k = none := by
  cases hs : d.settled? d' k with
  | none => rfl
  | some r =>
    obtain ⟨hold, hnew⟩ := settled?_eq_some hs
    obtain ⟨r', hr'⟩ := h.unsettled kept hnew
    exact absurd hr' (hold r')

theorem draft_of_drafts {d d' : Desk} (effect : d.session.state.Effect d'.session.state)
    (h : d.session.Drafts d'.session) (k : Kind) :
    d'.session.state.draft k =
      ((d.settled? d' k).map fun _ => "").elim (d.session.state.draft k) fun text =>
        (text, (d.session.state.draft k).2 + 1) := by
  cases h with
  | kept kept =>
    rw [settled?_of_kept effect kept, kept]
    rfl
  | @settled kind submitted receipt p state =>
    rw [state, State.draft_settledWith]
    by_cases hk : kind = k
    · subst hk
      have hflight : (d.session.slot kind).phase.inFlight = true := by
        obtain ⟨reference, hr⟩ := Slot.isSubmitted_iff.mp submitted
        exact congrArg Phase.inFlight hr
      have hslot : (d'.session.slot kind).phase = .settled receipt := by
        unfold Session.slot
        rw [state, State.slot_settledWith]
      rw [settled?_of_inFlight hflight hslot, if_pos rfl]
      rfl
    · have hslot : d'.session.slot k = d.session.slot k := by
        unfold Session.slot
        rw [state, State.slot_settledWith_of_ne _ (Ne.symm hk)]
      rw [settled?_of_slot_eq hslot, if_neg hk]
      rfl

theorem wake_drafts (d : Desk) (i : FlowId) (signal : Signal) (now : Moment) :
    d.session.Drafts (d.wake i signal now).session := by
  cases hf : d.flow? i with
  | none =>
    rw [wake_eq_self hf]
    exact .kept fun _ => rfl
  | some f =>
    rw [wake_eq hf, put_session]
    exact d.session.resume_drafts f signal now

/-- What a step writes is what the form then holds, under the next number. -/
theorem step_draft (d : Desk) (step : Step) (k : Kind) :
    (d.step step).session.state.draft k =
      (d.written? k step).elim (d.session.state.draft k) fun text =>
        (text, (d.session.state.draft k).2 + 1) := by
  have effect := d.step_effect step
  cases step with
  | act a => exact d.session.act_draft a k
  | start e =>
    refine draft_of_drafts (effect.resolve_left (by simp)) (.kept fun k => ?_) k
    show (d.start e).session.state.draft k = _
    unfold start
    rw [put_session]
    exact d.session.start_draft e k
  | wake i signal now => exact draft_of_drafts (effect.resolve_left (by simp)) (d.wake_drafts i signal now) k
  | watch w => exact draft_of_drafts (effect.resolve_left (by simp)) (.kept fun k => by cases w <;> rfl) k

/-- The form holds the text of its last edit, and its edits are numbered from one. -/
structure Recorded (k : Kind) (edits : List Edit) (s : State) : Prop where
  input : (s.form k).input = (edits.getLast?.map (·.text)).getD ""
  generation : (s.form k).generation = edits.length
  tickets : edits.map (·.ticket) = (List.range' 1 edits.length).map (Ticket.mk k)

theorem Recorded.step {k : Kind} {edits : List Edit} {d : Desk} (h : Recorded k edits d.session.state)
    (step : Step) :
    Recorded k (edits ++ (d.edit? k step).toList) (d.step step).session.state := by
  have hd := d.step_draft step k
  unfold edit?
  cases hw : d.written? k step with
  | none =>
    rw [hw] at hd
    simp only [Option.map_none, Option.toList_none, List.append_nil]
    exact ⟨(congrArg Prod.fst hd).trans h.input, (congrArg Prod.snd hd).trans h.generation, h.tickets⟩
  | some text =>
    rw [hw] at hd
    simp only [Option.map_some, Option.toList_some]
    refine ⟨?_, ?_, ?_⟩
    · rw [List.getLast?_append]
      exact congrArg Prod.fst hd
    · rw [List.length_append, ← h.generation]
      exact congrArg Prod.snd hd
    · rw [List.map_append, h.tickets, List.length_append, List.length_singleton, List.range'_1_concat,
        List.map_append, List.map_singleton, List.map_singleton, Nat.add_comm 1, ← h.generation]
      rfl

theorem run_recorded {s : Session} (hs : s.state = .initial) (steps : List Step) (k : Kind) :
    Recorded k ((ofSession s).edits k steps) ((ofSession s).run steps).session.state := by
  induction steps using List.reverseRecOn with
  | nil =>
    show Recorded k [] s.state
    rw [hs]
    cases k <;> exact ⟨rfl, rfl, rfl⟩
  | append_singleton history step ih =>
    unfold edits
    rw [gather_snoc, run_snoc]
    exact ih.step step

/-! ## The newest ticket -/

theorem Recorded.newest {k : Kind} {edits : List Edit} {s : State} (h : Recorded k edits s) (n : Nat) :
    (s.form k).generation = n ↔ edits.getLast?.map (·.ticket) = some ⟨k, n⟩ ∨ edits = [] ∧ n = 0 := by
  rw [h.generation, ← List.getLast?_map, h.tickets, List.getLast?_map, List.getLast?_range',
    ← List.length_eq_zero_iff]
  split
  · rename_i hz
    simp [hz, eq_comm]
  · rename_i hz
    simp [hz]

theorem Recorded.eq_mk {k : Kind} {edits : List Edit} {s : State} (h : Recorded k edits s) {e : Edit}
    (he : e ∈ edits) :
    e.ticket = ⟨k, e.ticket.generation⟩ := by
  have hm : e.ticket ∈ edits.map (·.ticket) := List.mem_map_of_mem he
  rw [h.tickets, List.mem_map] at hm
  obtain ⟨n, _, hn⟩ := hm
  rw [← hn]

theorem Recorded.nodup {k : Kind} {edits : List Edit} {s : State} (h : Recorded k edits s) :
    (edits.map (·.ticket)).Nodup := by
  rw [h.tickets]
  refine List.Nodup.map (fun m n he => ?_) (List.nodup_range' 1)
  exact congrArg Ticket.generation he

/-- No two edits have one ticket, so a ticket tells its edit. -/
theorem Recorded.last_iff {k : Kind} {edits : List Edit} {s : State} (h : Recorded k edits s) {e : Edit}
    (he : e ∈ edits) : (s.form k).generation = e.ticket.generation ↔ edits.getLast? = some e := by
  rw [h.newest, ← h.eq_mk he]
  constructor
  · rintro (hlast | ⟨hnil, _⟩)
    · obtain ⟨e', hlast, hticket⟩ := Option.map_eq_some_iff.mp hlast
      rw [hlast, List.inj_on_of_nodup_map h.nodup (List.mem_of_getLast? hlast) he hticket]
    · rw [hnil] at he
      cases he
  · intro hlast
    exact .inl (by rw [hlast]; rfl)

/-- After every run the edits of a form have tickets numbered from one, and of these the last alone
gives a verdict, which is the one on the last text, and gives it again. A ticket made up for a form
gives one under the same number only, or under number zero while the form has no edits. All others
leave the session as it is. -/
theorem newest_ticket_completes {settings : Settings} {s : Session} (hs : Session.open? settings = .ok s)
    (steps : List Step) (k : Kind) :
    let session := ((ofSession s).run steps).session
    let edits := (ofSession s).edits k steps
    edits.map (·.ticket) = (List.range' 1 edits.length).map (Ticket.mk k) ∧
      (∀ e ∈ edits, (session.completeInput e.ticket).2.isSome = true ↔ edits.getLast? = some e) ∧
      (∀ n, (session.completeInput ⟨k, n⟩).2.isSome = true ↔
        edits.getLast?.map (·.ticket) = some ⟨k, n⟩ ∨ edits = [] ∧ n = 0) ∧
      (∀ n, (session.completeInput ⟨k, n⟩).2 = none → (session.completeInput ⟨k, n⟩).1 = session) ∧
      (∀ n v, (session.completeInput ⟨k, n⟩).2 = some v →
        v = session.state.verdictFor k ((edits.getLast?.map (·.text)).getD "") ∧
          ((session.completeInput ⟨k, n⟩).1.completeInput ⟨k, n⟩).2 = some v ∧
          ((session.completeInput ⟨k, n⟩).1.completeInput ⟨k, n⟩).1.state =
            (session.completeInput ⟨k, n⟩).1.state) := by
  intro session edits
  have recorded : Recorded k edits session.state := run_recorded (Session.open?_eq hs).1 steps k
  refine ⟨recorded.tickets, fun e he => ?_,
    fun n => Session.completeInput_isSome_iff.trans (recorded.newest n), fun n hn => ?_, fun n v hv => ?_⟩
  · rw [Session.completeInput_isSome_iff,
      show e.ticket.kind = k from congrArg Ticket.kind (recorded.eq_mk he)]
    exact recorded.last_iff he
  · have hsuperseded : ¬ (session.state.form k).generation = n := by
      rw [← Session.completeInput_isSome_iff (t := ⟨k, n⟩), hn]
      simp
    rw [Session.completeInput_of_superseded hsuperseded]
  · have hcurrent : (session.state.form k).generation = n := by
      rw [← Session.completeInput_isSome_iff (t := ⟨k, n⟩), hv]
      rfl
    obtain ⟨hagain, hstate⟩ := Session.completeInput_twice (t := ⟨k, n⟩) hcurrent
    refine ⟨?_, hagain.trans hv, hstate⟩
    rw [Session.completeInput_of_current (t := ⟨k, n⟩) hcurrent, recorded.input] at hv
    exact (Option.some.inj hv).symm

/-- The visitor has begun to type again when the deposit settles. -/
def overtaken : List Step :=
  visit ++ [.act (.beginInput .deposit "13"), .wake 1 (.reply (.confirmation (.ok ()))) .epoch]

theorem newest_ticket_completes_overtaken :
    (ofSession newSession).edits .deposit overtaken =
        [⟨⟨.deposit, 1⟩, "500"⟩, ⟨⟨.deposit, 2⟩, "7"⟩, ⟨⟨.deposit, 3⟩, "13"⟩, ⟨⟨.deposit, 4⟩, ""⟩] ∧
      (((ofSession newSession).run overtaken).session.completeInput ⟨.deposit, 3⟩).1 =
        ((ofSession newSession).run overtaken).session ∧
      (((ofSession newSession).run overtaken).session.completeInput ⟨.deposit, 4⟩).2.isSome = true ∧
      (((ofSession newSession).run overtaken).session.completeInput ⟨.withdraw, 1⟩).2.isSome = true := by
  have opened : Session.open? .standard = .ok newSession := rfl
  have deposits : (ofSession newSession).edits .deposit overtaken =
      [⟨⟨.deposit, 1⟩, "500"⟩, ⟨⟨.deposit, 2⟩, "7"⟩, ⟨⟨.deposit, 3⟩, "13"⟩, ⟨⟨.deposit, 4⟩, ""⟩] := by
    decide +kernel
  have withdrawals : (ofSession newSession).edits .withdraw overtaken = [⟨⟨.withdraw, 1⟩, "20"⟩] := by
    decide +kernel
  obtain ⟨_, _, completes, superseded, _⟩ := newest_ticket_completes opened overtaken .deposit
  obtain ⟨_, newest, _⟩ := newest_ticket_completes opened overtaken .withdraw
  rw [deposits] at completes
  rw [withdrawals] at newest
  refine ⟨deposits, superseded 3 ?_, (completes 4).mpr (by simp),
    (newest _ (List.mem_singleton_self _)).mpr rfl⟩
  have stale := (completes 3).not.mpr (by simp)
  simpa using stale

end Desk

end YieldVault
