import Mathlib.Data.Finset.Card
import YieldVault.Proofs.Desk.Provenance

/-!
# How often the chain is read

The chain is read for two reasons only: an account has just been connected, or somebody asks for a fresh
snapshot of the account that is connected. The segment that connects the account is the one that reads, so the
reads of a run can be counted by the changes of its connection. Nothing that an action or an operation does
reads the chain, and neither does an attempt that ends without an account.
-/

namespace YieldVault

/-- The account that a call reads the chain for. -/
def Call.account? : Call → Option String
  | snapshot account => some account
  | _ => none

def Flow.isReading : Flow → Bool
  | reading _ => true
  | _ => false

def Outcome.isConnected : Outcome → Bool
  | connected (.ok (.connected _)) => true
  | _ => false

namespace Progress

/-- The account that the segment reads the chain for. -/
def account? : Progress → Option String
  | waiting f => f.account?
  | _ => none

/-- A connection attempt is left here once it has gone on to read the chain. -/
def hasRead : Progress → Bool
  | waiting f => f.isReading
  | ended o => o.isConnected
  | unmoved => false

end Progress

theorem Flow.account?_call (f : Flow) (chain : Chain) : (f.call chain).account? = f.account? := by
  cases f <;> rfl

theorem Connection.address?_eq_none_of_not_isConnected {c : Connection} (h : ¬ c.isConnected = true) :
    c.address? = none := by
  simpa [isConnected] using h

theorem Connection.eq_connected_of_address? {c : Connection} {account : String}
    (h : c.address? = some account) :
    c = .connected account := by
  cases c with
  | connected address =>
    cases h
    rfl
  | _ => cases h

namespace Session

/-! ## Segments -/

theorem connect_apart (s : Session) : s.connect.2.account? = none ∧ s.connect.2.hasRead = false := by
  unfold connect
  split <;> exact ⟨rfl, rfl⟩

theorem submit_apart (s : Session) (kind : Kind) :
    (s.submit kind).2.account? = none ∧ (s.submit kind).2.hasRead = false := by
  rcases s.submit_progress kind with ⟨_, h⟩ | ⟨_, _, h⟩ <;> rw [h] <;> exact ⟨rfl, rfl⟩

theorem refresh_reads (s : Session) :
    s.refresh.2.account? = s.state.connection.address? ∧ s.refresh.2.hasRead = false := by
  unfold refresh
  split
  · rename_i account h
    exact ⟨h.symm, rfl⟩
  · rename_i h
    exact ⟨h.symm, rfl⟩

theorem OfAction.apart {progress : Progress} (h : OfAction progress) :
    progress.account? = none ∧ progress.hasRead = false := by
  cases h <;> exact ⟨rfl, rfl⟩

/-- A flow that asks no wallet reads nothing more, and it has read before if it has read at all. -/
theorem resume_apart (s : Session) {f : Flow} (hf : ∀ stage t, f ≠ .connecting stage t) (signal : Signal)
    (now : Moment) :
    (s.resume f signal now).2.account? = none ∧
      ((s.resume f signal now).2 = .unmoved ∨ (s.resume f signal now).2.hasRead = f.isReading) := by
  cases f with
  | connecting stage t => exact absurd rfl (hf stage t)
  | reading account =>
    cases signal with
    | reply r =>
      cases r with
      | snapshot result => exact ⟨rfl, .inr rfl⟩
      | _ => exact ⟨rfl, .inl rfl⟩
    | _ => exact ⟨rfl, .inl rfl⟩
  | refreshing account =>
    cases signal with
    | reply r =>
      cases r with
      | snapshot result => exact ⟨rfl, .inr rfl⟩
      | _ => exact ⟨rfl, .inl rfl⟩
    | _ => exact ⟨rfl, .inl rfl⟩
  | signing r t =>
    have h := (s.resume_acting (f := .signing r t) rfl signal now).ofAction.apart
    exact ⟨h.1, .inr h.2⟩
  | confirming r signed t =>
    have h := (s.resume_acting (f := .confirming r signed t) rfl signal now).ofAction.apart
    exact ⟨h.1, .inr h.2⟩

/-- An attempt reads the chain in the segment that connects the account, and in no other. -/
theorem resumeConnecting_reads {s : Session} (h : s.state.connection = .connecting) (stage : Authorization)
    (t : Token) (signal : Signal) :
    let x := s.resumeConnecting stage t signal
    x.2.account? = x.1.state.connection.address? ∧ x.2.hasRead = x.1.state.connection.isConnected := by
  have ha := s.resumeConnecting_attempt stage t signal
  generalize s.resumeConnecting stage t signal = x at ha
  cases ha with
  | unmoved =>
    simp only [h]
    exact ⟨rfl, rfl⟩
  | asks next =>
    simp only [h]
    exact ⟨rfl, rfl⟩
  | enters hm =>
    obtain ⟨c, he, _⟩ := Connection.step_entry_connecting hm
    obtain ⟨hs, ⟨account, rfl, hp⟩ | ⟨hno, hp⟩⟩ := s.enter_eq h he
    · simp only [hs, hp]
      exact ⟨rfl, rfl⟩
    · simp only [hs, hp]
      cases c with
      | connected account => exact absurd rfl (hno account)
      | _ => exact ⟨rfl, rfl⟩

end Session

namespace Desk

variable {d : Desk} {i : FlowId} {step : Step}

/-- The accounts that the chain was read for, oldest first. -/
def reads (d : Desk) : List String := d.calls.filterMap Call.account?

/-- The account that the step connects, where none was connected. -/
def entered? (d : Desk) (step : Step) : Option String :=
  if d.session.state.connection.isConnected then none else (d.step step).session.state.connection.address?

/-- The connected account that the step asks a fresh snapshot of. -/
def refreshed? (d : Desk) : Step → Option String
  | .start .refresh => d.session.state.connection.address?
  | _ => none

/-- The flow `i` is a connection attempt that has gone on to read the chain. -/
def hasRead (d : Desk) (i : FlowId) : Bool :=
  (d.flow? i).elim false Flow.isReading || (d.outcome? i).elim false Outcome.isConnected

def readers (d : Desk) : Finset FlowId := (Finset.range d.started).filter fun i => d.hasRead i = true

/-! ## Flows that have read -/

theorem reads_put (d : Desk) (i : FlowId) (progress : Progress) :
    (d.put i progress).reads = d.reads ++ progress.account?.toList := by
  cases progress with
  | unmoved => simp [put, Progress.account?]
  | ended o => simp [put, reads, Progress.account?]
  | waiting f =>
    have hf := f.account?_call d.session.settings.chain
    simp only [put, reads, List.filterMap_append, Progress.account?, ← hf]
    cases hc : (f.call d.session.settings.chain).account? <;> simp [hc]

theorem hasRead_put_of_ne (d : Desk) {j : FlowId} (h : j ≠ i) (progress : Progress) :
    (d.put i progress).hasRead j = d.hasRead j := by
  unfold hasRead
  rw [flow?_put_of_ne d h]
  cases progress with
  | ended o => simp [outcome?_put_ended, h]
  | _ => rfl

theorem hasRead_put (ho : d.outcome? i = none) {progress : Progress} (h : progress ≠ .unmoved) :
    (d.put i progress).hasRead i = progress.hasRead := by
  unfold hasRead
  cases progress with
  | unmoved => exact absurd rfl h
  | waiting f =>
    rw [flow?_put_waiting_self, show (d.put i (.waiting f)).outcome? i = d.outcome? i from rfl, ho]
    simp [Progress.hasRead]
  | ended o =>
    rw [flow?_put_ended_self, outcome?_put_ended, ho]
    simp [Progress.hasRead]

theorem Numbered.outcome?_of_flow? (hn : d.Numbered) {f : Flow} (hf : d.flow? i = some f) :
    d.outcome? i = none :=
  lookup_eq_none_iff_key.mpr (hn.not_ended hf)

theorem Numbered.hasRead_of_flow? (hn : d.Numbered) {f : Flow} (hf : d.flow? i = some f) :
    d.hasRead i = f.isReading := by
  simp [hasRead, hf, hn.outcome?_of_flow? hf]

theorem readers_congr {d' : Desk} (hs : d'.started = d.started) (h : ∀ j, d'.hasRead j = d.hasRead j) :
    d'.readers = d.readers := by
  unfold readers
  rw [hs]
  simp only [h]

theorem readers_insert {d' : Desk} (hs : d'.started = d.started) (hi : i < d.started)
    (hread : d'.hasRead i = true) (h : ∀ j, j ≠ i → d'.hasRead j = d.hasRead j) :
    d'.readers = insert i d.readers := by
  ext j
  simp only [readers, Finset.mem_filter, Finset.mem_range, Finset.mem_insert, hs]
  by_cases hj : j = i
  · subst hj
    simp [hi, hread]
  · simp [hj, h j hj]

/-- A flow that is started has not read the chain yet. -/
theorem Numbered.readers_start (hn : d.Numbered) {e : Errand} (h : (d.session.start e).2.hasRead = false) :
    (d.step (.start e)).readers = d.readers := by
  have ho : d.outcome? d.started = none := lookup_eq_none_iff_key.mpr hn.started_not_ended
  let d₁ : Desk := { d with session := (d.session.start e).1, started := d.started + 1 }
  show (d₁.put d.started (d.session.start e).2).readers = d.readers
  have new : (d₁.put d.started (d.session.start e).2).hasRead d.started = false := by
    by_cases hp : (d.session.start e).2 = .unmoved
    · rw [hp]
      show d.hasRead d.started = false
      simp [hasRead, hn.flow?_started, ho]
    · exact (hasRead_put (d := d₁) ho hp).trans h
  ext j
  simp only [readers, Finset.mem_filter, Finset.mem_range, put_started]
  by_cases hj : j = d.started
  · subst hj
    simp [new]
  · rw [hasRead_put_of_ne d₁ hj]
    show j < d.started + 1 ∧ d.hasRead j = true ↔ _
    rw [Nat.lt_succ_iff_lt_or_eq, or_iff_left hj]

theorem reads_wake {f : Flow} (hf : d.flow? i = some f) (signal : Signal) (now : Moment) :
    (d.wake i signal now).reads = d.reads ++ (d.session.resume f signal now).2.account?.toList := by
  rw [wake_eq hf]
  exact reads_put ..

theorem hasRead_wake_of_ne {f : Flow} (hf : d.flow? i = some f) (signal : Signal) (now : Moment) {j : FlowId}
    (hj : j ≠ i) : (d.wake i signal now).hasRead j = d.hasRead j := by
  rw [wake_eq hf, hasRead_put_of_ne _ hj]
  rfl

theorem Numbered.hasRead_wake (hn : d.Numbered) {f : Flow} (hf : d.flow? i = some f) {signal : Signal}
    {now : Moment} (h : (d.session.resume f signal now).2 ≠ .unmoved) :
    (d.wake i signal now).hasRead i = (d.session.resume f signal now).2.hasRead := by
  rw [wake_eq hf]
  refine hasRead_put ?_ h
  exact hn.outcome?_of_flow? hf

theorem Numbered.readers_wake (hn : d.Numbered) {f : Flow} (hf : d.flow? i = some f) {signal : Signal}
    {now : Moment} (h : (d.session.resume f signal now).2 = .unmoved ∨
      (d.session.resume f signal now).2.hasRead = f.isReading) :
    (d.wake i signal now).readers = d.readers := by
  apply readers_congr (wake_started ..)
  intro j
  by_cases hj : j = i
  · subst hj
    by_cases hu : (d.session.resume f signal now).2 = .unmoved
    · rw [wake_eq hf, hu]
      rfl
    · rw [hn.hasRead_wake hf hu, h.resolve_left hu, hn.hasRead_of_flow? hf]
  · exact hasRead_wake_of_ne hf signal now hj

theorem Numbered.readers_wake_insert (hn : d.Numbered) {f : Flow} (hf : d.flow? i = some f)
    (hno : f.isReading = false) (signal : Signal) (now : Moment)
    (h : (d.session.resume f signal now).2.hasRead = true) :
    (d.wake i signal now).readers = insert i d.readers ∧ i ∉ d.readers := by
  have hu : (d.session.resume f signal now).2 ≠ .unmoved := by
    intro he
    rw [he] at h
    cases h
  constructor
  · apply readers_insert (wake_started ..) (hn.lt hf)
    · rw [hn.hasRead_wake hf hu, h]
    · intro j hj
      exact hasRead_wake_of_ne hf signal now hj
  · intro hi
    have hread := (Finset.mem_filter.mp hi).2
    rw [hn.hasRead_of_flow? hf, hno] at hread
    cases hread

/-! ## One step -/

/-- What a step has to do with the chain. -/
inductive Consults (d : Desk) : Step → Prop
  | apart {step : Step} (entered : d.entered? step = none) (refreshed : d.refreshed? step = none)
    (reads : (d.step step).reads = d.reads) (readers : (d.step step).readers = d.readers) : Consults d step
  | refreshes {account : String} (connected : d.session.state.connection = .connected account)
    (entered : d.entered? (.start .refresh) = none)
    (reads : (d.step (.start .refresh)).reads = d.reads ++ [account])
    (readers : (d.step (.start .refresh)).readers = d.readers) : Consults d (.start .refresh)
  | enters {i : FlowId} {signal : Signal} {now : Moment} {t : Token} {account : String}
    (asking : d.attempt? i = some t)
    (connected : (d.step (.wake i signal now)).session.state.connection = .connected account)
    (entered : d.entered? (.wake i signal now) = some account)
    (reads : (d.step (.wake i signal now)).reads = d.reads ++ [account])
    (readers : (d.step (.wake i signal now)).readers = insert i d.readers)
    (new : i ∉ d.readers) : Consults d (.wake i signal now)

theorem entered?_of_same (h : (d.step step).session.state.connection = d.session.state.connection) :
    d.entered? step = none := by
  unfold entered?
  split
  · rfl
  · rename_i hc
    rw [h]
    exact Connection.address?_eq_none_of_not_isConnected hc

theorem entered?_act (d : Desk) (a : Action) : d.entered? (.act a) = none := by
  unfold entered?
  split
  · rfl
  · rename_i hno
    cases hc : (d.step (.act a)).session.state.connection with
    | connected account =>
      -- an operation can neither end an attempt nor connect an account without one
      rcases connected_of_step hc with hb | hb
      · rw [show (d.step (.act a)).session.state.connection = d.session.state.connection from
          congrArg Prod.fst (d.session.act_link a hb), hb] at hc
        cases hc
      · rw [hb] at hno
        exact absurd rfl hno
    | _ => rfl

theorem start_consults (hn : d.Numbered) (e : Errand) : d.Consults (.start e) := by
  have put : ∀ {account? : Option String}, (d.session.start e).2.account? = account? →
      (d.step (.start e)).reads = d.reads ++ account?.toList := by
    intro account? h
    rw [← h]
    exact reads_put ..
  cases e with
  | connect =>
    have h := d.session.connect_apart
    refine .apart ?_ rfl (by simpa using put h.1) (hn.readers_start h.2)
    cases hc : d.session.state.connection.step .request with
    | error refusal =>
      apply entered?_of_same
      simp [session_start, Session.start, Session.connect, hc]
    | ok c =>
      obtain ⟨_, rfl⟩ := Connection.step_request hc
      simp [entered?, session_start, Session.start, Session.connect, hc, Connection.address?]
  | submit kind =>
    have h := d.session.submit_apart kind
    refine .apart (entered?_of_same ?_) rfl (by simpa using put h.1) (hn.readers_start h.2)
    rw [session_start]
    exact congrArg Prod.fst (d.session.submit_work kind).link
  | refresh =>
    have h := d.session.refresh_reads
    have same : (d.step (.start .refresh)).session.state.connection = d.session.state.connection := by
      rw [session_start]
      simp only [Session.start, Session.refresh]
      split <;> rfl
    cases hc : d.session.state.connection.address? with
    | none => exact .apart (entered?_of_same same) hc (by simpa [hc] using put h.1) (hn.readers_start h.2)
    | some account =>
      exact .refreshes (Connection.eq_connected_of_address? hc) (entered?_of_same same)
        (by simpa [hc] using put h.1) (hn.readers_start h.2)

theorem wake_consults (ha : d.Attempting) (hn : d.Numbered) (i : FlowId) (signal : Signal) (now : Moment) :
    d.Consults (.wake i signal now) := by
  cases hf : d.flow? i with
  | none =>
    have still : d.step (.wake i signal now) = d := wake_eq_self hf signal now
    exact .apart (entered?_of_same (by rw [still])) rfl (by rw [still]) (by rw [still])
  | some f =>
    have session : (d.step (.wake i signal now)).session = (d.session.resume f signal now).1 := by
      show (d.wake i signal now).session = _
      rw [wake_eq hf, put_session]
    have reads : (d.step (.wake i signal now)).reads = _ := reads_wake hf signal now
    by_cases hc : ∃ stage t, f = .connecting stage t
    · obtain ⟨stage, t, rfl⟩ := hc
      have asking : d.attempt? i = some t := attempt?_eq_some_iff.mpr ⟨stage, hf⟩
      have hb : d.session.state.connection = .connecting := congrArg Prod.fst (ha.connecting asking)
      obtain ⟨hacc, hread⟩ := Session.resumeConnecting_reads hb stage t signal
      have entered : d.entered? (.wake i signal now) =
          (d.session.resumeConnecting stage t signal).1.state.connection.address? := by
        unfold entered?
        rw [hb, session]
        rfl
      rw [show d.session.resume (.connecting stage t) signal now =
        d.session.resumeConnecting stage t signal from rfl]
        at session reads
      rw [hacc] at reads
      cases hconn : (d.session.resumeConnecting stage t signal).1.state.connection.address? with
      | none =>
        rw [hconn] at reads entered
        have hno : (d.session.resumeConnecting stage t signal).2.hasRead = false := by
          rw [hread, Connection.isConnected, hconn]
          rfl
        exact .apart entered rfl (by simpa using reads) (hn.readers_wake hf (.inr hno))
      | some account =>
        rw [hconn] at reads entered
        have hyes : (d.session.resumeConnecting stage t signal).2.hasRead = true := by
          rw [hread, Connection.isConnected, hconn]
          rfl
        obtain ⟨readers, new⟩ := hn.readers_wake_insert hf rfl signal now hyes
        refine .enters asking ?_ entered (by simpa using reads) readers new
        rw [session]
        exact Connection.eq_connected_of_address? hconn
    · have hno : ∀ stage t, f ≠ .connecting stage t := fun stage t he => hc ⟨stage, t, he⟩
      obtain ⟨hacc, hread⟩ := d.session.resume_apart hno signal now
      rw [hacc] at reads
      refine .apart (entered?_of_same ?_) rfl (by simpa using reads) (hn.readers_wake hf hread)
      rw [session]
      exact congrArg Prod.fst (d.session.resume_work hno signal now).link

theorem step_consults (ha : d.Attempting) (hn : d.Numbered) (step : Step) : d.Consults step := by
  cases step with
  | act a => exact .apart (entered?_act d a) rfl rfl rfl
  | start e => exact start_consults hn e
  | wake i signal now => exact wake_consults ha hn i signal now
  | watch w => exact .apart (entered?_of_same (by cases w <;> rfl)) rfl rfl rfl

theorem Consults.reads (h : d.Consults step) :
    (d.step step).reads = d.reads ++ (d.entered? step).toList ++ (d.refreshed? step).toList := by
  cases h with
  | apart entered refreshed reads _ => simp [entered, refreshed, reads]
  | refreshes connected entered reads _ => simp [entered, reads, refreshed?, connected, Connection.address?]
  | enters _ _ entered reads _ _ => simp [entered, reads, refreshed?]

theorem Consults.readers_card (h : d.Consults step) :
    (d.step step).readers.card = d.readers.card + (d.entered? step).toList.length := by
  cases h with
  | apart entered _ _ readers => simp [entered, readers]
  | refreshes _ entered _ readers => simp [entered, readers]
  | enters _ _ entered _ readers new => simp [entered, readers, Finset.card_insert_of_notMem new]

/-- The only steps that read. -/
theorem Consults.reads_ne_iff (h : d.Consults step) (ha : d.Attempting) :
    (d.step step).reads ≠ d.reads ↔
      (step = .start .refresh ∧ ∃ account, d.session.state.connection = .connected account) ∨
        ∃ i signal now t account, step = .wake i signal now ∧ d.attempt? i = some t ∧
          (d.step step).session.state.connection = .connected account := by
  constructor
  · intro hne
    cases h with
    | apart _ _ reads _ => exact absurd reads hne
    | refreshes connected _ _ _ => exact .inl ⟨rfl, _, connected⟩
    | enters asking connected _ _ _ _ => exact .inr ⟨_, _, _, _, _, rfl, asking, connected⟩
  · rw [h.reads]
    rintro (⟨rfl, account, hc⟩ | ⟨i, signal, now, t, account, rfl, ht, hc⟩)
    · simp [refreshed?, hc, Connection.address?]
    · have hb : d.session.state.connection = .connecting := congrArg Prod.fst (ha.connecting ht)
      simp [entered?, refreshed?, hb, hc, Connection.isConnected, Connection.address?]

/-! ## Runs -/

/-- What `f` finds along a run, in order. -/
def gather {α : Type} (f : Desk → Step → Option α) (d : Desk) : List Step → List α
  | [] => []
  | step :: steps => (f d step).toList ++ gather f (d.step step) steps

theorem gather_snoc {α : Type} (f : Desk → Step → Option α) (d : Desk) (steps : List Step) (step : Step) :
    gather f d (steps ++ [step]) = gather f d steps ++ (f (d.run steps) step).toList := by
  induction steps generalizing d with
  | nil => simp [gather, run]
  | cons first steps ih =>
    simp only [List.cons_append, gather, ih, List.append_assoc]
    rfl

theorem run_consults (s : Session) (steps : List Step) (step : Step) :
    ((ofSession s).run steps).Consults step :=
  step_consults (run_attempting s steps) (run_numbered s steps) step

/-- The accounts that were connected, in order. -/
def entries (d : Desk) (steps : List Step) : List String := gather entered? d steps

/-- The accounts that a fresh snapshot was asked of, in order. -/
def refreshes (d : Desk) (steps : List Step) : List String := gather refreshed? d steps

theorem run_reads_length (s : Session) (steps : List Step) :
    ((ofSession s).run steps).reads.length =
      ((ofSession s).entries steps).length + ((ofSession s).refreshes steps).length := by
  induction steps using List.reverseRecOn with
  | nil => rfl
  | append_singleton history step ih =>
    rw [run_snoc, (run_consults s history step).reads]
    simp only [entries, refreshes, gather_snoc, List.length_append] at ih ⊢
    omega

theorem run_readers_card (s : Session) (steps : List Step) :
    ((ofSession s).run steps).readers.card = ((ofSession s).entries steps).length := by
  induction steps using List.reverseRecOn with
  | nil => rfl
  | append_singleton history step ih =>
    rw [run_snoc, (run_consults s history step).readers_card, ih]
    simp only [entries, gather_snoc, List.length_append]

/-- The chain was read once for each time that an account was connected, by the attempt that connected it, and
once for each time that a snapshot was asked of a connected account. A step reads the chain exactly if it asks
for such a snapshot or if it is the last of an attempt and connects an account. -/
theorem one_read_per_connection (s : Session) (steps : List Step) :
    let d := (ofSession s).run steps
    d.reads.length = ((ofSession s).entries steps).length + ((ofSession s).refreshes steps).length ∧
      ((ofSession s).entries steps).length = d.readers.card ∧
      ∀ step, (d.step step).reads = d.reads ++ (d.entered? step).toList ++ (d.refreshed? step).toList ∧
        ((d.step step).reads ≠ d.reads ↔
          (step = .start .refresh ∧ ∃ account, d.session.state.connection = .connected account) ∨
            ∃ i signal now t account, step = .wake i signal now ∧ d.attempt? i = some t ∧
              (d.step step).session.state.connection = .connected account) := by
  refine ⟨run_reads_length s steps, (run_readers_card s steps).symm, ?_⟩
  intro step
  have h := run_consults s steps step
  exact ⟨h.reads, h.reads_ne_iff (run_attempting s steps)⟩

/-- A visitor is turned away and tries again, has the snapshot renewed, leaves, and asks in
vain for another. -/
def secondTry : List Step :=
  [.start .connect,
   .wake 0 (.reply (.wallet (.account (.error .userRejected)))) .epoch,
   .start .connect,
   .wake 1 (.reply (.wallet (.account (.ok "0xA1")))) .epoch,
   .wake 1 (.reply (.wallet (.chainId (.ok 8453)))) .epoch,
   .start .refresh,
   .wake 1 (.reply (.snapshot (.ok Simulation.sampleSnapshot))) .epoch,
   .act .disconnect,
   .wake 2 (.reply (.snapshot (.ok Simulation.sampleSnapshot))) .epoch,
   .start .refresh]

example :
    ((ofSession newSession).run secondTry).reads = ["0xA1", "0xA1"] ∧
      (ofSession newSession).entries secondTry = ["0xA1"] ∧
      (ofSession newSession).refreshes secondTry = ["0xA1"] ∧
      ((ofSession newSession).run secondTry).readers = [1].toFinset := by
  decide +kernel

end Desk

end YieldVault
