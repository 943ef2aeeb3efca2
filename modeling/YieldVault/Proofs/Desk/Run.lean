import YieldVault.Proofs.Session.Audience
import YieldVault.Proofs.Session.Segment
import YieldVault.Simulation.Sample

/-!
# Runs of a desk

The flows and outcomes of a desk as tables by number and what a step does to them. Whatever is told
during a run is told by changes of the state, and it is the same whoever listens. Runs are also split by
what is signed in them: a signature stands to the request that it was asked for as the service promises.
-/

namespace YieldVault

/-! ## Tables -/

theorem lookup_replace {α : Type} (l : List (Nat × α)) (i j : Nat) (a : α) :
    (l.map fun p => if p.1 = i then (i, a) else p).lookup j =
      if j = i then (l.lookup i).map fun _ => a else l.lookup j := by
  induction l with
  | nil => simp
  | cons p l ih =>
    obtain ⟨k, b⟩ := p
    rw [List.map_cons, List.lookup_cons, List.lookup_cons, ih]
    by_cases hk : k = i
    · subst hk
      by_cases hj : j = k
      · subst hj; simp
      · have hjk : (j == k) = false := beq_false_of_ne hj
        simp [hj, hjk, List.lookup_cons]
    · have hik : (i == k) = false := beq_false_of_ne (Ne.symm hk)
      by_cases hj : j = i
      · subst hj; simp [hk, hik]
      · simp [hk, hj, List.lookup_cons]

theorem lookup_filter_ne {α : Type} (l : List (Nat × α)) (i j : Nat) :
    (l.filter (·.1 != i)).lookup j = if j = i then none else l.lookup j := by
  induction l with
  | nil => simp
  | cons p l ih =>
    obtain ⟨k, b⟩ := p
    rw [List.filter_cons, List.lookup_cons]
    by_cases hk : k = i
    · subst hk
      by_cases hj : j = k
      · subst hj; simp [ih]
      · have hjk : (j == k) = false := beq_false_of_ne hj
        simp [ih, hj, hjk]
    · by_cases hj : j = i
      · subst hj
        have hjk : (j == k) = false := beq_false_of_ne (Ne.symm hk)
        simp [hk, ih, List.lookup_cons, hjk]
      · simp [hk, ih, hj, List.lookup_cons]

theorem any_key_iff {α : Type} {l : List (Nat × α)} {i : Nat} :
    l.any (·.1 == i) = true ↔ i ∈ l.map (·.1) := by
  simp only [List.any_eq_true, beq_iff_eq, List.mem_map]

theorem lookup_eq_none_iff_key {α : Type} {l : List (Nat × α)} {i : Nat} :
    l.lookup i = none ↔ i ∉ l.map (·.1) := by
  rw [List.lookup_eq_none_iff]
  constructor
  · intro h hm
    obtain ⟨p, hp, hi⟩ := List.mem_map.mp hm
    have := h p hp
    simp [hi] at this
  · intro h p hp
    simp only [bne_iff_ne, ne_eq]
    exact fun hi => h (List.mem_map.mpr ⟨p, hp, hi.symm⟩)

theorem mem_key_of_lookup {α : Type} {l : List (Nat × α)} {i : Nat} {a : α} (h : l.lookup i = some a) :
    i ∈ l.map (·.1) := by
  refine Classical.byContradiction fun hn => ?_
  rw [lookup_eq_none_iff_key.mpr hn] at h
  cases h

namespace Desk

@[simp] theorem put_session (d : Desk) (i : FlowId) (progress : Progress) :
    (d.put i progress).session = d.session := by
  cases progress <;> rfl

@[simp] theorem put_started (d : Desk) (i : FlowId) (progress : Progress) :
    (d.put i progress).started = d.started := by
  cases progress <;> rfl

theorem flow?_put_waiting (d : Desk) (i j : FlowId) (f : Flow) :
    (d.put i (.waiting f)).flow? j = if j = i then some f else d.flow? j := by
  simp only [put, flow?]
  by_cases hi : i ∈ d.flows.map (·.1)
  · rw [if_pos (any_key_iff.mpr hi), lookup_replace]
    cases hl : d.flows.lookup i with
    | none => exact absurd hi (lookup_eq_none_iff_key.mp hl)
    | some g => rfl
  · rw [if_neg (fun h => hi (any_key_iff.mp h)), List.lookup_append]
    by_cases hj : j = i
    · subst hj; simp [lookup_eq_none_iff_key.mpr hi]
    · have hji : (j == i) = false := beq_false_of_ne hj
      simp [hj, List.lookup_cons, hji]

theorem flow?_put_ended (d : Desk) (i j : FlowId) (o : Outcome) :
    (d.put i (.ended o)).flow? j = if j = i then none else d.flow? j := lookup_filter_ne d.flows i j

theorem flow?_put_waiting_self (d : Desk) (i : FlowId) (f : Flow) :
    (d.put i (.waiting f)).flow? i = some f := by
  rw [flow?_put_waiting, if_pos rfl]

theorem flow?_put_ended_self (d : Desk) (i : FlowId) (o : Outcome) : (d.put i (.ended o)).flow? i = none := by
  rw [flow?_put_ended, if_pos rfl]

theorem outcome?_put_ended (d : Desk) (i j : FlowId) (o : Outcome) :
    (d.put i (.ended o)).outcome? j = (d.outcome? j).or (if j = i then some o else none) := by
  simp only [put, outcome?, List.lookup_append]
  by_cases hj : j = i
  · subst hj; simp
  · have hji : (j == i) = false := beq_false_of_ne hj
    simp [hj, List.lookup_cons, hji]

theorem flow?_put_of_ne (d : Desk) {i j : FlowId} (h : j ≠ i) (progress : Progress) :
    (d.put i progress).flow? j = d.flow? j := by
  cases progress with
  | unmoved => rfl
  | waiting f => rw [flow?_put_waiting, if_neg h]
  | ended o => rw [flow?_put_ended, if_neg h]

theorem wake_eq {d : Desk} {i : FlowId} {f : Flow} (h : d.flow? i = some f) (signal : Signal) (now : Moment) :
    d.wake i signal now =
      { d with session := (d.session.resume f signal now).1 }.put i (d.session.resume f signal now).2 := by
  simp [wake, h]

theorem wake_eq_self {d : Desk} {i : FlowId} (h : d.flow? i = none) (signal : Signal) (now : Moment) :
    d.wake i signal now = d := by
  simp [wake, h]

theorem wake_started (d : Desk) (i : FlowId) (signal : Signal) (now : Moment) :
    (d.wake i signal now).started = d.started := by
  cases hf : d.flow? i with
  | none => rw [wake_eq_self hf]
  | some f => rw [wake_eq hf, put_started]

theorem run_append (d : Desk) (xs ys : List Step) : d.run (xs ++ ys) = (d.run xs).run ys := List.foldl_append

theorem run_snoc (d : Desk) (xs : List Step) (s : Step) : d.run (xs ++ [s]) = (d.run xs).step s :=
  run_append d xs [s]

/-! ## Numbers -/

/-- Every number stands for at most one flow, which waits or has ended, and for none before its start. -/
structure Numbered (d : Desk) : Prop where
  nodup : (d.flows.map (·.1) ++ d.outcomes.map (·.1)).Nodup
  below : ∀ i ∈ d.flows.map (·.1) ++ d.outcomes.map (·.1), i < d.started

theorem Numbered.lt {d : Desk} (h : d.Numbered) {i : FlowId} {f : Flow} (hf : d.flow? i = some f) :
    i < d.started :=
  h.below i (List.mem_append_left _ (mem_key_of_lookup hf))

theorem Numbered.not_ended {d : Desk} (h : d.Numbered) {i : FlowId} {f : Flow} (hf : d.flow? i = some f) :
    i ∉ d.outcomes.map (·.1) := fun hi =>
  (List.nodup_append.mp h.nodup).2.2 i (mem_key_of_lookup hf) i hi rfl

theorem Numbered.outcome?_ended {d : Desk} (h : d.Numbered) {i : FlowId} {f : Flow} (hf : d.flow? i = some f)
    {s : Session} (o : Outcome) : ({ d with session := s }.put i (.ended o)).outcome? i = some o := by
  rw [outcome?_put_ended, if_pos rfl]
  show (d.outcome? i).or _ = _
  rw [outcome?, lookup_eq_none_iff_key.mpr (h.not_ended hf)]; rfl

theorem Numbered.flow?_started {d : Desk} (h : d.Numbered) : d.flow? d.started = none :=
  lookup_eq_none_iff_key.mpr fun hi => Nat.lt_irrefl _ (h.below _ (List.mem_append_left _ hi))

theorem Numbered.started_not_ended {d : Desk} (h : d.Numbered) : d.started ∉ d.outcomes.map (·.1) :=
  fun hi => Nat.lt_irrefl _ (h.below _ (List.mem_append_right _ hi))

theorem Numbered.put {d : Desk} (h : d.Numbered) {i : FlowId} (hi : i < d.started)
    (ho : i ∉ d.outcomes.map (·.1)) (progress : Progress) : (d.put i progress).Numbered := by
  cases progress with
  | unmoved => exact h
  | waiting f =>
    by_cases hm : i ∈ d.flows.map (·.1)
    · have hk : (d.put i (.waiting f)).flows.map (·.1) = d.flows.map (·.1) := by
        simp only [Desk.put, if_pos (any_key_iff.mpr hm), List.map_map]
        refine List.map_congr_left fun p _ => ?_
        by_cases hp : p.1 = i <;> simp [hp]
      exact ⟨by rw [hk]; exact h.nodup, by rw [hk]; exact h.below⟩
    · have hk : (d.put i (.waiting f)).flows.map (·.1) = d.flows.map (·.1) ++ [i] := by
        simp only [Desk.put, if_neg (fun ha => hm (any_key_iff.mp ha)), List.map_append,
          List.map_cons, List.map_nil]
      have hperm : (d.flows.map (·.1) ++ [i] ++ d.outcomes.map (·.1)).Perm
          (i :: (d.flows.map (·.1) ++ d.outcomes.map (·.1))) := by
        rw [List.append_assoc]; exact List.perm_middle
      refine ⟨?_, fun j hj => ?_⟩
      · rw [hk]
        exact hperm.nodup_iff.mpr
          (List.nodup_cons.mpr ⟨fun hj => (List.mem_append.mp hj).elim hm ho, h.nodup⟩)
      · rw [hk] at hj
        rcases List.mem_cons.mp (hperm.mem_iff.mp hj) with rfl | hj
        · exact hi
        · exact h.below j hj
  | ended o =>
    have hs : (d.flows.filter (·.1 != i)).map (·.1) = (d.flows.map (·.1)).filter (· != i) := by
      rw [List.filter_map]; rfl
    obtain ⟨hf, ho', hd⟩ := List.nodup_append.mp h.nodup
    have hk : (d.put i (.ended o)).flows.map (·.1) ++ (d.put i (.ended o)).outcomes.map (·.1) =
        (d.flows.map (·.1)).filter (· != i) ++ (d.outcomes.map (·.1) ++ [i]) := by
      simp only [Desk.put, hs, List.map_append, List.map_cons, List.map_nil]
    refine ⟨?_, fun j hj => ?_⟩
    · rw [hk]
      refine List.nodup_append.mpr ⟨hf.filter _, ?_, fun j hj k hjk he => ?_⟩
      · refine List.nodup_append.mpr ⟨ho', by simp, fun j hj k hk he => ?_⟩
        rw [List.mem_singleton] at hk
        exact ho (hk ▸ he ▸ hj)
      · obtain ⟨hj, hne⟩ := List.mem_filter.mp hj
        subst he
        rcases List.mem_append.mp hjk with hjk | hjk
        · exact hd j hj j hjk rfl
        · rw [List.mem_singleton] at hjk; simp [hjk] at hne
    · rw [hk] at hj
      rcases List.mem_append.mp hj with hj | hj
      · exact h.below j (List.mem_append_left _ (List.mem_filter.mp hj).1)
      · rcases List.mem_append.mp hj with hj | hj
        · exact h.below j (List.mem_append_right _ hj)
        · rw [List.mem_singleton] at hj; exact hj ▸ hi

theorem Numbered.step {d : Desk} (h : d.Numbered) (s : Step) : (d.step s).Numbered := by
  cases s with
  | act a => exact ⟨h.nodup, h.below⟩
  | watch w => exact ⟨h.nodup, h.below⟩
  | start e =>
    have h' : Numbered { d with session := (d.session.start e).1, started := d.started + 1 } :=
      ⟨h.nodup, fun j hj => Nat.lt_succ_of_lt (h.below j hj)⟩
    exact h'.put (Nat.lt_succ_self _) h.started_not_ended _
  | wake i signal now =>
    show (d.wake i signal now).Numbered
    cases hf : d.flow? i with
    | none => rw [wake_eq_self hf]; exact h
    | some f =>
      rw [wake_eq hf]
      have h' : Numbered { d with session := (d.session.resume f signal now).1 } := ⟨h.nodup, h.below⟩
      exact h'.put (h.lt hf) (h.not_ended hf) _

/-! ## What is told -/

/-- A step that leaves the receiver `i` alone. -/
def Step.Spares (i : Nat) : Step → Prop
  | watch w => w.Spares i
  | _ => True

instance (i : Nat) : (s : Step) → Decidable (s.Spares i)
  | .watch w => inferInstanceAs (Decidable (w ≠ .closeEvents ∧ w ≠ .dropEvents i))
  | .act _ => .isTrue trivial
  | .start _ => .isTrue trivial
  | .wake _ _ _ => .isTrue trivial

/-- All that the receiver `i` has got. -/
def stream (d : Desk) (i : Nat) : List Event := (d.session.bus.mailboxes[i]?).elim [] (·.queue)

theorem stream_of_feeds {d : Desk} {i : Nat} {queue : List Event} (h : d.session.bus.Feeds i queue) :
    d.stream i = queue := by
  unfold Broadcast.Feeds at h
  simp [stream, h]

/-- The state has changed by changes that every receiver was told of, if it was left alone. -/
structure Tells (d : Desk) (alone : Nat → Prop) (es : List Event) (d' : Desk) : Prop where
  changes : State.Changes d.session.state es d'.session.state
  feeds : ∀ {i queue}, alone i → d.session.bus.Feeds i queue → d'.session.bus.Feeds i (queue ++ es)

/-- The desk with other receivers. -/
def withBus (d : Desk) (b : Broadcast Event) : Desk := { d with session := d.session.withBus b }

theorem put_withBus (d : Desk) (b : Broadcast Event) (i : FlowId) (progress : Progress) :
    (d.withBus b).put i progress = (d.put i progress).withBus b := by
  cases progress <;> rfl

theorem step_alike (d : Desk) {s : Step} (hs : ∀ w, s ≠ .watch w) (b b' : Broadcast Event) :
    ∃ (es : List Event) (d' : Desk), (d.withBus b).step s = d'.withBus (es.foldl Broadcast.publish b) ∧
      (d.withBus b').step s = d'.withBus (es.foldl Broadcast.publish b') := by
  cases s with
  | watch w => exact absurd rfl (hs w)
  | act a =>
    obtain ⟨es, s, answer, h, h'⟩ : Session.Alike b b' _ _ := d.session.act_alike a
    refine ⟨es, { d with session := s }, ?_, ?_⟩
    · simp only [step, act, withBus, h]
    · simp only [step, act, withBus, h']
  | start e =>
    obtain ⟨es, s, progress, h, h'⟩ : Session.Alike b b' _ _ := d.session.start_alike e
    refine ⟨es, { d with session := s, started := d.started + 1 }.put d.started progress, ?_, ?_⟩
    · rw [← put_withBus]
      simp only [step, start, withBus, h]
    · rw [← put_withBus]
      simp only [step, start, withBus, h']
  | wake i signal now =>
    cases hf : d.flow? i with
    | none => exact ⟨[], d, wake_eq_self (d := d.withBus b) hf .., wake_eq_self (d := d.withBus b') hf ..⟩
    | some f =>
      obtain ⟨es, s, progress, h, h'⟩ : Session.Alike b b' _ _ := d.session.resume_alike f signal now
      refine ⟨es, { d with session := s }.put i progress, ?_, ?_⟩
      · rw [← put_withBus, step, wake_eq (d := d.withBus b) hf]
        simp only [withBus, h]
      · rw [← put_withBus, step, wake_eq (d := d.withBus b') hf]
        simp only [withBus, h']

theorem step_evolves (d : Desk) {s : Step} (hs : ∀ w, s ≠ .watch w) :
    ∃ es, d.session.Evolves es (d.step s).session := by
  cases s with
  | watch w => exact absurd rfl (hs w)
  | act a => exact d.session.act_evolves a
  | start e =>
    rw [step, start, put_session]
    exact d.session.start_evolves e
  | wake i signal now =>
    rw [step]
    cases hf : d.flow? i with
    | none =>
      rw [wake_eq_self hf]
      exact ⟨[], .still rfl rfl⟩
    | some f =>
      rw [wake_eq hf, put_session]
      exact d.session.resume_evolves f signal now

/-- What a step publishes: all that a receiver gets by it that was opened right before. -/
def publishedBy (d : Desk) (s : Step) : List Event :=
  ((d.step (.watch .openEvents)).step s).stream d.session.bus.subscribe.1

/-- All that is published in a run, whether or not there is a receiver for it. -/
def published (d : Desk) : List Step → List Event
  | [] => []
  | s :: steps => d.publishedBy s ++ (d.step s).published steps

theorem publishedBy_watch (d : Desk) (w : Watch) : d.publishedBy (.watch w) = [] := by
  have h := d.session.bus.feeds_subscribe
  cases w with
  | openEvents => exact stream_of_feeds h.subscribe
  | observe => exact stream_of_feeds h
  | closeEvents =>
    unfold Broadcast.Feeds at h
    simp [publishedBy, step, Session.watch, Session.closeEvents, Session.openEvents, stream,
      Broadcast.close, h]
  | dropEvents i =>
    unfold Broadcast.Feeds at h
    by_cases hi : i = d.session.bus.subscribe.1 <;>
      simp [publishedBy, step, Session.watch, Session.dropEvents, Session.openEvents, stream,
        Broadcast.drop, h, hi]

/-- What a step publishes tells how it changes the state, and goes to all receivers there are. -/
theorem step_publishes (d : Desk) {s : Step} (hs : ∀ w, s ≠ .watch w) :
    d.session.Evolves (d.publishedBy s) (d.step s).session := by
  obtain ⟨es, d', hd, hp⟩ := d.step_alike hs d.session.bus d.session.bus.subscribe.2
  obtain ⟨es', h⟩ := (d.withBus d.session.bus.subscribe.2).step_evolves hs
  have hd : d.step s = d'.withBus (es.foldl Broadcast.publish d.session.bus) := hd
  -- the receiver that was opened right before gets both lists, and so they are what is published
  have got : ∀ {es : List Event}, ((d.withBus d.session.bus.subscribe.2).step s).session.bus =
      es.foldl Broadcast.publish d.session.bus.subscribe.2 → d.publishedBy s = es := fun hb =>
    stream_of_feeds (d := (d.withBus d.session.bus.subscribe.2).step s)
      (by rw [hb]; exact d.session.bus.feeds_subscribe.publishAll _)
  have hes : d.publishedBy s = es := got (by rw [hp]; rfl)
  have hes' : d.publishedBy s = es' := got h.bus
  constructor
  · rw [hes', hd]
    have changes := h.changes
    rw [hp] at changes
    exact changes
  · rw [hes, hd]
    rfl

theorem step_tells (d : Desk) (s : Step) : d.Tells (fun i => s.Spares i) (d.publishedBy s) (d.step s) := by
  by_cases hs : ∀ w, s ≠ .watch w
  · have h := d.step_publishes hs
    refine ⟨h.changes, fun _ hf => ?_⟩
    rw [h.bus]
    exact hf.publishAll _
  · obtain ⟨w, rfl⟩ : ∃ w, s = .watch w := by simpa using hs
    rw [publishedBy_watch]
    refine ⟨?_, fun hw hf => ?_⟩
    · cases w <;> exact .nil _
    · rw [List.append_nil]
      exact Session.watch_feeds hf hw

theorem run_tells (d : Desk) (steps : List Step) :
    d.Tells (fun i => ∀ s ∈ steps, s.Spares i) (d.published steps) (d.run steps) := by
  induction steps generalizing d with
  | nil =>
    refine ⟨.nil _, fun _ hf => ?_⟩
    rw [published, List.append_nil]
    exact hf
  | cons s steps ih =>
    have h := d.step_tells s
    have h' := ih (d.step s)
    refine ⟨h.changes.append h'.changes, fun hs hf => ?_⟩
    rw [published, ← List.append_assoc]
    exact h'.feeds (fun s' hs' => hs s' (List.mem_cons_of_mem s hs'))
      (h.feeds (hs s (List.mem_cons_self ..)) hf)

theorem published_append (d : Desk) (xs ys : List Step) :
    d.published (xs ++ ys) = d.published xs ++ (d.run xs).published ys := by
  induction xs generalizing d with
  | nil => rfl
  | cons s xs ih =>
    rw [List.cons_append, published, published, ih, List.append_assoc]
    rfl

/-- The receiver that is opened after `before` and then left alone gets exactly what is
published from there on. -/
theorem published_eq_stream (d : Desk) (before : List Step) {after : List Step}
    (alone : ∀ step ∈ after, step.Spares (d.run before).session.bus.subscribe.1) :
    d.published (before ++ .watch .openEvents :: after) = d.published before ++
      (d.run (before ++ .watch .openEvents :: after)).stream (d.run before).session.bus.subscribe.1 := by
  have tells := ((d.run before).step (.watch .openEvents)).run_tells after
  have hf := tells.feeds alone (d.run before).session.bus.feeds_subscribe
  rw [published_append, published, publishedBy_watch, run_append]
  exact congrArg _ (stream_of_feeds hf).symm

/-! ## What is signed -/

/-- The signature that a step brings, and the flow that it is for. -/
def Step.signature? : Step → Option (FlowId × Signed)
  | .wake i (.reply (.signature (.ok signed))) _ => some (i, signed)
  | _ => none

/-- The request that the flow `i` has asked a signature for. -/
def asked? (d : Desk) (i : FlowId) : Option Request :=
  match d.flow? i with
  | some (.signing r _) => some r
  | _ => none

section Signed
variable {P Q : Request → Signed → Prop}

/-- A signature that the step brings stands to the request that it was asked for as `P` says. -/
def Brings (P : Request → Signed → Prop) (d : Desk) (s : Step) : Prop :=
  ∀ x ∈ s.signature?, ∀ r ∈ d.asked? x.1, P r x.2

/-- All signatures of a run stand to their requests as `P` says. -/
def Signs (P : Request → Signed → Prop) (d : Desk) : List Step → Prop
  | [] => True
  | s :: steps => d.Brings P s ∧ (d.step s).Signs P steps

instance [∀ r signed, Decidable (P r signed)] (d : Desk) (s : Step) : Decidable (d.Brings P s) :=
  inferInstanceAs (Decidable (∀ x ∈ s.signature?, ∀ r ∈ d.asked? x.1, P r x.2))

instance decidableSigns [∀ r signed, Decidable (P r signed)] (d : Desk) :
    (steps : List Step) → Decidable (d.Signs P steps)
  | [] => .isTrue trivial
  | s :: steps => @instDecidableAnd _ _ _ (decidableSigns (d.step s) steps)

theorem Brings.signature {d : Desk} {i : FlowId} {signed : Signed} {now : Moment}
    (h : d.Brings P (.wake i (.reply (.signature (.ok signed))) now)) {r : Request} {t : Token}
    (hf : d.flow? i = some (.signing r t)) : P r signed :=
  h (i, signed) rfl r (by simp [asked?, hf])

theorem Brings.mono (hPQ : ∀ r signed, P r signed → Q r signed) {d : Desk} {s : Step} (h : d.Brings P s) :
    d.Brings Q s :=
  fun x hx r hr => hPQ r x.2 (h x hx r hr)

theorem signs_append {d : Desk} {xs ys : List Step} :
    d.Signs P (xs ++ ys) ↔ d.Signs P xs ∧ (d.run xs).Signs P ys := by
  induction xs generalizing d with
  | nil => simp [Signs, run]
  | cons s xs ih => simp only [List.cons_append, Signs, ih, and_assoc]; rfl

theorem Signs.mono (hPQ : ∀ r signed, P r signed → Q r signed) {d : Desk} {steps : List Step}
    (h : d.Signs P steps) :
    d.Signs Q steps := by
  induction steps generalizing d with
  | nil => trivial
  | cons s steps ih => exact ⟨h.1.mono hPQ, ih h.2⟩

end Signed

/-! ## A visit -/

/-- A session in which nothing has happened yet. -/
def newSession : Session := ⟨.standard, .initial, .none, .silent, 0, [], 0⟩

/-- A visitor connects, deposits 500, retypes the form before the deposit is confirmed, and
asks for 20 back. -/
def visit : List Step :=
  [.start .connect,
   .wake 0 (.reply (.wallet (.account (.ok Simulation.sampleAccount)))) .epoch,
   .wake 0 (.reply (.wallet (.chainId (.ok 8453)))) .epoch,
   .wake 0 (.reply (.snapshot (.ok Simulation.sampleSnapshot))) .epoch,
   .act (.setInput .deposit "500"),
   .start (.submit .deposit),
   .wake 1 (.reply (.signature (.ok ⟨"0xa1", .deposit, "500", Entry.ofText "500", .issued 0⟩))) .epoch,
   .act (.setInput .deposit "7"),
   .act (.setInput .withdraw "20"),
   .start (.submit .withdraw)]

/-- The withdrawal is cancelled, the deposit is confirmed, and a late signature comes in for
the withdrawal. -/
def visitEnd : List Step :=
  [.act (.cancel .withdraw),
   .wake 1 (.reply (.confirmation (.ok ()))) .epoch,
   .wake 2 (.reply (.signature (.ok ⟨"0xa2", .withdraw, "20", Entry.ofText "20", .issued 1⟩))) .epoch,
   .act (.acknowledge .deposit)]

end Desk

end YieldVault
