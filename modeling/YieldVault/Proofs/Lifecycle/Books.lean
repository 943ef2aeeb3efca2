import Mathlib.Data.List.Induction
import YieldVault.Proofs.Lifecycle.Slot

/-!
# The books of a slot

Any calls are made on a new slot, one after the other, and the replies are written down. What the slot holds
then agrees with the replies: the token handed out last is there while an action is in flight, actions begun
and actions ended differ by that action, and a token is cancelled just when a cancel came while its own action
was in flight. A call that the slot does not allow is denied, and then nothing changes.
-/

namespace YieldVault.Slot

inductive Call where
  | begin (r : Request)
  | sign (trace : TraceId) (reference : String)
  | settle (trace : TraceId) (receipt : Receipt)
  | reject (trace : TraceId) (reason : Rejection)
  | acknowledge
  | cancel
  deriving DecidableEq

/-- What a call answers: the token of a new action, how a move went, or whether something was cancelled. -/
inductive Reply where
  | started (token : Option Token)
  | moved (result : Except Refusal Unit)
  | cancelled (found : Bool)

def Reply.succeeded : Reply → Bool
  | started token => token.isSome
  | moved result => result.isOk
  | cancelled found => found

@[simp] theorem Reply.succeeded_moved_ok : (Reply.moved (.ok ())).succeeded = true := rfl

def Reply.token? : Reply → Option Token
  | started token => token
  | _ => none

def moved (s : Slot) (ts : Tokens) : Except Refusal Slot → Slot × Tokens × Reply
  | .ok s' => (s', ts, .moved (.ok ()))
  | .error e => (s, ts, .moved (.error e))

def call (s : Slot) (ts : Tokens) : Call → Slot × Tokens × Reply
  | .begin r =>
    match s.begin r ts with
    | some (s', t, ts') => (s', ts', .started (some t))
    | none => (s, ts, .started none)
  | .sign trace reference => s.moved ts (s.sign trace reference)
  | .settle trace receipt => s.moved ts (s.settle trace receipt)
  | .reject trace reason => s.moved ts (s.reject trace reason)
  | .acknowledge => s.moved ts s.acknowledge
  | .cancel => (s, (s.cancel ts).1, .cancelled (s.cancel ts).2)

namespace Call

def trace? : Call → Option TraceId
  | sign trace _ | settle trace _ | reject trace _ => some trace
  | _ => none

def phases : Call → Phase → Bool
  | begin _, p | acknowledge, p => !p.inFlight
  | sign .., p => p == .awaitingSignature
  | settle .., p => isSubmitted p
  | reject .., p | cancel, p => p.inFlight

/-- The call is about the stored request, if it is about one, and it comes in a phase that allows it. -/
structure Allowed (c : Call) (s : Slot) : Prop where
  current : ∀ trace ∈ c.trace?, ∃ r ∈ s.request, r.trace = trace
  phase : c.phases s.phase = true

def ends : Call → Bool
  | settle .. | reject .. => true
  | _ => false

/-- The refusal of a move: the id comes before the phase. -/
def refusal (s : Slot) (trace : TraceId) (move : String) : Refusal :=
  if s.isCurrent trace then .wrongPhase move s.kind s.phase else .notCurrent trace

def denial (s : Slot) : Call → Reply
  | begin _ => .started none
  | sign trace _ => .moved (.error (refusal s trace "signed"))
  | settle trace _ => .moved (.error (refusal s trace "settle"))
  | reject trace _ => .moved (.error (refusal s trace "reject"))
  | acknowledge => .moved (.error (.wrongPhase "acknowledge" s.kind s.phase))
  | cancel => .cancelled false

theorem denial_succeeded (s : Slot) (c : Call) : (c.denial s).succeeded = false := by
  cases c <;> rfl

theorem denial_token? (s : Slot) (c : Call) : (c.denial s).token? = none := by
  cases c <;> rfl

theorem allowed_iff {s : Slot} {c : Call} :
    c.Allowed s ↔ (∀ trace ∈ c.trace?, s.isCurrent trace = true) ∧ c.phases s.phase = true := by
  simp only [isCurrent_iff]
  exact ⟨fun h => ⟨by simpa using h.current, h.phase⟩, fun h => ⟨by simpa using h.1, h.2⟩⟩

end Call

/-! ## What one call does -/

inductive Did (s : Slot) (ts : Tokens) : Call → Slot × Tokens × Reply → Prop
  | begun (r : Request) (h : s.phase.inFlight = false) :
      Did s ts (.begin r)
        ({ s with phase := .awaitingSignature, request := some r, token := some ts.issue.1 },
        ts.issue.2, .started (some ts.issue.1))
  | signed {trace : TraceId} (reference : String) (hc : s.isCurrent trace = true)
      (hp : s.phase = .awaitingSignature) :
      Did s ts (.sign trace reference) ({ s with phase := .submitted reference }, ts, .moved (.ok ()))
  | settled {trace : TraceId} (receipt : Receipt) (hc : s.isCurrent trace = true)
      (hp : isSubmitted s.phase = true) :
      Did s ts (.settle trace receipt) ({ s with phase := .settled receipt, token := none }, ts,
        .moved (.ok ()))
  | rejected {trace : TraceId} (reason : Rejection) (hc : s.isCurrent trace = true)
      (hp : s.phase.inFlight = true) :
      Did s ts (.reject trace reason) ({ s with phase := .rejected reason, token := none }, ts,
        .moved (.ok ()))
  | acknowledged (h : s.phase.inFlight = false) :
      Did s ts .acknowledge ({ s with phase := .idle, request := none }, ts, .moved (.ok ()))
  | cancelled {t : Token} (h : s.phase.inFlight = true) (ht : s.token = some t) :
      Did s ts .cancel (s, ts.cancel t, .cancelled true)
  | denied {c : Call} (h : ¬ c.Allowed s) : Did s ts c (s, ts, c.denial s)

variable {s : Slot} {ts : Tokens} {c : Call} {x : Slot × Tokens × Reply}

theorem allow_bind_of_not {trace : TraceId} {move : String} {phases : Phase → Bool} {f : Slot → Slot}
    (h : ¬ (s.isCurrent trace = true ∧ phases s.phase = true)) :
    (s.allow trace move phases >>= fun s => pure (f s)) = .error (Call.refusal s trace move) := by
  unfold allow Call.refusal
  by_cases hc : s.isCurrent trace = true
  · have hp : phases s.phase = false := by simpa [hc] using h
    simp [hc, hp, bind, Except.bind]
  · simp [hc, bind, Except.bind]

/-- Only a cancel needs something of the slot: an action in flight has its token there. -/
theorem call_did (armed : s.phase.inFlight = true → s.token.isSome = true) (ts : Tokens) (c : Call) :
    Did s ts c (s.call ts c) := by
  cases c with
  | begin r =>
    by_cases h : s.phase.inFlight = true
    · have hn : ¬ (Call.begin r).Allowed s := by simp [Call.allowed_iff, Call.trace?, Call.phases, h]
      have he : s.call ts (.begin r) = (s, ts, (Call.begin r).denial s) := by
        simp [call, begin, h, Call.denial]
      rw [he]
      exact .denied hn
    · have hf : s.phase.inFlight = false := by simpa using h
      rw [call, begin_of_not_inFlight hf]
      exact .begun r hf
  | sign trace reference =>
    by_cases h : s.isCurrent trace = true ∧ (s.phase == .awaitingSignature) = true
    · have hp : s.phase = .awaitingSignature := beq_iff_eq.mp h.2
      rw [call, sign_eq_ok_iff.mpr ⟨h.1, hp, rfl⟩]
      exact .signed reference h.1 hp
    · have he : s.sign trace reference = .error _ := allow_bind_of_not h
      rw [call, he]
      exact .denied (fun ha => h (Call.allowed_iff.mp ha |>.imp_left fun hc => hc trace rfl))
  | settle trace receipt =>
    by_cases h : s.isCurrent trace = true ∧ isSubmitted s.phase = true
    · rw [call, settle_eq_ok_iff.mpr ⟨h.1, h.2, rfl⟩]
      exact .settled receipt h.1 h.2
    · have he : s.settle trace receipt = .error _ := allow_bind_of_not h
      rw [call, he]
      exact .denied (fun ha => h (Call.allowed_iff.mp ha |>.imp_left fun hc => hc trace rfl))
  | reject trace reason =>
    by_cases h : s.isCurrent trace = true ∧ s.phase.inFlight = true
    · rw [call, reject_eq_ok_iff.mpr ⟨h.1, h.2, rfl⟩]
      exact .rejected reason h.1 h.2
    · have he : s.reject trace reason = .error _ := allow_bind_of_not h
      rw [call, he]
      exact .denied (fun ha => h (Call.allowed_iff.mp ha |>.imp_left fun hc => hc trace rfl))
  | acknowledge =>
    by_cases h : s.phase.inFlight = true
    · have hn : ¬ Call.acknowledge.Allowed s := by simp [Call.allowed_iff, Call.trace?, Call.phases, h]
      have he : s.acknowledge = .error (.wrongPhase "acknowledge" s.kind s.phase) := if_pos h
      rw [call, he]
      exact .denied hn
    · have hf : s.phase.inFlight = false := by simpa using h
      rw [call, acknowledge_eq_ok_iff.mpr ⟨hf, rfl⟩]
      exact .acknowledged hf
  | cancel =>
    by_cases h : s.phase.inFlight = true
    · obtain ⟨t, ht⟩ := Option.isSome_iff_exists.mp (armed h)
      rw [call, cancel_of_inFlight h ht]
      exact .cancelled h ht
    · have hn : ¬ Call.cancel.Allowed s := by simp [Call.allowed_iff, Call.trace?, Call.phases, h]
      rw [call, cancel_of_not_inFlight (by simpa using h)]
      exact .denied hn

namespace Did

theorem succeeded_iff (h : Did s ts c x) : x.2.2.succeeded = true ↔ c.Allowed s := by
  rw [Call.allowed_iff]
  cases h with
  | begun r h => simp [Reply.succeeded, Call.trace?, Call.phases, h]
  | signed reference hc hp => simp [Call.trace?, Call.phases, hc, hp]
  | settled receipt hc hp => simp [Call.trace?, Call.phases, hc, hp]
  | rejected reason hc hp => simp [Call.trace?, Call.phases, hc, hp]
  | acknowledged h => simp [Call.trace?, Call.phases, h]
  | cancelled h ht => simp [Reply.succeeded, Call.trace?, Call.phases, h]
  | denied h =>
    rw [Call.denial_succeeded, ← Call.allowed_iff]
    simp [h]

theorem eq_of_not_allowed (h : Did s ts c x) (hn : ¬ c.Allowed s) : x = (s, ts, c.denial s) := by
  have hx : ¬ x.2.2.succeeded = true := mt h.succeeded_iff.mp hn
  cases h with
  | denied => rfl
  | begun => exact absurd rfl hx
  | cancelled => exact absurd rfl hx
  | _ => exact absurd Reply.succeeded_moved_ok hx

theorem submitted_of_settled {receipt : Receipt} (h : Did s ts c x) (hs : x.1.phase = .settled receipt) :
    x.1 = s ∨ (∃ reference, s.phase = .submitted reference) ∧ ∃ trace, c = .settle trace receipt := by
  cases h with
  | settled receipt' hc hp =>
    obtain rfl : receipt' = receipt := by simpa using hs
    exact .inr ⟨isSubmitted_iff.mp hp, _, rfl⟩
  | cancelled => exact .inl rfl
  | denied => exact .inl rfl
  | _ => cases hs

theorem token_eq (h : Did s ts c x) {last : Option Token}
    (hs : s.token = if s.phase.inFlight then last else none) :
    x.1.token = if x.1.phase.inFlight then x.2.2.token?.or last else none := by
  cases h with
  | begun r h => simp [Phase.inFlight, Reply.token?]
  | signed reference hc hp => simpa [Phase.inFlight, Reply.token?, hp] using hs
  | settled receipt hc hp => simp [Phase.inFlight]
  | rejected reason hc hp => simp [Phase.inFlight]
  | acknowledged h =>
    rw [h] at hs
    exact hs
  | cancelled h ht => simpa [Reply.token?] using hs
  | denied h => simpa [Call.denial_token?] using hs

theorem request_isSome_iff (h : Did s ts c x) (hs : s.request.isSome = true ↔ s.phase ≠ .idle) :
    x.1.request.isSome = true ↔ x.1.phase ≠ .idle := by
  have stored : ∀ {trace}, s.isCurrent trace = true → s.request.isSome = true := fun hc => by
    obtain ⟨r, hr, -⟩ := isCurrent_iff.mp hc
    simp [hr]
  cases h with
  | begun r h => simp
  | signed reference hc hp => simp [stored hc]
  | settled receipt hc hp => simp [stored hc]
  | rejected reason hc hp => simp [stored hc]
  | acknowledged h => simp
  | cancelled h ht => exact hs
  | denied h => exact hs

/-- An action that was there or begins has ended or is still there. -/
theorem balance (h : Did s ts c x) :
    x.2.2.token?.toList.length + (if s.phase.inFlight then 1 else 0) =
      (if c.ends && x.2.2.succeeded then 1 else 0) + if x.1.phase.inFlight then 1 else 0 := by
  -- the phase before is known in each case, and then all four numbers are
  cases h with
  | begun r h =>
    rw [h]
    rfl
  | signed reference hc hp =>
    rw [hp]
    rfl
  | settled receipt hc hp =>
    obtain ⟨reference, hr⟩ := isSubmitted_iff.mp hp
    rw [hr]
    rfl
  | rejected reason hc hp =>
    rw [hp]
    rfl
  | acknowledged h =>
    rw [h]
    rfl
  | cancelled h ht => simp [Reply.token?, Call.ends]
  | denied h => simp [Call.denial_token?, Call.denial_succeeded]

theorem range_issued (h : Did s ts c x) :
    List.range x.2.1.issued = List.range ts.issued ++ x.2.2.token?.toList := by
  cases h with
  | begun r h => simp [Tokens.issue, Reply.token?, List.range_succ]
  | cancelled h ht => simp [Tokens.cancel_issued, Reply.token?]
  | denied h => simp [Call.denial_token?]
  | _ => simp [Reply.token?]

theorem isCancelled_iff (h : Did s ts c x) (u : Token) :
    x.2.1.isCancelled u = true ↔
      ts.isCancelled u = true ∨ c = .cancel ∧ s.phase.inFlight = true ∧ s.token = some u := by
  cases h with
  | begun r h => simp [Tokens.issue, Tokens.isCancelled]
  | cancelled h ht =>
    refine ⟨fun hc => ?_, ?_⟩
    · rcases Tokens.isCancelled_of_cancel hc with rfl | hc
      · exact .inr ⟨rfl, h, ht⟩
      · exact .inl hc
    · rintro (hc | ⟨-, -, hu⟩)
      · exact ts.cancel_mono _ hc
      · obtain rfl := Option.some.inj (ht.symm.trans hu)
        exact ts.isCancelled_cancel _
  | denied h =>
    have hn : ¬ (c = .cancel ∧ s.phase.inFlight = true ∧ s.token = some u) := by
      rintro ⟨rfl, hf, -⟩
      exact h (Call.allowed_iff.mpr ⟨by simp [Call.trace?], hf⟩)
    simp [hn]
  | _ => simp

end Did

/-! ## Any calls on a new slot -/

/-- A slot with the register of its tokens and all calls so far. -/
structure Books where
  slot : Slot
  tokens : Tokens
  calls : List (Call × Reply)

namespace Books

def empty (kind : Kind) : Books := ⟨.empty kind, .none, []⟩

def enter (b : Books) (c : Call) : Books :=
  let x := b.slot.call b.tokens c
  ⟨x.1, x.2.1, b.calls ++ [(c, x.2.2)]⟩

def after (kind : Kind) (calls : List Call) : Books := calls.foldl enter (empty kind)

/-- The tokens that were handed out, one for each action that began. -/
def handed (b : Books) : List Token := b.calls.filterMap (·.2.token?)

def ended (b : Books) : Nat := b.calls.countP fun (c, r) => c.ends && r.succeeded

/-- A cancel came while the action with the number `i`, counted from zero, was in flight. -/
def CancelledIn (kind : Kind) (calls : List Call) (i : Nat) : Prop :=
  ∃ before, before ++ [.cancel] <+: calls ∧ (after kind before).slot.phase.inFlight = true ∧
    (after kind before).handed.length = i + 1

theorem after_snoc (kind : Kind) (calls : List Call) (c : Call) :
    after kind (calls ++ [c]) = (after kind calls).enter c := by
  simp [after]

theorem enter_slot (b : Books) (c : Call) : (b.enter c).slot = (b.slot.call b.tokens c).1 := rfl

theorem handed_enter (b : Books) (c : Call) :
    (b.enter c).handed = b.handed ++ (b.slot.call b.tokens c).2.2.token?.toList := by
  cases h : (b.slot.call b.tokens c).2.2.token? <;> simp [handed, enter, List.filterMap_append, h]

theorem ended_enter (b : Books) (c : Call) :
    (b.enter c).ended = b.ended + if c.ends && (b.slot.call b.tokens c).2.2.succeeded then 1 else 0 := by
  simp [ended, enter, List.countP_append, List.countP_singleton]

theorem cancelledIn_snoc {kind : Kind} {calls : List Call} {c : Call} {i : Nat} :
    CancelledIn kind (calls ++ [c]) i ↔ CancelledIn kind calls i ∨
      c = .cancel ∧ (after kind calls).slot.phase.inFlight = true ∧
      (after kind calls).handed.length = i + 1 := by
  constructor
  · rintro ⟨before, hb, hf, hl⟩
    rcases List.prefix_concat_iff.mp hb with he | hold
    · obtain ⟨rfl, hc⟩ := List.append_inj' he rfl
      exact .inr ⟨(List.singleton_inj.mp hc).symm, hf, hl⟩
    · exact .inl ⟨before, hold, hf, hl⟩
  · rintro (⟨before, hb, hf, hl⟩ | ⟨rfl, hf, hl⟩)
    · exact ⟨before, hb.trans (List.prefix_append ..), hf, hl⟩
    · exact ⟨calls, List.prefix_refl _, hf, hl⟩

structure Kept (kind : Kind) (calls : List Call) : Prop where
  token : (after kind calls).slot.token =
    if (after kind calls).slot.phase.inFlight then (after kind calls).handed.getLast? else none
  request : (after kind calls).slot.request.isSome = true ↔ (after kind calls).slot.phase ≠ .idle
  balance : (after kind calls).handed.length =
    (after kind calls).ended + if (after kind calls).slot.phase.inFlight then 1 else 0
  handed : (after kind calls).handed = List.range (after kind calls).tokens.issued
  cancelled : ∀ t, (after kind calls).tokens.isCancelled t = true ↔ CancelledIn kind calls t

variable {kind : Kind} {calls : List Call}

/-- The token of an action in flight has the number of the action. -/
theorem Kept.token_eq_some_iff (h : Kept kind calls) (hf : (after kind calls).slot.phase.inFlight = true)
    (t : Token) : (after kind calls).slot.token = some t ↔ (after kind calls).handed.length = t + 1 := by
  have hb := h.balance
  rw [h.token, if_pos hf, h.handed, List.length_range]
  rw [h.handed, List.length_range, if_pos hf] at hb
  rw [hb, List.range_succ, List.getLast?_concat]
  simp [eq_comm]

theorem Kept.armed (h : Kept kind calls) (hf : (after kind calls).slot.phase.inFlight = true) :
    (after kind calls).slot.token.isSome = true := by
  have hb := h.balance
  rw [if_pos hf] at hb
  rw [(h.token_eq_some_iff hf _).mpr hb, Option.isSome_some]

theorem Kept.did (h : Kept kind calls) (c : Call) : Did (after kind calls).slot (after kind calls).tokens c
    ((after kind calls).slot.call (after kind calls).tokens c) :=
  call_did h.armed _ c

theorem Kept.step (h : Kept kind calls) (c : Call) : Kept kind (calls ++ [c]) := by
  have hd := h.did c
  constructor
  -- the token handed out by this call, if any, is the last one
  · have last : ∀ o : Option Token, o.toList.getLast? = o := by rintro (_ | _) <;> rfl
    rw [after_snoc, handed_enter, enter_slot, List.getLast?_append, last]
    exact hd.token_eq h.token
  · rw [after_snoc]
    exact hd.request_isSome_iff h.request
  · have hb := h.balance
    have hs := hd.balance
    rw [after_snoc, handed_enter, ended_enter, enter_slot, List.length_append]
    omega
  · rw [after_snoc, handed_enter, h.handed]
    exact hd.range_issued.symm
  · intro t
    rw [after_snoc, cancelledIn_snoc, ← h.cancelled]
    -- what the call cancels is the token in the slot, which has the number of the action in flight
    refine (hd.isCancelled_iff t).trans
      (or_congr_right (and_congr_right fun _ => and_congr_right fun hf => ?_))
    exact h.token_eq_some_iff hf t

theorem kept (kind : Kind) (calls : List Call) : Kept kind calls := by
  induction calls using List.reverseRecOn with
  | nil =>
    refine ⟨rfl, by simp [after, empty, Slot.empty], rfl, rfl, fun t => ?_⟩
    simp [after, empty, Tokens.none, Tokens.isCancelled, CancelledIn]
  | append_singleton calls c ih => exact ih.step c

/-- After any calls on a new slot: what is stored, how begun and ended actions add up, how an action gets
settled, which calls succeed and what a denied one does, and which of the tokens handed out are cancelled. -/
theorem slot_bookkeeping (kind : Kind) (calls : List Call) :
    let b := after kind calls
    (b.slot.token.isSome = true ↔ b.slot.phase.inFlight = true) ∧
    (b.slot.request.isSome = true ↔ b.slot.phase ≠ .idle) ∧
    b.handed.length = b.ended + (if b.slot.phase.inFlight then 1 else 0) ∧
    (∀ c receipt, (b.enter c).slot.phase = .settled receipt → (b.enter c).slot = b.slot ∨
      (∃ reference, b.slot.phase = .submitted reference) ∧ ∃ trace, c = .settle trace receipt) ∧
    (∀ c, (b.slot.call b.tokens c).2.2.succeeded = true ↔ c.Allowed b.slot) ∧
    (∀ c, ¬ c.Allowed b.slot → b.slot.call b.tokens c = (b.slot, b.tokens, c.denial b.slot)) ∧
    (b.slot.cancel b.tokens).2 = b.slot.phase.inFlight ∧
    b.handed.Nodup ∧
    ∀ i t, b.handed[i]? = some t → (b.tokens.isCancelled t = true ↔ CancelledIn kind calls i) := by
  intro b
  have h := kept kind calls
  refine ⟨⟨fun ht => ?_, h.armed⟩, h.request, h.balance, fun c receipt => (h.did c).submitted_of_settled,
    fun c => (h.did c).succeeded_iff, fun c => (h.did c).eq_of_not_allowed, ?_, ?_, fun i t hi => ?_⟩
  · by_contra hf
    rw [h.token, if_neg hf] at ht
    cases ht
  · have hc := (h.did .cancel).succeeded_iff
    rw [Call.allowed_iff] at hc
    simpa [call, Reply.succeeded, Call.trace?, Call.phases, ← Bool.eq_iff_iff] using hc
  · rw [h.handed]
    exact List.nodup_range
  · have ht : i = t := by
      rw [h.handed, List.getElem?_eq_some_iff] at hi
      obtain ⟨_, hi⟩ := hi
      simpa using hi
    rw [h.cancelled, ht]

/-- An action that is cancelled and given up, a cancel between two actions, and a second action
under the same id. -/
def secondTry : List Call :=
  let r : Request := ⟨.withdraw, "7", .invalid, .issued 4⟩
  [.begin r, .cancel, .reject r.trace .userCancelled, .cancel, .begin r, .sign r.trace "0x2"]

theorem slot_bookkeeping_secondTry : (after .withdraw secondTry).handed = [0, 1] ∧
    CancelledIn .withdraw secondTry 0 ∧ ¬ CancelledIn .withdraw secondTry 1 := by
  obtain ⟨-, -, -, -, -, -, -, -, h⟩ := slot_bookkeeping .withdraw secondTry
  have hc : CancelledIn .withdraw secondTry 0 := (h 0 0 (by decide)).mp (by decide)
  have hn : ¬ CancelledIn .withdraw secondTry 1 := fun hc => absurd ((h 1 1 (by decide)).mpr hc) (by decide)
  exact ⟨by decide, hc, hn⟩

end Books

end YieldVault.Slot
