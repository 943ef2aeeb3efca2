import YieldVault.Proofs.Position.Receipt
import YieldVault.Proofs.Session.Effect
import YieldVault.Simulation.Sample

/-!
# The history of a position

A position begins with an accepted quote. After that quotes and receipts are offered to it in any order, and
nobody looks at them beforehand: a receipt may be for less than nothing, and its shares need not be the worth
of its amount. Whatever comes, the position stays in order, and an offer that is turned down leaves it alone.
A session changes its position by such offers.
-/

namespace YieldVault

open Amount

namespace Position

inductive Offer where
  | quote (q : Quote)
  | receipt (r : Receipt)

/-- What an offer leads to, or why it is turned down. -/
def offer (p : Position) : Offer → Except (Refusal ⊕ Rejection) Position
  | .quote q => (ofQuote q).mapError .inl
  | .receipt r => (p.apply r).mapError .inr

def after (p : Position) (o : Offer) : Position := (p.offer o).toOption.getD p

def history (p : Position) (offers : List Offer) : Position := offers.foldl after p

/-- All that is asked of the numbers of a position. -/
structure InOrder (p : Position) : Prop where
  sound : p.quote.defect? = none
  consistent : p.quote.Consistent
  worth : p.quote.userShares.mul? p.quote.sharePrice = some p.userValue
  room_nonneg : 0 ≤ p.remainingCap.value
  room_le_cap : p.remainingCap.value ≤ p.quote.depositCap.value

/-- The terms that only a quote sets. -/
structure SameTerms (p p' : Position) : Prop where
  price : p'.quote.sharePrice = p.quote.sharePrice
  cap : p'.quote.depositCap = p.quote.depositCap
  least : p'.quote.minDeposit = p.quote.minDeposit

/-- The quote that an offer leads to when its amount is covered. -/
inductive Leads (p : Position) : Offer → Quote → Prop
  | quote (q : Quote) : Leads p (.quote q) q
  | deposit {r : Receipt} {used held : Amount} (kind : r.kind = .deposit)
    (covered : r.amount.value ≤ p.quote.walletBalance.value) (hu : p.quote.capUsed.add? r.amount = some used)
    (cap : used.value ≤ p.quote.depositCap.value) (hs : p.quote.userShares.add? r.shares = some held) :
    Leads p (.receipt r) (p.quote.deposited r.amount used held)
  | withdrawal {r : Receipt} {wallet : Amount} (kind : r.kind = .withdraw)
      (covered : r.amount.value ≤ p.userValue.value)
    (hw : p.quote.walletBalance.add? r.amount = some wallet) :
    Leads p (.receipt r) (p.quote.withdrawn r.amount r.shares wallet)

/-! ## What is taken and what is refused -/

theorem ofQuote_quote (p : Position) : ofQuote p.quote = .ok p := by
  have hs := p.sound
  have hv := p.value_eq
  unfold ofQuote
  split
  · simp_all
  · split
    · simp_all
    · simp_all

theorem rebuild_eq_ok_iff {q : Quote} {p : Position} : rebuild q = .ok p ↔ p.quote = q := by
  constructor
  · exact quote_of_rebuild
  · rintro rfl
    simp [rebuild, ofQuote_quote, Except.mapError]

theorem rebuild_eq_error_iff {q : Quote} : (∃ e, rebuild q = .error e) ↔ q.Unfit := by
  rw [← ofQuote_eq_error_iff]
  unfold rebuild
  cases ofQuote q with
  | error e => simp [Except.mapError]
  | ok p => simp [Except.mapError]

section
variable {p p' : Position}

theorem leads_deposit_iff {r : Receipt} (kind : r.kind = .deposit) {next : Quote} :
    p.Leads (.receipt r) next ↔ p.afterDeposit r.amount r.shares = .ok next := by
  have hd := p.afterDeposit_deposits r.amount r.shares
  constructor
  · intro h
    generalize p.afterDeposit r.amount r.shares = x at hd
    cases h with
    | withdrawal kind' => rw [kind] at kind'; cases kind'
    | deposit _ covered hu cap hs =>
      cases hd with
      | overdrawn h => exact absurd covered (not_le.mpr (lt_iff_value.mp h))
      | usedSpills _ h => rw [hu] at h; cases h
      | capped _ hu' h =>
        rw [hu] at hu'
        cases hu'
        exact absurd cap (not_le.mpr (lt_iff_value.mp h))
      | sharesSpill _ _ _ h => rw [hs] at h; cases h
      | passed _ hu' _ hs' =>
        rw [hu] at hu'
        rw [hs] at hs'
        cases hu'
        cases hs'
        rfl
  · intro h
    rw [h] at hd
    cases hd with
    | passed hw hu hc hs =>
      exact .deposit kind (not_lt.mp (lt_iff_value.not.mp hw)) hu (not_lt.mp (lt_iff_value.not.mp hc)) hs

theorem leads_withdrawal_iff {r : Receipt} (kind : r.kind = .withdraw) {next : Quote} :
    p.Leads (.receipt r) next ↔ p.afterWithdrawal r.amount r.shares = .ok next := by
  have hd := p.afterWithdrawal_withdraws r.amount r.shares
  constructor
  · intro h
    generalize p.afterWithdrawal r.amount r.shares = x at hd
    cases h with
    | deposit kind' => rw [kind] at kind'; cases kind'
    | withdrawal _ covered hw =>
      cases hd with
      | overdrawn h => exact absurd covered (not_le.mpr (lt_iff_value.mp h))
      | walletSpills _ h => rw [hw] at h; cases h
      | passed _ hw' =>
        rw [hw] at hw'
        cases hw'
        rfl
  · intro h
    rw [h] at hd
    cases hd with
    | passed hv hw => exact .withdrawal kind (not_lt.mp (lt_iff_value.not.mp hv)) hw

/-- The checks of a receipt, whatever its kind, and then the new position. -/
theorem apply_eq_bind (p : Position) (r : Receipt) :
    ∃ x : Except Rejection Quote, p.apply r = x.bind rebuild ∧
      ∀ next, p.Leads (.receipt r) next ↔ x = .ok next := by
  cases kind : r.kind with
  | deposit => exact ⟨_, apply_deposit p kind, fun _ => leads_deposit_iff kind⟩
  | withdraw => exact ⟨_, apply_withdrawal p kind, fun _ => leads_withdrawal_iff kind⟩

theorem apply_eq_ok_iff {r : Receipt} : p.apply r = .ok p' ↔ p.Leads (.receipt r) p'.quote := by
  obtain ⟨x, hx, leads⟩ := p.apply_eq_bind r
  rw [hx, leads]
  cases x with
  | error e => simp [Except.bind]
  | ok next =>
    simp only [Except.bind, Except.ok.injEq]
    rw [rebuild_eq_ok_iff, eq_comm]

theorem apply_eq_error_iff {r : Receipt} :
    (∃ e, p.apply r = .error e) ↔ ∀ next, p.Leads (.receipt r) next → next.Unfit := by
  obtain ⟨x, hx, leads⟩ := p.apply_eq_bind r
  simp only [hx, leads]
  cases x with
  | error e => simp [Except.bind]
  | ok next =>
    simp only [Except.bind, Except.ok.injEq, forall_eq']
    exact rebuild_eq_error_iff

theorem offer_eq_error_iff {o : Offer} :
    (∃ e, p.offer o = .error e) ↔ ∀ next, p.Leads o next → next.Unfit := by
  cases o with
  | receipt r =>
    rw [← apply_eq_error_iff]
    cases hr : p.apply r <;> simp [offer, hr, Except.mapError]
  | quote q =>
    have hq : (∀ next, p.Leads (.quote q) next → next.Unfit) ↔ q.Unfit := by
      constructor
      · intro h
        exact h q (.quote q)
      · rintro h next ⟨⟩
        exact h
    rw [hq, ← ofQuote_eq_error_iff]
    cases hr : ofQuote q <;> simp [offer, hr, Except.mapError]

theorem inOrder (p : Position) : p.InOrder where
  sound := p.sound
  consistent := p.consistent
  worth := p.value_eq
  room_nonneg := floored_nonneg ..
  room_le_cap := floored_le p.consistent.cap_nonneg p.consistent.used_nonneg

theorem sameTerms_of_apply {r : Receipt} (h : p.apply r = .ok p') : p.SameTerms p' := by
  have hl := apply_eq_ok_iff.mp h
  generalize hq : p'.quote = next at hl
  cases hl with
  | deposit => constructor <;> rw [hq] <;> rfl
  | withdrawal => constructor <;> rw [hq] <;> rfl

theorem after_of_error {o : Offer} {e : Refusal ⊕ Rejection} (h : p.offer o = .error e) : p.after o = p := by
  simp [after, h, Except.toOption]

theorem after_of_ok {o : Offer} (h : p.offer o = .ok p') : p.after o = p' := by
  simp [after, h, Except.toOption]

theorem after_quote_of_ok {q : Quote} (h : ofQuote q = .ok p') : p.after (.quote q) = p' := by
  apply after_of_ok
  simp [offer, h, Except.mapError]

theorem after_quote_of_error {q : Quote} {e : Refusal} (h : ofQuote q = .error e) :
    p.after (.quote q) = p := by
  apply after_of_error (e := .inl e)
  simp [offer, h, Except.mapError]

theorem after_receipt_of_ok {r : Receipt} (h : p.apply r = .ok p') : p.after (.receipt r) = p' := by
  apply after_of_ok
  simp [offer, h, Except.mapError]

theorem after_receipt_of_error {r : Receipt} {e : Rejection} (h : p.apply r = .error e) :
    p.after (.receipt r) = p := by
  apply after_of_error (e := .inr e)
  simp [offer, h, Except.mapError]

end

end Position

/-! ## The offers of a session -/

/-- The receipt that a confirmed action would have at the present position. -/
def State.receipt? (s : State) (signed : Signed) (now : Moment) : Option Receipt := do
  let amount ← signed.request.amount.toOption
  let p ← s.position
  let shares ← p.sharesFor amount
  return signed.receipt amount shares now

theorem State.fold_eq_of_receipt? {s : State} {p : Position} {signed : Signed} {now : Moment} {r : Receipt}
    (hp : s.position = some p) (hr : s.receipt? signed now = some r) :
    s.fold signed now = (p.apply r).map fun p' => (r, p') := by
  unfold receipt? at hr
  cases ha : signed.request.amount with
  | error e => simp [ha, Except.toOption] at hr
  | ok amount =>
    cases hs : p.sharesFor amount with
    | none => simp [ha, hp, hs, Except.toOption] at hr
    | some shares =>
      have he : signed.receipt amount shares now = r := by simpa [ha, hp, hs, Except.toOption] using hr
      simp only [fold, ha, hp, hs, he, bind, Except.bind]
      cases p.apply r <;> rfl

namespace Session

variable {s : Session} {p : Position}

theorem refreshQuote_position (hp : s.state.position = some p) (q : Quote) :
    (s.refreshQuote q).1.state.position = some (p.after (.quote q)) := by
  have h := State.replaceQuote_replaces s.state q
  unfold refreshQuote
  cases hq : Position.ofQuote q with
  | error e =>
    rw [Position.after_quote_of_error hq]
    have he : s.state.replaceQuote q = .error e := by simp [State.replaceQuote, hq, bind, Except.bind]
    rw [he]
    exact hp
  | ok p' =>
    rw [Position.after_quote_of_ok hq]
    generalize hr : s.state.replaceQuote q = r at h
    cases h with
    | refused e => simp [State.replaceQuote, hq, bind, Except.bind, pure, Except.pure] at hr
    | taken hp' _ position _ =>
      rw [hq] at hp'
      cases hp'
      simp only [attempt, commit_state]
      exact position

theorem settleAction_position (hp : s.state.position = some p) {signed : Signed} {now : Moment} {r : Receipt}
    (ha : s.state.Awaits signed) (hr : s.state.receipt? signed now = some r) :
    (s.settleAction signed now).1.state.position = some (p.after (.receipt r)) := by
  have hf := State.fold_eq_of_receipt? hp hr
  have hsub : Slot.isSubmitted (s.state.form signed.request.kind).slot.phase = true := ha.2
  unfold settleAction
  cases hx : p.apply r with
  | error reason =>
    rw [hx] at hf
    have he : s.state.settle signed now = .refused reason := by
      simp [State.settle, ha.1, hsub, hf, Except.map]
    rw [he, Position.after_receipt_of_error hx]
    exact (s.rejectAction_position _ _).trans hp
  | ok p' =>
    rw [hx] at hf
    have he := State.settle_eq_of_fold ha hf (Slot.settle_eq_ok_iff.mpr ⟨ha.1, hsub, rfl⟩)
    rw [he, Position.after_receipt_of_ok hx]
    simp only [finish, commit_state, State.cleared_position]
    exact State.withSlot_position ..

end Session

namespace Position

/-- After any history a position is in order. An offer is refused exactly when the quote that it leads to, if
any, makes no position, and then changes no number; a receipt that is taken keeps the terms. A session that
holds the position changes it in the same way. -/
theorem history_in_order {q : Quote} {p₀ : Position} (h : ofQuote q = .ok p₀) (offers : List Offer) :
    let p := p₀.history offers
    p₀.quote = q ∧ p.InOrder ∧
      (∀ o, (∃ e, p.offer o = .error e) ↔ ∀ next, p.Leads o next → next.Unfit) ∧
      (∀ o e, p.offer o = .error e → (p.after o).quote = p.quote ∧ (p.after o).userValue = p.userValue) ∧
      (∀ r p', p.apply r = .ok p' → p.after (.receipt r) = p' ∧ p.SameTerms p') ∧
      ∀ s : Session, s.state.position = some p →
        (∀ q', (s.refreshQuote q').1.state.position = some (p.after (.quote q'))) ∧
        ∀ signed now r, s.state.Awaits signed → s.state.receipt? signed now = some r →
          (s.settleAction signed now).1.state.position = some (p.after (.receipt r)) := by
  intro p
  refine ⟨quote_of_ofQuote h, p.inOrder, fun o => offer_eq_error_iff, ?_, ?_, ?_⟩
  · intro o e he
    rw [after_of_error he]
    exact ⟨rfl, rfl⟩
  · intro r p' hr
    exact ⟨after_receipt_of_ok hr, sameTerms_of_apply hr⟩
  · intro s hs
    refine ⟨Session.refreshQuote_position hs, ?_⟩
    intro signed now r ha hr
    exact Session.settleAction_position hs ha hr

/-- A quote that leaves room for a thousand. -/
def tight : Quote := { Simulation.sampleQuote with depositCap := Simulation.whole 201000 }

def opening : Position where
  quote := tight
  userValue := Simulation.scaled 12450525192 6
  sound := by decide +kernel
  value_eq := by decide +kernel

/-- A withdrawal of less than nothing with shares to its own liking, which is taken; then one that would break
the cap, a deposit of less than nothing that would leave less than no shares, one whose shares are out of
range, and a quote without a price. -/
def trials : List Offer :=
  [.receipt ⟨.withdraw, (Simulation.whole 5).neg, (Simulation.whole 7).neg, "0xd1", .epoch⟩,
   .receipt ⟨.withdraw, (Simulation.whole 1000).neg, zero, "0xd2", .epoch⟩,
   .receipt ⟨.deposit, (Simulation.whole 9000).neg, (Simulation.whole 20000).neg, "0xd3", .epoch⟩,
   .receipt ⟨.deposit, Simulation.whole 10, extreme false, "0xd4", .epoch⟩,
   .quote { tight with sharePrice := zero }]

theorem history_in_order_trials :
    (opening.history trials).InOrder ∧
      (opening.history trials).quote =
        { tight with
          capUsed := Simulation.whole 200005
          walletBalance := Simulation.whole 12445
          userShares := Simulation.scaled 1229047 2 } := by
  have h : ofQuote tight = .ok opening := by decide +kernel
  exact ⟨(history_in_order h trials).2.1, by decide +kernel⟩

end Position

end YieldVault
