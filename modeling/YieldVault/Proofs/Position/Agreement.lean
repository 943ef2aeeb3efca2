import YieldVault.Proofs.Position.Receipt
import YieldVault.Verdict

/-!
# Verdicts and settlements

A form and a settlement look at the same amount in different ways: the form compares it with what the
cap leaves, the settlement compares what would be used with the cap. Where neither of the two sums is
rounded they say the same, and an accepted amount fails to settle only where a number of the new position
is out of range.
-/

namespace YieldVault

open Amount

namespace Position

/-- The amount is more than its source holds. -/
def Overdrawn (p : Position) (r : Receipt) : Prop :=
  match r.kind with
  | .deposit => p.quote.walletBalance.value < r.amount.value
  | .withdraw => p.userValue.value < r.amount.value

/-- The amount is more than the cap leaves. -/
def OverCap (p : Position) (r : Receipt) : Prop :=
  r.kind = .deposit ∧ p.quote.depositCap.value - p.quote.capUsed.value < r.amount.value

/-- A number that the receipt leads to is out of range, and what is said about it. -/
inductive Spills (p : Position) (r : Receipt) : String → Prop
  | shares (kind : r.kind = .deposit) (h : Overflows (p.quote.userShares.value + r.shares.value)) :
    Spills p r "amount overflow"
  | worth {held : Amount} (kind : r.kind = .deposit) (sum : p.quote.userShares.add? r.shares = some held)
    (h : Overflows (held.value * p.quote.sharePrice.value)) : Spills p r (Refusal.worth held).describe
  | wallet (kind : r.kind = .withdraw) (h : Overflows (p.quote.walletBalance.value + r.amount.value)) :
    Spills p r "amount overflow"

/-- How the receipt of an action ends. -/
inductive Concludes (p : Position) (r : Receipt) : Except Rejection Position → Prop
  | insufficient (h : p.Overdrawn r) : Concludes p r (.error .insufficientFunds)
  | capped (h : ¬ p.Overdrawn r) (hc : p.OverCap r) : Concludes p r (.error .capExceeded)
  | spilled {text : String} (h : ¬ p.Overdrawn r) (fits : ¬ p.OverCap r) (spills : p.Spills r text) :
    Concludes p r (.error (.unknown text))
  | settled {p' : Position} (h : ¬ p.Overdrawn r) (fits : ¬ p.OverCap r) (none : ∀ text, ¬ p.Spills r text) :
    Concludes p r (.ok p')

theorem Spills.unique {p : Position} {r : Receipt} {t u : String} (h : p.Spills r t) (h' : p.Spills r u) :
    t = u := by
  have hsum := add?_fits p.quote.userShares r.shares
  cases h with
  | shares kind h =>
    cases h' with
    | worth _ sum _ => rw [hsum.eq_none_iff.mpr h] at sum; cases sum
    | _ => rfl
  | worth kind sum h =>
    cases h' with
    | shares _ h => rw [hsum.eq_none_iff.mpr h] at sum; cases sum
    | worth _ sum' _ => rw [sum] at sum'; cases sum'; rfl
    | wallet kind' _ => rw [kind] at kind'; cases kind'
  | wallet kind h =>
    cases h' with
    | worth kind' _ _ => rw [kind] at kind'; cases kind'
    | _ => rfl

section
variable {p : Position} {r : Receipt}

theorem overdrawn_iff_of_deposit (kind : r.kind = .deposit) :
    p.Overdrawn r ↔ p.quote.walletBalance < r.amount := by
  unfold Overdrawn
  rw [kind, lt_iff_value]

theorem overdrawn_iff_of_withdrawal (kind : r.kind = .withdraw) : p.Overdrawn r ↔ p.userValue < r.amount := by
  unfold Overdrawn
  rw [kind, lt_iff_value]

theorem overCap_iff_of_deposit (kind : r.kind = .deposit) :
    p.OverCap r ↔ p.quote.depositCap.value - p.quote.capUsed.value < r.amount.value := and_iff_right kind

theorem not_overCap_of_withdrawal (kind : r.kind = .withdraw) : ¬ p.OverCap r := by
  intro h
  have hk := h.1
  rw [kind] at hk
  cases hk

end

/-! ## Settlements -/

theorem deposit_concludes (p : Position) {r : Receipt} (kind : r.kind = .deposit)
    (ha : r.amount.isPositive = true) (hs : p.sharesFor r.amount = some r.shares)
    (sum : Representable (p.quote.capUsed.value + r.amount.value)) :
    p.Concludes r (p.apply r) := by
  have hover := overdrawn_iff_of_deposit (p := p) kind
  have hcap : ∀ {used : Amount}, p.quote.capUsed.add? r.amount = some used →
      (p.OverCap r ↔ p.quote.depositCap < used) := by
    intro used hu
    have hv := ((add?_fits ..).nearest hu).eq sum
    rw [overCap_iff_of_deposit kind, lt_iff_value, hv, sub_lt_iff_lt_add']
  have hdep := p.afterDeposit_deposits r.amount r.shares
  rw [apply_deposit p kind]
  revert hdep
  generalize p.afterDeposit r.amount r.shares = next
  intro hdep
  cases hdep with
  | overdrawn h => exact .insufficient (hover.mpr h)
  | usedSpills _ h =>
    obtain ⟨a, ha⟩ := sum
    rw [(add?_fits ..).eq_none_iff, ← ha] at h
    exact absurd h a.not_overflows_value
  | capped hw hu h => exact .capped (hover.not.mpr hw) ((hcap hu).mpr h)
  | sharesSpill hw hu hc h =>
    exact .spilled (hover.not.mpr hw) ((hcap hu).not.mpr hc) (.shares kind ((add?_fits ..).eq_none_iff.mp h))
  | passed hw hu hc hh =>
    have hnew :=
      deposited_consistent p.consistent (isPositive_iff.mp ha).le (sharesFor_nonneg ha hs) hw hu hc hh
    obtain ⟨ho, he⟩ | ⟨ho, p', he⟩ := rebuild_of_consistent hnew
    · rw [Except.bind, he]
      exact .spilled (hover.not.mpr hw) ((hcap hu).not.mpr hc) (.worth kind hh ho)
    · rw [Except.bind, he]
      refine .settled (hover.not.mpr hw) ((hcap hu).not.mpr hc) fun text spills => ?_
      cases spills with
      | shares _ h => rw [(add?_fits ..).eq_none_iff.mpr h] at hh; cases hh
      | worth _ hh' h =>
        rw [hh] at hh'
        cases hh'
        exact ho h
      | wallet kind' _ => rw [kind] at kind'; cases kind'

theorem withdrawal_concludes (p : Position) {r : Receipt} (kind : r.kind = .withdraw)
    (ha : r.amount.isPositive = true) (hs : p.sharesFor r.amount = some r.shares) :
    p.Concludes r (p.apply r) := by
  have hover := overdrawn_iff_of_withdrawal (p := p) kind
  have hcap := not_overCap_of_withdrawal (p := p) kind
  have hwith := p.afterWithdrawal_withdraws r.amount r.shares
  rw [apply_withdrawal p kind]
  revert hwith
  generalize p.afterWithdrawal r.amount r.shares = next
  intro hwith
  cases hwith with
  | overdrawn h => exact .insufficient (hover.mpr h)
  | walletSpills hv h =>
    exact .spilled (hover.not.mpr hv) hcap (.wallet kind ((add?_fits ..).eq_none_iff.mp h))
  | passed hv hw =>
    obtain ⟨p', he⟩ := rebuild_withdrawn p (isPositive_iff.mp ha).le (sharesFor_nonneg ha hs) hw
    rw [Except.bind, he]
    refine .settled (hover.not.mpr hv) hcap fun text spills => ?_
    cases spills with
    | shares kind' _ => rw [kind] at kind'; cases kind'
    | worth kind' _ _ => rw [kind] at kind'; cases kind'
    | wallet _ h => rw [(add?_fits ..).eq_none_iff.mpr h] at hw; cases hw

/-! ## Verdicts -/

theorem remainingCap_value (p : Position)
    (diff : Representable (p.quote.depositCap.value - p.quote.capUsed.value)) :
    p.remainingCap.value = p.quote.depositCap.value - p.quote.capUsed.value := by
  have hc := p.consistent
  unfold remainingCap
  rw [value_max, value_zero, (saturatingSub_nearest hc.cap_nonneg hc.used_nonneg).eq diff]
  exact max_eq_left (sub_nonneg.mpr hc.used_le_cap)

theorem objection_severity (p : Position) {r : Receipt}
    (hmin : r.kind = .deposit → p.quote.minDeposit ≤ r.amount)
    (diff : r.kind = .deposit → Representable (p.quote.depositCap.value - p.quote.capUsed.value)) :
    (p.Overdrawn r ∧ (Verdict.objection? r.kind r.amount p).map (·.severity) = some .error) ∨
      (¬ p.Overdrawn r ∧ p.OverCap r ∧
        (Verdict.objection? r.kind r.amount p).map (·.severity) = some .warning) ∨
      (¬ p.Overdrawn r ∧ ¬ p.OverCap r ∧ (Verdict.objection? r.kind r.amount p).map (·.severity) = none) := by
  cases kind : r.kind with
  | deposit =>
    have hm : ¬ r.amount < p.quote.minDeposit := by
      rw [lt_iff_value, not_lt]
      exact le_iff_value.mp (hmin kind)
    have hcap : p.OverCap r ↔ p.remainingCap < r.amount := by
      rw [overCap_iff_of_deposit kind, lt_iff_value, remainingCap_value p (diff kind)]
    unfold Verdict.objection?
    simp only [if_neg hm]
    rw [overdrawn_iff_of_deposit kind, hcap]
    by_cases hw : p.quote.walletBalance < r.amount
    · exact .inl ⟨hw, by rw [if_pos hw]; rfl⟩
    · rw [if_neg hw]
      by_cases hc : p.remainingCap < r.amount
      · exact .inr (.inl ⟨hw, hc, by rw [if_pos hc]; rfl⟩)
      · exact .inr (.inr ⟨hw, hc, by rw [if_neg hc]; rfl⟩)
  | withdraw =>
    unfold Verdict.objection?
    rw [overdrawn_iff_of_withdrawal kind]
    by_cases hv : p.userValue < r.amount
    · exact .inl ⟨hv, by simp only [if_pos hv]; rfl⟩
    · exact .inr (.inr ⟨hv, not_overCap_of_withdrawal kind, by simp only [if_neg hv]; rfl⟩)

section
variable {p : Position} {a s : Amount} (kind : Kind)

theorem judge_severity (ha : a.isPositive = true) (hs : p.sharesFor a = some s) :
    (Verdict.judge kind (.value a) p).severity =
      ((Verdict.objection? kind a p).map (·.severity)).getD .plain := by
  unfold Verdict.judge
  simp only [if_pos ha, hs]
  cases Verdict.objection? kind a p <;> rfl

theorem judge_isValid (ha : a.isPositive = true) (hs : p.sharesFor a = some s) :
    (Verdict.judge kind (.value a) p).isValid = ((Verdict.objection? kind a p).map (·.severity)).isNone := by
  unfold Verdict.judge
  simp only [if_pos ha, hs]
  cases Verdict.objection? kind a p <;> rfl

end

/-- An amount that a form accepts is one that settles, and what the form says is the rejection of one
that does not. -/
theorem verdict_foretells_settlement (p : Position) (r : Receipt) (ha : r.amount.isPositive = true)
    (hmin : r.kind = .deposit → p.quote.minDeposit ≤ r.amount) (hs : p.sharesFor r.amount = some r.shares)
    (diff : r.kind = .deposit → Representable (p.quote.depositCap.value - p.quote.capUsed.value))
    (sum : r.kind = .deposit → Representable (p.quote.capUsed.value + r.amount.value)) :
    let v := Verdict.judge r.kind (.value r.amount) p
    (p.apply r = .error .insufficientFunds ↔ v.severity = .error) ∧
      (p.apply r = .error .capExceeded ↔ v.severity = .warning) ∧
      (v.isValid = true ↔ (∃ p', p.apply r = .ok p') ∨ ∃ text, p.apply r = .error (.unknown text)) ∧
      (v.isValid = true → ∀ text, p.apply r = .error (.unknown text) ↔ p.Spills r text) := by
  intro v
  have hsev : v.severity = _ := judge_severity r.kind ha hs
  have hval : v.isValid = _ := judge_isValid r.kind ha hs
  have hout : p.Concludes r (p.apply r) := by
    cases kind : r.kind with
    | deposit => exact deposit_concludes p kind ha hs (sum kind)
    | withdraw => exact withdrawal_concludes p kind ha hs
  rw [hsev, hval]
  generalize p.apply r = result at hout
  obtain ⟨h, ho⟩ | ⟨h, hover, ho⟩ | ⟨h, fits, ho⟩ := objection_severity p hmin diff
  · rw [ho]
    cases hout with
    | insufficient _ => simp
    | capped h' _ => exact absurd h h'
    | spilled h' _ _ => exact absurd h h'
    | settled h' _ _ => exact absurd h h'
  · rw [ho]
    cases hout with
    | insufficient h' => exact absurd h' h
    | capped _ _ => simp
    | spilled _ fits _ => exact absurd hover fits
    | settled _ fits _ => exact absurd hover fits
  · rw [ho]
    cases hout with
    | insufficient h' => exact absurd h' h
    | capped _ hover => exact absurd hover fits
    | spilled _ _ spills =>
      refine ⟨by simp, by simp, by simp, fun _ text => ⟨?_, fun h' => ?_⟩⟩
      · rintro ⟨⟩
        exact spills
      · rw [spills.unique h']
    | settled _ _ none => exact ⟨by simp, by simp, by simp, fun _ text => iff_of_false (by simp) (none text)⟩

/-- A position whose cap leaves `250.000000001`. -/
def brink : Position where
  quote :=
    { sharePrice := steps 1034200000 (by decide)
      depositCap := steps 5000000000000000 (by decide)
      capUsed := steps 4999749999999999 (by decide)
      minDeposit := steps 2000000000 (by decide)
      walletBalance := steps 900000000000 (by decide)
      userShares := steps 200000000000 (by decide) }
  userValue := steps 206840000000 (by decide)
  sound := by decide +kernel
  value_eq := by decide +kernel

/-- The deposit of all that the cap of `brink` leaves. -/
def brinkDeposit : Receipt :=
  ⟨.deposit, steps 250000000001 (by decide), steps 241732740283 (by decide), "0xb1", .epoch⟩

/-- One step more. -/
def brinkExcess : Receipt :=
  ⟨.deposit, steps 250000000002 (by decide), steps 241732740284 (by decide), "0xb2", .epoch⟩

theorem verdict_foretells_settlement_brink :
    ((∃ p, brink.apply brinkDeposit = .ok p) ∨ ∃ text, brink.apply brinkDeposit = .error (.unknown text)) ∧
      brink.apply brinkExcess = .error .capExceeded := by
  have diff : Representable (brink.quote.depositCap.value - brink.quote.capUsed.value) :=
    ⟨brinkDeposit.amount, by norm_num [brink, brinkDeposit, steps_value]⟩
  have all := verdict_foretells_settlement brink brinkDeposit (by decide) (fun _ => by decide +kernel)
    (by decide +kernel) (fun _ => diff)
    (fun _ => ⟨brink.quote.depositCap, by norm_num [brink, brinkDeposit, steps_value]⟩)
  have excess := verdict_foretells_settlement brink brinkExcess (by decide) (fun _ => by decide +kernel)
    (by decide +kernel) (fun _ => diff)
    (fun _ => ⟨steps 5000000000000001 (by decide), by norm_num [brink, brinkExcess, steps_value]⟩)
  exact ⟨all.2.2.1.mp (by decide +kernel), excess.2.1.mpr (by decide +kernel)⟩

end Position

end YieldVault
