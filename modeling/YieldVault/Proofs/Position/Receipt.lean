import YieldVault.Position
import YieldVault.Proofs.Amount.Arithmetic
import YieldVault.Proofs.Amount.Quotient

/-!
# Receipts folded into a position

A position is a consistent quote whose shares have a worth in range. Folding in a receipt moves the
amount and the shares between the fields of the quote, and the position is rebuilt from the result.
-/

namespace YieldVault

open Amount

structure Quote.Consistent (q : Quote) : Prop where
  price_pos : 0 < q.sharePrice.value
  cap_nonneg : 0 ≤ q.depositCap.value
  used_nonneg : 0 ≤ q.capUsed.value
  min_nonneg : 0 ≤ q.minDeposit.value
  wallet_nonneg : 0 ≤ q.walletBalance.value
  shares_nonneg : 0 ≤ q.userShares.value
  used_le_cap : q.capUsed.value ≤ q.depositCap.value

/-- A quote that makes no position: it is inconsistent, or its shares are worth more than an amount can be. -/
def Quote.Unfit (q : Quote) : Prop := ¬ q.Consistent ∨ Overflows (q.userShares.value * q.sharePrice.value)

/-- The quote after a deposit, with what then counts against the cap and the shares then held. -/
def Quote.deposited (q : Quote) (amount used held : Amount) : Quote :=
  { q with userShares := held, walletBalance := q.walletBalance.saturatingSub amount, capUsed := used }

/-- The quote after a withdrawal, with what the wallet then holds. -/
def Quote.withdrawn (q : Quote) (amount shares wallet : Amount) : Quote :=
  { q with
    userShares := max (q.userShares.saturatingSub shares) zero
    walletBalance := wallet
    capUsed := max (q.capUsed.saturatingSub amount) zero }

theorem Quote.forall_holdings {q : Quote} {P : Amount → Prop} :
    (∀ h ∈ q.holdings, P h.2) ↔
      P q.depositCap ∧ P q.capUsed ∧ P q.minDeposit ∧ P q.walletBalance ∧ P q.userShares := by
  simp only [holdings, List.forall_mem_cons, List.not_mem_nil, false_imp_iff, implies_true, and_true]

theorem Quote.defect?_eq_none_iff {q : Quote} : q.defect? = none ↔ q.Consistent := by
  have hneg : q.holdings.find? (·.2.isNegative) = none ↔ ∀ h ∈ q.holdings, ¬ h.2.value < 0 := by
    rw [List.find?_eq_none]
    exact forall₂_congr fun h _ => not_congr isNegative_iff
  rw [forall_holdings (P := fun a => ¬ a.value < 0)] at hneg
  simp only [not_lt] at hneg
  unfold defect?
  by_cases hp : q.sharePrice.isPositive = true
  · have hp' := isPositive_iff.mp hp
    rw [if_neg (by simp [hp])]
    cases hf : q.holdings.find? (·.2.isNegative) with
    | some h =>
      refine iff_of_false (by simp) fun hc => ?_
      rw [hneg.mpr ⟨hc.cap_nonneg, hc.used_nonneg, hc.min_nonneg, hc.wallet_nonneg, hc.shares_nonneg⟩] at hf
      cases hf
    | none =>
      obtain ⟨hcap, hused, hmin, hwallet, hshares⟩ := hneg.mp hf
      by_cases hc : q.depositCap < q.capUsed
      · rw [if_pos hc]
        exact iff_of_false (by simp) fun h => absurd h.used_le_cap (not_le.mpr (lt_iff_value.mp hc))
      · rw [if_neg hc]
        exact iff_of_true rfl ⟨hp', hcap, hused, hmin, hwallet, hshares,
          not_lt.mp fun h => hc (lt_iff_value.mpr h)⟩
  · rw [if_pos (by simp [hp])]
    exact iff_of_false (by simp) fun h => hp (isPositive_iff.mpr h.price_pos)

/-- An amount in steps of the last digit kept. -/
def steps (n : Nat) (h : n < bound) : Amount := ⟨false, n, places, h, by decide⟩

theorem steps_value (n : Nat) (h : n < bound) : (steps n h).value = n / 10 ^ 9 := by
  simp [steps, value, decimal, places]

namespace Position

theorem consistent (p : Position) : p.quote.Consistent := Quote.defect?_eq_none_iff.mp p.sound

theorem userValue_rounded (p : Position) :
    Rounded (p.quote.userShares.value * p.quote.sharePrice.value) p.userValue :=
  mul?_rounded p.value_eq

theorem sharesFor_rounded {p : Position} {a s : Amount} (ha : a.isPositive = true)
    (h : p.sharesFor a = some s) :
    Rounded (a.value / p.quote.sharePrice.value) s := by
  unfold sharesFor at h
  rw [if_pos ha] at h
  exact div?_rounded h

theorem sharesFor_nonneg {p : Position} {a s : Amount} (ha : a.isPositive = true)
    (h : p.sharesFor a = some s) :
    0 ≤ s.value :=
  (sharesFor_rounded ha h).nonneg (div_nonneg (isPositive_iff.mp ha).le p.consistent.price_pos.le)

-- the shares are worth the amount but for the rounding of their number
theorem sharesFor_error {p : Position} {a s : Amount} (ha : a.isPositive = true) (h : p.sharesFor a = some s)
    (hs : s.value ≤ 7 * 10 ^ 18) :
    |s.value * p.quote.sharePrice.value - a.value| ≤ 11 / 2 / 10 ^ 10 * p.quote.sharePrice.value := by
  have hp := p.consistent.price_pos
  have he := (sharesFor_rounded ha h).error_le (by rwa [abs_of_nonneg (sharesFor_nonneg ha h)])
  have hfac : s.value * p.quote.sharePrice.value - a.value =
      (s.value - a.value / p.quote.sharePrice.value) * p.quote.sharePrice.value := by
    rw [sub_mul, div_mul_cancel₀ _ hp.ne']
  rw [hfac, abs_mul, abs_of_pos hp]
  exact mul_le_mul_of_nonneg_right he hp.le

/-! ## Positions from quotes -/

theorem ofQuote_eq_error_iff {q : Quote} : (∃ e, ofQuote q = .error e) ↔ q.Unfit := by
  unfold Quote.Unfit
  rw [← Quote.defect?_eq_none_iff, ← mul?_eq_none_iff]
  unfold ofQuote
  split
  · rename_i d hd
    exact iff_of_true ⟨_, rfl⟩ (.inl (by simp [hd]))
  · rename_i hd
    split
    · rename_i v hv
      simp [hd, hv]
    · rename_i hv
      exact iff_of_true ⟨_, rfl⟩ (.inr hv)

def rebuild (q : Quote) : Except Rejection Position :=
  (ofQuote q).mapError fun refusal => .unknown refusal.describe

theorem quote_of_rebuild {q : Quote} {p : Position} (h : rebuild q = .ok p) : p.quote = q := by
  unfold rebuild at h
  cases hq : ofQuote q with
  | error e => rw [hq] at h; cases h
  | ok p' =>
    rw [hq] at h
    cases h
    exact quote_of_ofQuote hq

/-- A consistent quote is turned down only for the worth of its shares. -/
theorem rebuild_of_consistent {q : Quote} (h : q.Consistent) :
    (Overflows (q.userShares.value * q.sharePrice.value) ∧
        rebuild q = .error (.unknown (Refusal.worth q.userShares).describe)) ∨
      (¬ Overflows (q.userShares.value * q.sharePrice.value) ∧ ∃ p, rebuild q = .ok p) := by
  have hd := Quote.defect?_eq_none_iff.mpr h
  rw [← mul?_eq_none_iff]
  unfold rebuild ofQuote
  split
  · rename_i d hq
    rw [hd] at hq
    cases hq
  · split
    · rename_i v hv
      exact .inr ⟨by simp [hv], _, rfl⟩
    · rename_i hv
      exact .inl ⟨hv, rfl⟩

/-! ## Receipts -/

theorem apply_deposit (p : Position) {r : Receipt} (h : r.kind = .deposit) :
    p.apply r = (p.afterDeposit r.amount r.shares).bind rebuild := by
  unfold apply
  rw [h]
  rfl

theorem apply_withdrawal (p : Position) {r : Receipt} (h : r.kind = .withdraw) :
    p.apply r = (p.afterWithdrawal r.amount r.shares).bind rebuild := by
  unfold apply
  rw [h]
  rfl

/-- The checks of a deposit in their order, and what passes them all. -/
inductive Deposits (p : Position) (amount shares : Amount) : Except Rejection Quote → Prop
  | overdrawn (h : p.quote.walletBalance < amount) : Deposits p amount shares (.error .insufficientFunds)
  | usedSpills (hw : ¬ p.quote.walletBalance < amount) (h : p.quote.capUsed.add? amount = none) :
    Deposits p amount shares (.error (.unknown "amount overflow"))
  | capped {used : Amount} (hw : ¬ p.quote.walletBalance < amount)
      (hu : p.quote.capUsed.add? amount = some used)
    (h : p.quote.depositCap < used) : Deposits p amount shares (.error .capExceeded)
  | sharesSpill {used : Amount} (hw : ¬ p.quote.walletBalance < amount)
    (hu : p.quote.capUsed.add? amount = some used) (hc : ¬ p.quote.depositCap < used)
    (h : p.quote.userShares.add? shares = none) :
    Deposits p amount shares (.error (.unknown "amount overflow"))
  | passed {used held : Amount} (hw : ¬ p.quote.walletBalance < amount)
    (hu : p.quote.capUsed.add? amount = some used) (hc : ¬ p.quote.depositCap < used)
    (hs : p.quote.userShares.add? shares = some held) :
    Deposits p amount shares (.ok (p.quote.deposited amount used held))

theorem afterDeposit_deposits (p : Position) (amount shares : Amount) :
    p.Deposits amount shares (p.afterDeposit amount shares) := by
  unfold afterDeposit
  by_cases hw : p.quote.walletBalance < amount
  · rw [if_pos hw]
    exact .overdrawn hw
  · rw [if_neg hw]
    cases hu : p.quote.capUsed.add? amount with
    | none => exact .usedSpills hw hu
    | some used =>
      by_cases hc : p.quote.depositCap < used
      · simp only [inRange, bind, Except.bind, if_pos hc]
        exact .capped hw hu hc
      · simp only [inRange, bind, Except.bind, if_neg hc]
        cases hs : p.quote.userShares.add? shares with
        | none => exact .sharesSpill hw hu hc hs
        | some held => exact .passed hw hu hc hs

inductive Withdraws (p : Position) (amount shares : Amount) : Except Rejection Quote → Prop
  | overdrawn (h : p.userValue < amount) : Withdraws p amount shares (.error .insufficientFunds)
  | walletSpills (hv : ¬ p.userValue < amount) (h : p.quote.walletBalance.add? amount = none) :
    Withdraws p amount shares (.error (.unknown "amount overflow"))
  | passed {wallet : Amount} (hv : ¬ p.userValue < amount)
      (hw : p.quote.walletBalance.add? amount = some wallet) :
    Withdraws p amount shares (.ok (p.quote.withdrawn amount shares wallet))

theorem afterWithdrawal_withdraws (p : Position) (amount shares : Amount) :
    p.Withdraws amount shares (p.afterWithdrawal amount shares) := by
  unfold afterWithdrawal
  by_cases hv : p.userValue < amount
  · rw [if_pos hv]
    exact .overdrawn hv
  · rw [if_neg hv]
    cases hw : p.quote.walletBalance.add? amount with
    | none => exact .walletSpills hv hw
    | some wallet => exact .passed hv hw

theorem afterWithdrawal_eq_ok {p : Position} {amount wallet : Amount} (shares : Amount)
    (hv : ¬ p.userValue < amount) (hw : p.quote.walletBalance.add? amount = some wallet) :
    p.afterWithdrawal amount shares = .ok (p.quote.withdrawn amount shares wallet) := by
  unfold afterWithdrawal
  rw [if_neg hv, hw]
  rfl

theorem deposited_of_apply {p p' : Position} {r : Receipt} (kind : r.kind = .deposit)
    (h : p.apply r = .ok p') :
    ∃ used held, ¬ p.quote.walletBalance < r.amount ∧ p.quote.userShares.add? r.shares = some held ∧
      p'.quote = p.quote.deposited r.amount used held := by
  have hdep := p.afterDeposit_deposits r.amount r.shares
  rw [apply_deposit p kind] at h
  cases hd : p.afterDeposit r.amount r.shares with
  | error e => rw [hd] at h; cases h
  | ok q =>
    rw [hd] at h hdep
    cases hdep with
    | passed hw _ _ hs => exact ⟨_, _, hw, hs, quote_of_rebuild h⟩

theorem withdrawn_of_apply {p p' : Position} {r : Receipt} (kind : r.kind = .withdraw)
    (h : p.apply r = .ok p') :
    ∃ wallet, ¬ p.userValue < r.amount ∧ p.quote.walletBalance.add? r.amount = some wallet ∧
      p'.quote = p.quote.withdrawn r.amount r.shares wallet := by
  have hwith := p.afterWithdrawal_withdraws r.amount r.shares
  rw [apply_withdrawal p kind] at h
  cases hd : p.afterWithdrawal r.amount r.shares with
  | error e => rw [hd] at h; cases h
  | ok q =>
    rw [hd] at h hwith
    cases hwith with
    | passed hv hw => exact ⟨_, hv, hw, quote_of_rebuild h⟩

/-! ## The new quote -/

theorem deposited_consistent {q : Quote} {amount shares used held : Amount} (h : q.Consistent)
    (ha : 0 ≤ amount.value) (hs : 0 ≤ shares.value) (hw : ¬ q.walletBalance < amount)
    (hu : q.capUsed.add? amount = some used) (hc : ¬ q.depositCap < used)
    (hh : q.userShares.add? shares = some held) :
    (q.deposited amount used held).Consistent := by
  have hw' : amount.value ≤ q.walletBalance.value := not_lt.mp (lt_iff_value.not.mp hw)
  exact {
    price_pos := h.price_pos
    cap_nonneg := h.cap_nonneg
    used_nonneg := ((add?_fits ..).nearest hu).nonneg (add_nonneg h.used_nonneg ha)
    min_nonneg := h.min_nonneg
    wallet_nonneg := (saturatingSub_nearest h.wallet_nonneg ha).nonneg (sub_nonneg.mpr hw')
    shares_nonneg := ((add?_fits ..).nearest hh).nonneg (add_nonneg h.shares_nonneg hs)
    used_le_cap := not_lt.mp (lt_iff_value.not.mp hc) }

theorem floored_le {a b : Amount} (ha : 0 ≤ a.value) (hb : 0 ≤ b.value) :
    (max (a.saturatingSub b) zero).value ≤ a.value := by
  rw [value_max, value_zero]
  exact max_le ((saturatingSub_nearest ha hb).le_value (sub_le_self _ hb)) ha

theorem floored_nonneg (a b : Amount) : 0 ≤ (max (a.saturatingSub b) zero).value := by
  rw [value_max, value_zero]
  exact le_max_right ..

theorem withdrawn_consistent {q : Quote} {amount wallet : Amount} (shares : Amount) (h : q.Consistent)
    (ha : 0 ≤ amount.value) (hw : q.walletBalance.add? amount = some wallet) :
    (q.withdrawn amount shares wallet).Consistent :=
  { price_pos := h.price_pos
    cap_nonneg := h.cap_nonneg
    used_nonneg := floored_nonneg ..
    min_nonneg := h.min_nonneg
    wallet_nonneg := ((add?_fits ..).nearest hw).nonneg (add_nonneg h.wallet_nonneg ha)
    shares_nonneg := floored_nonneg ..
    used_le_cap := (floored_le h.used_nonneg ha).trans h.used_le_cap }

/-- No more shares than before are worth no more than before. -/
theorem rebuild_withdrawn (p : Position) {amount shares wallet : Amount} (ha : 0 ≤ amount.value)
    (hs : 0 ≤ shares.value) (hw : p.quote.walletBalance.add? amount = some wallet) :
    ∃ p', rebuild (p.quote.withdrawn amount shares wallet) = .ok p' := by
  have hc := p.consistent
  have hnew := withdrawn_consistent shares hc ha hw
  obtain ⟨ho, _⟩ | ⟨_, hok⟩ := rebuild_of_consistent hnew
  · have hworth : ¬ Overflows (p.quote.userShares.value * p.quote.sharePrice.value) := by
      rw [← mul?_eq_none_iff, p.value_eq]
      simp
    refine absurd (ho.mono ?_) hworth
    rw [abs_mul, abs_mul]
    refine mul_le_mul_of_nonneg_right ?_ (abs_nonneg _)
    rw [abs_of_nonneg hnew.shares_nonneg, abs_of_nonneg hc.shares_nonneg]
    exact floored_le hc.shares_nonneg hs
  · exact hok

end Position

end YieldVault
