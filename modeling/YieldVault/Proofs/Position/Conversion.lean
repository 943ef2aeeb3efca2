import YieldVault.Proofs.Amount.Order
import YieldVault.Proofs.Position.Conservation

/-!
# Amounts, shares and back

Either conversion errs by half a step of the last digit kept, and by half a unit of the longest decimal
before that. The error of the first is carried through the second: shares are off by half a step each
worth the price, an amount by half a step that buys one over the price. So the errors of a way there and
back, and what is left after a full exit, depend on the price alone and not on how much is converted. And
either conversion keeps the order: more is never worth less, and less is in range where more is.
-/

namespace YieldVault

open Amount

namespace Position

variable {p : Position} {amount shares : Amount}

theorem amountFor_rounded (hs : 0 ≤ shares.value) (h : p.amountFor shares = some amount) :
    Rounded (shares.value * p.quote.sharePrice.value) amount := by
  unfold amountFor at h
  by_cases hpos : shares.isPositive = true
  · rw [if_pos hpos] at h
    exact mul?_rounded h
  · rw [if_neg hpos] at h
    cases h
    apply rounded_zero
    rw [value_eq_zero_of_not_isPositive hpos hs, zero_mul]

theorem sharesFor_rounded_of_nonneg (ha : 0 ≤ amount.value) (h : p.sharesFor amount = some shares) :
    Rounded (amount.value / p.quote.sharePrice.value) shares := by
  by_cases hpos : amount.isPositive = true
  · exact sharesFor_rounded hpos h
  · unfold sharesFor at h
    rw [if_neg hpos] at h
    cases h
    apply rounded_zero
    rw [value_eq_zero_of_not_isPositive hpos ha, zero_div]

/-- Only a quotient out of range has no shares. -/
theorem sharesFor_isSome (h : ¬ Overflows (amount.value / p.quote.sharePrice.value)) :
    ∃ shares, p.sharesFor amount = some shares := by
  have hz : p.quote.sharePrice.isZero = false := by
    rw [← Bool.not_eq_true, isZero_iff]
    exact p.consistent.price_pos.ne'
  unfold sharesFor
  by_cases hpos : amount.isPositive = true
  · rw [if_pos hpos, ← Option.ne_none_iff_exists']
    intro hnone
    exact h ((div?_eq_none_iff hz).mp hnone)
  · rw [if_neg hpos]
    exact ⟨zero, rfl⟩

/-! ## There and back -/

/-- An amount turned into shares and back moves by no more than the two roundings, the first at the price. -/
theorem conversion_drift_bounded {back : Amount} (positive : amount.isPositive = true)
    (there : p.sharesFor amount = some shares) (again : p.amountFor shares = some back)
    (shares_le : shares.value ≤ 7 * 10 ^ 18) (back_le : back.value ≤ 7 * 10 ^ 18) :
    |back.value - amount.value| ≤ 6 / 10 ^ 10 * (1 + p.quote.sharePrice.value) := by
  have hp := p.consistent.price_pos
  have hs := sharesFor_nonneg positive there
  have hback := amountFor_rounded hs again
  have hb := hback.nonneg (mul_nonneg hs hp.le)
  have second := hback.error_le (by rwa [abs_of_nonneg hb])
  calc |back.value - amount.value|
      ≤ |back.value - shares.value * p.quote.sharePrice.value| +
          |shares.value * p.quote.sharePrice.value - amount.value| := abs_sub_le ..
    _ ≤ 11 / 2 / 10 ^ 10 + 11 / 2 / 10 ^ 10 * p.quote.sharePrice.value :=
        add_le_add second (sharesFor_error positive there shares_le)
    _ ≤ 6 / 10 ^ 10 * (1 + p.quote.sharePrice.value) := by linarith

/-- Shares bought for a hundred at the price of `7`, their number rounded up. -/
def sevenths : Position where
  quote := ⟨steps 7000000000 (by decide), ampleCap, zero, zero, zero, steps 14285714286 (by decide)⟩
  userValue := steps 100000000002 (by decide)
  sound := by decide +kernel
  value_eq := by decide +kernel

theorem conversion_drift_bounded_sevenths :
    sevenths.sharesFor (steps 100000000000 (by decide)) = some (steps 14285714286 (by decide)) ∧
      sevenths.amountFor (steps 14285714286 (by decide)) = some (steps 100000000002 (by decide)) ∧
      |(steps 100000000002 (by decide)).value - (steps 100000000000 (by decide)).value| ≤
        6 / 10 ^ 10 * (1 + sevenths.quote.sharePrice.value) := by
  have there : sevenths.sharesFor (steps 100000000000 (by decide)) =
      some (steps 14285714286 (by decide)) := by
    decide +kernel
  have again : sevenths.amountFor (steps 14285714286 (by decide)) =
      some (steps 100000000002 (by decide)) := by
    decide +kernel
  refine ⟨there, again, conversion_drift_bounded (by decide) there again ?_ ?_⟩
  · norm_num [steps_value]
  · norm_num [steps_value]

/-! ## Order -/

/-- Amounts above zero are taken at a rate and rounded, all others to nothing. -/
structure Converts (convert : Amount → Option Amount) (rate : ℚ) : Prop where
  rate_pos : 0 < rate
  nothing : ∀ {a : Amount}, a.value ≤ 0 → convert a = some zero
  rounded : ∀ {a c : Amount}, 0 < a.value → convert a = some c → Rounded (a.value * rate) c
  range : ∀ {a : Amount}, 0 < a.value → convert a = none → Overflows (a.value * rate)

theorem Converts.nonneg {convert : Amount → Option Amount} {rate : ℚ} (h : Converts convert rate)
    {a c : Amount} (hc : convert a = some c) : 0 ≤ c.value := by
  by_cases ha : 0 < a.value
  · exact (h.rounded ha hc).nonneg (mul_pos ha h.rate_pos).le
  · rw [h.nothing (not_lt.mp ha)] at hc
    cases hc
    simp

theorem Converts.mono {convert : Amount → Option Amount} {rate : ℚ} (h : Converts convert rate)
    {a b y : Amount} (hab : a ≤ b) (hb : convert b = some y) :
    ∃ x, convert a = some x ∧ zero ≤ x ∧ x ≤ y := by
  rw [le_iff_value] at hab
  simp only [le_iff_value, value_zero]
  by_cases ha : 0 < a.value
  · have hle := mul_le_mul_of_nonneg_right hab h.rate_pos.le
    have h₀ := (mul_pos ha h.rate_pos).le
    have hy := h.rounded (ha.trans_le hab) hb
    cases hx : convert a with
    | none =>
      -- the larger one would be out of range too
      refine absurd ((h.range ha hx).mono ?_) hy.inRange
      rw [abs_of_nonneg h₀, abs_of_nonneg (h₀.trans hle)]
      exact hle
    | some x => exact ⟨x, rfl, h.nonneg hx, (h.rounded ha hx).mono hy h₀ hle⟩
  · exact ⟨zero, h.nothing (not_lt.mp ha), by simp, by simpa using h.nonneg hb⟩

theorem sharesFor_converts (p : Position) : Converts p.sharesFor (1 / p.quote.sharePrice.value) := by
  have hp := p.consistent.price_pos
  refine ⟨one_div_pos.mpr hp, ?_, ?_, ?_⟩
  · intro a ha
    rw [sharesFor, if_neg (isPositive_iff.not.mpr (not_lt.mpr ha))]
  · intro a c ha hc
    rw [mul_one_div]
    exact sharesFor_rounded (isPositive_iff.mpr ha) hc
  · intro a _ hnone
    by_contra ho
    rw [mul_one_div] at ho
    obtain ⟨c, hc⟩ := sharesFor_isSome ho
    simp [hnone] at hc

theorem amountFor_converts (p : Position) : Converts p.amountFor p.quote.sharePrice.value := by
  refine ⟨p.consistent.price_pos, ?_, ?_, ?_⟩
  · intro a ha
    rw [amountFor, if_neg (isPositive_iff.not.mpr (not_lt.mpr ha))]
  · intro a c ha hc
    exact amountFor_rounded ha.le hc
  · intro a ha hnone
    rw [amountFor, if_pos (isPositive_iff.mpr ha)] at hnone
    exact mul?_eq_none_iff.mp hnone

/-- What is worth something in range bounds the worth of everything below it. -/
theorem conversions_monotone (p : Position) {a b : Amount} (le : a ≤ b) :
    (∀ y, p.sharesFor b = some y → ∃ x, p.sharesFor a = some x ∧ zero ≤ x ∧ x ≤ y) ∧
      (∀ y, p.amountFor b = some y → ∃ x, p.amountFor a = some x ∧ zero ≤ x ∧ x ≤ y) :=
  ⟨fun _ hb => p.sharesFor_converts.mono le hb, fun _ hb => p.amountFor_converts.mono le hb⟩

/-- At the price of `7` it buys as many shares as have room with two digits. -/
def belowBrink : Amount := ⟨false, 5545971375998503631548076523, 0, by decide, Nat.zero_le maxScale⟩

/-- One more, and its shares have room with one digit only. -/
def aboveBrink : Amount := ⟨false, 5545971375998503631548076524, 0, by decide, Nat.zero_le maxScale⟩

theorem conversions_monotone_brink :
    belowBrink ≤ aboveBrink ∧
      sevenths.sharesFor aboveBrink = some ⟨false, 7922816251426433759354395034, 1, by decide, by decide⟩ ∧
      ∃ x, sevenths.sharesFor belowBrink = some x ∧ x.scale = 2 ∧
        x ≤ ⟨false, 7922816251426433759354395034, 1, by decide, by decide⟩ := by
  have le : belowBrink ≤ aboveBrink := by decide
  have more : sevenths.sharesFor aboveBrink =
      some ⟨false, 7922816251426433759354395034, 1, by decide, by decide⟩ := by decide +kernel
  have digits : (sevenths.sharesFor belowBrink).map scale = some 2 := by decide +kernel
  obtain ⟨x, hx, _, hle⟩ := (conversions_monotone sevenths le).1 _ more
  rw [hx] at digits
  exact ⟨le, more, x, hx, Option.some.inj digits, hle⟩

/-! ## The full exit -/

theorem userValue_nonneg (p : Position) : 0 ≤ p.userValue.value :=
  p.userValue_rounded.nonneg (mul_nonneg p.consistent.shares_nonneg p.consistent.price_pos.le)

theorem userValue_error (worth_le : p.userValue.value ≤ 7 * 10 ^ 18) :
    |p.userValue.value / p.quote.sharePrice.value - p.quote.userShares.value| ≤
      11 / 2 / 10 ^ 10 * (1 / p.quote.sharePrice.value) := by
  have hp := p.consistent.price_pos
  have he := p.userValue_rounded.error_le (by rwa [abs_of_nonneg p.userValue_nonneg])
  have hfac : p.userValue.value / p.quote.sharePrice.value - p.quote.userShares.value =
      (p.userValue.value - p.quote.userShares.value * p.quote.sharePrice.value) *
        (1 / p.quote.sharePrice.value) := by
    field_simp
  rw [hfac, abs_mul, abs_of_pos (one_div_pos.mpr hp)]
  exact mul_le_mul_of_nonneg_right he (one_div_pos.mpr hp).le

/-- At the lowest price there is, half a step of the worth buys `5.5 * 10 ^ 18` shares. -/
theorem sharesFor_userValue (shares_le : p.quote.userShares.value ≤ 7 * 10 ^ 18)
    (worth_le : p.userValue.value ≤ 7 * 10 ^ 18) : ∃ shares, p.sharesFor p.userValue = some shares := by
  have hp := p.consistent.price_pos
  apply sharesFor_isSome
  have hinv : 1 / p.quote.sharePrice.value ≤ 10 ^ 28 := by
    rw [one_div_le hp (by positivity)]
    exact smallest_le hp
  have he := userValue_error worth_le
  rw [abs_le] at he
  unfold Overflows bound
  rw [abs_of_nonneg (div_nonneg p.userValue_nonneg hp.le)]
  push_cast
  linarith

theorem burn_nonneg (burn : p.sharesFor p.userValue = some shares) : 0 ≤ shares.value :=
  (sharesFor_rounded_of_nonneg p.userValue_nonneg burn).nonneg
    (div_nonneg p.userValue_nonneg p.consistent.price_pos.le)

theorem exit_error (worth_le : p.userValue.value ≤ 7 * 10 ^ 18) (burn : p.sharesFor p.userValue = some shares)
    (hs : shares.value ≤ 7 * 10 ^ 18) :
    p.quote.userShares.value - shares.value ≤ 11 / 2 / 10 ^ 10 * (1 + 1 / p.quote.sharePrice.value) := by
  have hr := sharesFor_rounded_of_nonneg p.userValue_nonneg burn
  have burnt := hr.error_le (by rwa [abs_of_nonneg (burn_nonneg burn)])
  have worth := userValue_error worth_le
  rw [abs_le] at burnt worth
  linarith

/-- The shares left after a burn. -/
def leftover (p : Position) (shares : Amount) : ℚ :=
  (max (p.quote.userShares.saturatingSub shares) zero).value

theorem leftover_nonneg (p : Position) (shares : Amount) : 0 ≤ p.leftover shares := floored_nonneg ..

theorem leftover_of_le (hs : 0 ≤ shares.value) (h : p.quote.userShares.value ≤ shares.value) :
    p.leftover shares = 0 := by
  unfold leftover
  rw [value_max, value_zero, max_eq_right_iff]
  have near := saturatingSub_nearest p.consistent.shares_nonneg hs
  have hle := near.le_value (b := zero) (by rw [value_zero]; exact sub_nonpos.mpr h)
  rwa [value_zero] at hle

theorem leftover_nearest (hs : 0 ≤ shares.value) (h : shares.value ≤ p.quote.userShares.value) :
    Nearest (p.quote.userShares.value - shares.value) (p.leftover shares) := by
  have near := saturatingSub_nearest p.consistent.shares_nonneg hs
  unfold leftover
  rwa [value_max, value_zero, max_eq_left (near.nonneg (sub_nonneg.mpr h))]

section Exit

variable (shares_le : p.quote.userShares.value ≤ 7 * 10 ^ 18) (worth_le : p.userValue.value ≤ 7 * 10 ^ 18)
  (burn : p.sharesFor p.userValue = some shares)

include shares_le worth_le burn

theorem exit_leftover_le : p.leftover shares ≤ 6 / 10 ^ 10 * (1 + 1 / p.quote.sharePrice.value) := by
  have hinv := one_div_pos.mpr p.consistent.price_pos
  have hs := burn_nonneg burn
  rcases le_total p.quote.userShares.value shares.value with hle | hle
  · rw [leftover_of_le hs hle]
    positivity
  · have short := exit_error worth_le burn (hle.trans shares_le)
    have hl : p.leftover shares ≤ p.quote.userShares.value := floored_le p.consistent.shares_nonneg hs
    have err := (leftover_nearest hs hle).error_le (by
      rw [abs_of_nonneg (leftover_nonneg ..)]
      linarith)
    rw [abs_le] at err
    linarith

/-- From a price of one on, the exact rest is a number of steps that is no more than 1.1. -/
theorem exit_leftover_le_step (price_ge : 1 ≤ p.quote.sharePrice.value)
    (grid : OnGrid places p.quote.userShares.value) :
    p.leftover shares ≤ 1 / 10 ^ 9 := by
  have hs := burn_nonneg burn
  have hgrid := (sharesFor_rounded_of_nonneg p.userValue_nonneg burn).onGrid
  rcases le_total p.quote.userShares.value shares.value with hle | hle
  · rw [leftover_of_le hs hle]
    positivity
  · have exact_left : p.leftover shares = p.quote.userShares.value - shares.value := by
      apply nearest_exact (leftover_nearest hs hle) (grid.sub hgrid)
      rw [abs_of_nonneg (sub_nonneg.mpr hle)]
      linarith
    have short := exit_error worth_le burn (hle.trans shares_le)
    have hinv : 1 / p.quote.sharePrice.value ≤ 1 := by
      rw [div_le_one p.consistent.price_pos]
      exact price_ge
    have step : OnGrid places (1 / 10 ^ 9) := ⟨1, by norm_num [places]⟩
    rw [exact_left]
    apply (grid.sub hgrid).le_of_near step
    unfold places
    linarith

end Exit

/-- Withdrawing the worth of all shares settles and leaves dust, and at most one step of it from a price of
one on. -/
theorem full_exit_leaves_dust (p : Position) (shares_le : p.quote.userShares.value ≤ 7 * 10 ^ 18)
    (worth_le : p.userValue.value ≤ 7 * 10 ^ 18)
    (fits : ¬ Overflows (p.quote.walletBalance.value + p.userValue.value)) :
    ∃ shares, p.sharesFor p.userValue = some shares ∧ ∀ reference settledAt, ∃ p',
      p.apply ⟨.withdraw, p.userValue, shares, reference, settledAt⟩ = .ok p' ∧
      0 ≤ p'.quote.userShares.value ∧
      p'.quote.userShares.value ≤ 6 / 10 ^ 10 * (1 + 1 / p.quote.sharePrice.value) ∧
      (1 ≤ p.quote.sharePrice.value → OnGrid places p.quote.userShares.value →
        p'.quote.userShares.value ≤ 1 / 10 ^ 9) := by
  obtain ⟨shares, burn⟩ := sharesFor_userValue shares_le worth_le
  refine ⟨shares, burn, fun reference settledAt => ?_⟩
  obtain ⟨wallet, hw⟩ : ∃ wallet, p.quote.walletBalance.add? p.userValue = some wallet := by
    rw [← Option.ne_none_iff_exists', Ne, (add?_fits ..).eq_none_iff]
    exact fits
  obtain ⟨p', hp'⟩ := rebuild_withdrawn p p.userValue_nonneg (burn_nonneg burn) hw
  have hv : ¬ p.userValue < p.userValue := lt_iff_value.not.mpr (lt_irrefl _)
  have settled : p.apply ⟨.withdraw, p.userValue, shares, reference, settledAt⟩ = .ok p' := by
    rw [apply_withdrawal p rfl, afterWithdrawal_eq_ok shares hv hw]
    exact hp'
  have left : p'.quote.userShares.value = p.leftover shares := by
    rw [quote_of_rebuild hp']
    rfl
  refine ⟨p', settled, ?_⟩
  rw [left]
  exact ⟨leftover_nonneg .., exit_leftover_le shares_le worth_le burn,
    exit_leftover_le_step shares_le worth_le burn⟩

/-- At the price of `0.3` the last step of the shares is worth nothing. -/
def worthlessStep : Position where
  quote := ⟨steps 300000000 (by decide), ampleCap, zero, zero, zero, steps 1000000001 (by decide)⟩
  userValue := steps 300000000 (by decide)
  sound := by decide +kernel
  value_eq := by decide +kernel

theorem full_exit_leaves_dust_examples :
    (∃ p', worthlessStep.apply ⟨.withdraw, worthlessStep.userValue, ofInt64 1, "0xd1", .epoch⟩ = .ok p' ∧
      p'.quote.userShares = steps 1 (by decide) ∧
      p'.quote.userShares.value ≤ 6 / 10 ^ 10 * (1 + 1 / worthlessStep.quote.sharePrice.value)) ∧
    (∃ p', sevenths.apply
        ⟨.withdraw, sevenths.userValue, steps 14285714286 (by decide), "0xd2", .epoch⟩ = .ok p' ∧
      p'.quote.userShares.value ≤ 1 / 10 ^ 9) := by
  constructor
  · obtain ⟨shares, burn, settles⟩ :=
      full_exit_leaves_dust worthlessStep (by norm_num [worthlessStep, steps_value])
      (by norm_num [worthlessStep, steps_value]) (by norm_num [worthlessStep, steps_value, Overflows, bound])
    have hburn : worthlessStep.sharesFor worthlessStep.userValue = some (ofInt64 1) := by decide +kernel
    rw [hburn, Option.some.injEq] at burn
    subst burn
    obtain ⟨p', settled, _, dust, _⟩ := settles "0xd1" .epoch
    have left : (worthlessStep.apply ⟨.withdraw, worthlessStep.userValue, ofInt64 1, "0xd1", .epoch⟩).map
        (·.quote.userShares) = .ok (steps 1 (by decide)) := by decide +kernel
    rw [settled] at left
    exact ⟨p', settled, Except.ok.inj left, dust⟩
  · obtain ⟨shares, burn, settles⟩ := full_exit_leaves_dust sevenths (by norm_num [sevenths, steps_value])
      (by norm_num [sevenths, steps_value]) (by norm_num [sevenths, steps_value, Overflows, bound])
    have hburn : sevenths.sharesFor sevenths.userValue = some (steps 14285714286 (by decide)) := by
      decide +kernel
    rw [hburn, Option.some.injEq] at burn
    subst burn
    obtain ⟨p', settled, _, _, step⟩ := settles "0xd2" .epoch
    exact ⟨p', settled, step (by norm_num [sevenths, steps_value]) (value_onGrid _ (by decide))⟩

end Position

end YieldVault
