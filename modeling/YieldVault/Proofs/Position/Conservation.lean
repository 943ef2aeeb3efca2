import YieldVault.Proofs.Position.Receipt

/-!
# Conservation

What a user owns is the wallet and the worth of the shares. A settled action moves one into the other,
and all that it can create or destroy is what the shares and the limit of a withdrawal are rounded by.
The errors of a run of actions add up, whatever their order.
-/

namespace YieldVault

open Amount

namespace Position

def wealth (p : Position) : ℚ :=
  p.quote.walletBalance.value + p.quote.userShares.value * p.quote.sharePrice.value

/-- The wallet and the shares are multiples of the last digit kept. -/
structure Stepped (p : Position) : Prop where
  wallet : OnGrid places p.quote.walletBalance.value
  shares : OnGrid places p.quote.userShares.value

/-- Small enough to be added up without rounding. -/
structure Small (p : Position) : Prop where
  wallet : p.quote.walletBalance.value ≤ 7 * 10 ^ 18
  shares : p.quote.userShares.value ≤ 7 * 10 ^ 18
  worth : p.userValue.value ≤ 7 * 10 ^ 18

/-- One settled action, from a small position and with the shares that the amount is worth there. -/
structure Trade (p : Position) (r : Receipt) (p' : Position) : Prop where
  small : p.Small
  amount_pos : r.amount.isPositive = true
  amount_grid : OnGrid places r.amount.value
  delta : p.sharesFor r.amount = some r.shares
  delta_le : r.shares.value ≤ 7 * 10 ^ 18
  settled : p.apply r = .ok p'

inductive Trades : Position → List Receipt → Position → Prop
  | none (p : Position) : Trades p [] p
  | next {p p' p'' : Position} {r : Receipt} {rs : List Receipt} (first : Trade p r p')
      (rest : Trades p' rs p'') :
    Trades p (r :: rs) p''

/-! ## Exact sums -/

theorem representable_of_onGrid {x : ℚ} (h : OnGrid places x) (hx : |x| ≤ 14 * 10 ^ 18) :
    Representable x := by
  refine representable_of_room h (by decide) ?_
  norm_num [bound, places]
  linarith

theorem nearest_exact {x y : ℚ} (h : Nearest x y) (grid : OnGrid places x) (hx : |x| ≤ 14 * 10 ^ 18) :
    y = x :=
  h.eq (representable_of_onGrid grid hx)

/-! ## One action -/

/-- What one action may create or destroy. -/
def slack (p : Position) : ℚ := 6 / 10 ^ 10 * (1 + p.quote.sharePrice.value)

structure Kept (p p' : Position) : Prop where
  price : p'.quote.sharePrice = p.quote.sharePrice
  stepped : p'.Stepped
  wealth : |p'.wealth - p.wealth| ≤ p.slack

theorem wealth_sub {p p' : Position} (h : p'.quote.sharePrice = p.quote.sharePrice) :
    p'.wealth - p.wealth = p'.quote.walletBalance.value - p.quote.walletBalance.value +
      (p'.quote.userShares.value - p.quote.userShares.value) * p.quote.sharePrice.value := by
  unfold wealth
  rw [h]
  ring

theorem kept_of_deposit {p p' : Position} {r : Receipt} (kind : r.kind = .deposit) (hp : p.Stepped)
    (h : p.Trade r p') : p.Kept p' := by
  have hc := p.consistent
  have ha := isPositive_iff.mp h.amount_pos
  have hs := sharesFor_nonneg h.amount_pos h.delta
  have hgrid := (sharesFor_rounded h.amount_pos h.delta).onGrid
  obtain ⟨used, held, hw, hh, hq⟩ := deposited_of_apply kind h.settled
  rw [lt_iff_value, not_lt] at hw
  have hwallet : p'.quote.walletBalance.value = p.quote.walletBalance.value - r.amount.value := by
    rw [hq]
    refine nearest_exact (saturatingSub_nearest hc.wallet_nonneg ha.le) (hp.wallet.sub h.amount_grid) ?_
    rw [abs_of_nonneg (sub_nonneg.mpr hw)]
    linarith [h.small.wallet]
  have hshares : p'.quote.userShares.value = p.quote.userShares.value + r.shares.value := by
    rw [hq]
    refine nearest_exact ((add?_fits ..).nearest hh) (hp.shares.add hgrid) ?_
    rw [abs_of_nonneg (add_nonneg hc.shares_nonneg hs)]
    linarith [h.small.shares, h.delta_le]
  have hprice : p'.quote.sharePrice = p.quote.sharePrice := by
    rw [hq]
    rfl
  refine ⟨hprice, ⟨?_, ?_⟩, ?_⟩
  · rw [hwallet]
    exact hp.wallet.sub h.amount_grid
  · rw [hshares]
    exact hp.shares.add hgrid
  · have herr := sharesFor_error h.amount_pos h.delta h.delta_le
    have hpos := hc.price_pos
    have hdiff : p'.wealth - p.wealth = r.shares.value * p.quote.sharePrice.value - r.amount.value := by
      rw [wealth_sub hprice, hwallet, hshares]
      ring
    rw [hdiff]
    unfold slack
    linarith

theorem kept_of_withdrawal {p p' : Position} {r : Receipt} (kind : r.kind = .withdraw) (hp : p.Stepped)
    (h : p.Trade r p') : p.Kept p' := by
  have hc := p.consistent
  have hpos := hc.price_pos
  have ha := isPositive_iff.mp h.amount_pos
  have hs := sharesFor_nonneg h.amount_pos h.delta
  have hgrid := (sharesFor_rounded h.amount_pos h.delta).onGrid
  obtain ⟨wallet, hv, hw, hq⟩ := withdrawn_of_apply kind h.settled
  rw [lt_iff_value, not_lt] at hv
  have hwallet : p'.quote.walletBalance.value = p.quote.walletBalance.value + r.amount.value := by
    rw [hq]
    refine nearest_exact ((add?_fits ..).nearest hw) (hp.wallet.add h.amount_grid) ?_
    rw [abs_of_nonneg (add_nonneg hc.wallet_nonneg ha.le)]
    linarith [h.small.wallet, h.small.worth]
  have hshares : p'.quote.userShares.value = max (p.quote.userShares.value - r.shares.value) 0 := by
    have hsub : (p.quote.userShares.saturatingSub r.shares).value =
        p.quote.userShares.value - r.shares.value := by
      refine nearest_exact (saturatingSub_nearest hc.shares_nonneg hs) (hp.shares.sub hgrid) ?_
      have h₁ := h.small.shares
      have h₂ := h.delta_le
      have h₃ := hc.shares_nonneg
      rw [abs_le]
      constructor <;> linarith
    rw [hq]
    show (max (p.quote.userShares.saturatingSub r.shares) zero).value = _
    rw [value_max, value_zero, hsub]
  have hprice : p'.quote.sharePrice = p.quote.sharePrice := by
    rw [hq]
    rfl
  have herr := sharesFor_error h.amount_pos h.delta h.delta_le
  rw [abs_le] at herr
  rcases le_total r.shares.value p.quote.userShares.value with hle | hle
  · rw [max_eq_left (sub_nonneg.mpr hle)] at hshares
    refine ⟨hprice, ⟨hwallet ▸ hp.wallet.add h.amount_grid, hshares ▸ hp.shares.sub hgrid⟩, ?_⟩
    have hdiff : p'.wealth - p.wealth = r.amount.value - r.shares.value * p.quote.sharePrice.value := by
      rw [wealth_sub hprice, hwallet, hshares]
      ring
    rw [hdiff, abs_le]
    unfold slack
    constructor <;> linarith
  · -- the burn overshoots: the limit on the amount bounds what is gained, the missing shares what is lost
    rw [max_eq_right (sub_nonpos.mpr hle)] at hshares
    refine ⟨hprice, ⟨hwallet ▸ hp.wallet.add h.amount_grid, hshares ▸ OnGrid.zero _⟩, ?_⟩
    have hdiff : p'.wealth - p.wealth =
        r.amount.value - p.quote.userShares.value * p.quote.sharePrice.value := by
      rw [wealth_sub hprice, hwallet, hshares]
      ring
    have hworth := p.userValue_rounded
    have hlimit := hworth.error_le (by
      rw [abs_of_nonneg (hworth.nonneg (mul_nonneg hc.shares_nonneg hpos.le))]
      exact h.small.worth)
    rw [abs_le] at hlimit
    have hmore := mul_le_mul_of_nonneg_right hle hpos.le
    rw [hdiff, abs_le]
    unfold slack
    constructor <;> linarith

theorem kept_of_trade {p p' : Position} {r : Receipt} (hp : p.Stepped) (h : p.Trade r p') : p.Kept p' := by
  cases kind : r.kind with
  | deposit => exact kept_of_deposit kind hp h
  | withdraw => exact kept_of_withdrawal kind hp h

/-! ## Runs -/

/-- A run of settled actions creates and destroys nothing but what each of them rounds. -/
theorem wealth_conserved {p p' : Position} {rs : List Receipt} (hp : p.Stepped) (h : Trades p rs p') :
    |p'.wealth - p.wealth| ≤ rs.length * (6 / 10 ^ 10 * (1 + p.quote.sharePrice.value)) := by
  induction h with
  | none p => simp
  | @next p p' p'' r rs first rest ih =>
    have hk := kept_of_trade hp first
    have hrest := ih hk.stepped
    have hfirst := hk.wealth
    have htri := abs_sub_le p''.wealth p'.wealth p.wealth
    unfold slack at hfirst
    rw [hk.price] at hrest
    rw [List.length_cons]
    push_cast
    linarith

def ampleCap : Amount := steps 1000000000000 (by decide)

/-- A quote at the price of `0.6`. -/
def cheap (used wallet shares : Amount) : Quote :=
  ⟨steps 600000000 (by decide), ampleCap, used, steps 1000000000 (by decide), wallet, shares⟩

/-- The worth of all shares, rounded up, buys one step more than there is. -/
def beforeExit : Position where
  quote :=
    cheap (steps 100000000000 (by decide)) (steps 50000000000 (by decide)) (steps 100000000001 (by decide))
  userValue := steps 60000000001 (by decide)
  sound := by decide +kernel
  value_eq := by decide +kernel

def afterExit : Position where
  quote := cheap (steps 39999999999 (by decide)) (steps 110000000001 (by decide)) zero
  userValue := zero
  sound := by decide +kernel
  value_eq := by decide +kernel

def afterReturn : Position where
  quote :=
    cheap (steps 49999999999 (by decide)) (steps 100000000001 (by decide)) (steps 16666666667 (by decide))
  userValue := steps 10000000000 (by decide)
  sound := by decide +kernel
  value_eq := by decide +kernel

theorem wealth_conserved_exit :
    |afterReturn.wealth - beforeExit.wealth| ≤
      2 * (6 / 10 ^ 10 * (1 + beforeExit.quote.sharePrice.value)) := by
  have leave : Trade beforeExit
      ⟨.withdraw, steps 60000000001 (by decide), steps 100000000002 (by decide), "0xc1", .epoch⟩ afterExit :=
    { small := by constructor <;> norm_num [beforeExit, cheap, steps_value]
      amount_pos := by decide
      amount_grid := value_onGrid _ le_rfl
      delta := by decide +kernel
      delta_le := by norm_num [steps_value]
      settled := by decide +kernel }
  have back : Trade afterExit
      ⟨.deposit, steps 10000000000 (by decide), steps 16666666667 (by decide), "0xc2", .epoch⟩ afterReturn :=
    { small := by constructor <;> norm_num [afterExit, cheap, steps_value]
      amount_pos := by decide
      amount_grid := value_onGrid _ le_rfl
      delta := by decide +kernel
      delta_le := by norm_num [steps_value]
      settled := by decide +kernel }
  have h :=
    wealth_conserved ⟨value_onGrid _ (by decide), value_onGrid _ (by decide)⟩
      (.next leave (.next back (.none _)))
  simpa using h

end Position

end YieldVault
