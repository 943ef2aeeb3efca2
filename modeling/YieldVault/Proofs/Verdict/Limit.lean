import YieldVault.Proofs.Figure.Number
import YieldVault.Proofs.Position.Conversion
import YieldVault.Verdict

/-!
# Limits that a verdict names

An amount past what an action can draw on is refused, and the refusal names what there is, in cents. The
comparison is with the exact holding and the name is rounded: so the limit that is named can be typed in
unless it was rounded up, which is when half a cent or more stands behind the cents.
-/

namespace YieldVault

open Amount

/-- What an action can draw on. -/
def Position.holding (p : Position) : Kind → Amount
  | .deposit => p.quote.walletBalance
  | .withdraw => p.userValue

theorem Position.holding_nonneg (p : Position) (kind : Kind) : 0 ≤ (p.holding kind).value := by
  cases kind with
  | deposit => exact p.consistent.wallet_nonneg
  | withdraw => exact p.userValue_nonneg

/-- The objection to more than that. -/
def Position.overdraft (p : Position) : Kind → Objection
  | .deposit => .overWallet p.quote.walletBalance
  | .withdraw => .overPosition p.userValue

/-- The most that can be asked for, where an objection says so. -/
def Objection.limit? : Objection → Option Amount
  | overWallet balance => some balance
  | overPosition available => some available
  | _ => none

/-- The words before the limit. -/
def Objection.lead : Kind → String
  | .deposit => "insufficient wallet balance: you only have "
  | .withdraw => "exceeds withdrawable balance: you can withdraw up to "

theorem Position.message_overdraft (p : Position) (kind : Kind) :
    (p.overdraft kind).message = Objection.lead kind ++ Figure.number (p.holding kind) 2 ++ " USDC" := by
  cases kind <;> rfl

namespace Verdict

variable {kind : Kind} {p : Position} {o : Objection} {a limit : Amount} {preview : Option Preview}

/-! ## What a verdict comes from -/

theorem judge_isValid_iff :
    (judge kind (.value a) p).isValid = true ↔
      a.isPositive = true ∧ (p.sharesFor a).isSome = true ∧ objection? kind a p = none := by
  unfold judge
  by_cases ha : a.isPositive = true
  · cases hs : p.sharesFor a with
    | none => simp [ha, hs, isValid]
    | some shares => cases ho : objection? kind a p <;> simp [ha, hs, ho, isValid]
  · simp [ha, isValid]

theorem judge_eq_refused_iff (ho : o ≠ .notANumber) :
    (∃ preview, judge kind (.value a) p = .refused o preview) ↔
      a.isPositive = true ∧ (p.sharesFor a).isSome = true ∧ objection? kind a p = some o := by
  unfold judge
  by_cases ha : a.isPositive = true
  · cases hs : p.sharesFor a with
    | none => simp [ha, hs, ho.symm]
    | some shares => cases hj : objection? kind a p <;> simp [ha, hs, hj]
  · simp [ha]

theorem ne_notANumber (h : o.limit? = some limit) : o ≠ .notANumber := by
  rintro rfl
  cases h

theorem objection?_of_refused {entry : Entry} (refused : judge kind entry p = .refused o preview)
    (h : o.limit? = some limit) : ∃ a, objection? kind a p = some o := by
  cases entry with
  | invalid =>
    cases refused
    cases h
  | value a => exact ⟨a, ((judge_eq_refused_iff (ne_notANumber h)).mp ⟨_, refused⟩).2.2⟩

/-! ## Overdrafts -/

theorem objection?_eq_overdraft_iff :
    objection? kind a p = some (p.overdraft kind) ↔
      (kind = .deposit → p.quote.minDeposit.value ≤ a.value) ∧ (p.holding kind).value < a.value := by
  cases kind with
  | deposit =>
    simp only [objection?, Position.overdraft, Position.holding, lt_iff_value, true_implies]
    split_ifs with hmin hwallet hcap
    · simp [hmin]
    · simp [not_lt.mp hmin, hwallet]
    · simp [hwallet]
    · simp [hwallet]
  | withdraw =>
    simp only [objection?, Position.overdraft, Position.holding, lt_iff_value]
    split_ifs with h <;> simp [h]

/-- Only an overdraft names a limit, and that limit is the holding. -/
theorem overdraft_of_limit? (h : objection? kind a p = some o) (hl : o.limit? = some limit) :
    o = p.overdraft kind ∧ limit = p.holding kind := by
  cases kind with
  | deposit =>
    simp only [objection?] at h
    split_ifs at h <;> cases h <;> cases hl
    exact ⟨rfl, rfl⟩
  | withdraw =>
    simp only [objection?] at h
    split_ifs at h
    cases h
    cases hl
    exact ⟨rfl, rfl⟩

theorem not_overdrawn (le : a.value ≤ (p.holding kind).value) (hl : o.limit? = some limit) :
    judge kind (.value a) p ≠ .refused o preview := by
  intro refused
  have hobj := ((judge_eq_refused_iff (ne_notANumber hl)).mp ⟨_, refused⟩).2.2
  rw [(overdraft_of_limit? hobj hl).1, objection?_eq_overdraft_iff] at hobj
  exact absurd hobj.2 (not_lt.mpr le)

/-- The limit that a refusal names is the holding in cents. It is past the holding when half a cent or more
stands behind them, and only then it is refused for the same reason, if no other rule speaks first. -/
theorem named_limit_refused_iff {entry : Entry} (refused : judge kind entry p = .refused o preview)
    (names : o.limit? = some limit) :
    limit = p.holding kind ∧ o.message = Objection.lead kind ++ Figure.number limit 2 ++ " USDC" ∧
      ∃ x, Entry.ofText (Figure.number limit 2) = .value x ∧ x.value = halfAway 2 limit.value ∧
        (limit.value < x.value ↔ cutDown 2 limit.value + 1 / 200 ≤ limit.value) ∧
        ((∃ preview', judge kind (.value x) p = .refused o preview') ↔
          limit.value < x.value ∧ (kind = .deposit → p.quote.minDeposit.value ≤ x.value) ∧
            (p.sharesFor x).isSome = true) := by
  obtain ⟨a, hobj⟩ := objection?_of_refused refused names
  obtain ⟨hover, rfl⟩ := overdraft_of_limit? hobj names
  have hnonneg := p.holding_nonneg kind
  have hround : 0 ≤ halfAway 2 (p.holding kind).value := by
    rw [← value_round]
    exact round_nonneg hnonneg 2
  obtain ⟨x, hread, hx⟩ := Figure.ofText_number (p.holding kind) (d := 2) (by decide)
  rw [abs_of_nonneg hround] at hx
  refine ⟨rfl, hover ▸ p.message_overdraft kind, x, hread, hx, ?_, ?_⟩
  · rw [hx, lt_halfAway_iff 2 hnonneg]
    norm_num
  · rw [judge_eq_refused_iff (ne_notANumber names), hover, objection?_eq_overdraft_iff, isPositive_iff]
    constructor
    · rintro ⟨_, hs, hmin, hlt⟩
      exact ⟨hlt, hmin, hs⟩
    · rintro ⟨hlt, hmin, hs⟩
      exact ⟨hnonneg.trans_lt hlt, hs, hmin, hlt⟩

/-- At the price of one, a thousandth less than one in the wallet and as much in the vault. -/
def shortOfOne : Position where
  quote :=
    ⟨ofInt64 1, Position.ampleCap, zero, zero, steps 999000000 (by decide), steps 999000000 (by decide)⟩
  userValue := steps 999000000 (by decide)
  sound := by decide +kernel
  value_eq := by decide +kernel

theorem named_limit_refused_iff_cents :
    ∃ x, Entry.ofText "1.00" = .value x ∧
      ∃ preview, judge .withdraw (.value x) shortOfOne =
        .refused (.overPosition shortOfOne.userValue) preview := by
  have refused : judge .withdraw (Entry.ofText "1.00") shortOfOne =
      .refused (.overPosition shortOfOne.userValue)
        (judge .withdraw (Entry.ofText "1.00") shortOfOne).preview? := by
    decide +kernel
  obtain ⟨_, _, x, hread, hx, _, again⟩ := named_limit_refused_iff refused rfl
  have text : Figure.number shortOfOne.userValue 2 = "1.00" := by decide +kernel
  rw [text] at hread
  have above : shortOfOne.userValue.value < x.value := by
    have up : shortOfOne.userValue < shortOfOne.userValue.round 2 := by decide +kernel
    rw [hx, ← value_round]
    exact lt_iff_value.mp up
  have shares : (shortOfOne.sharesFor x).isSome = true := by
    have hs : (Entry.ofText "1.00").amount?.all (fun y => (shortOfOne.sharesFor y).isSome) = true := by
      decide +kernel
    rw [hread] at hs
    exact hs
  exact ⟨x, hread, again.mpr ⟨above, by rintro ⟨⟩, shares⟩⟩

/-- One is refused with one as the limit. -/
theorem named_limit_overshoots :
    (judge .withdraw (Entry.ofText "1.00") shortOfOne).message =
        "exceeds withdrawable balance: you can withdraw up to 1.00 USDC" ∧
      (judge .deposit (Entry.ofText "1.00") shortOfOne).message =
        "insufficient wallet balance: you only have 1.00 USDC" := by
  decide +kernel

end Verdict

end YieldVault
