import YieldVault.Proofs.Amount.Quotient
import YieldVault.Proofs.Figure.Number

/-!
# Compact dollar figures

A sum is counted in ones, thousands or millions, and the count is rounded to the digits of its unit. In one
unit the figures keep the order of the sums. A unit takes over at a sum that the smaller unit shows as well,
and both show it as it is; so the order is kept across the units too.
-/

namespace YieldVault

namespace Layout

/-- A layout that shows a number is determined by the number. -/
theorem Fills.unique {x : ℚ} {d : Nat} {l l' : Layout} (h : l.Fills x d) (h' : l'.Fills x d) : l = l' := by
  have hs : l.scale = l'.scale := h.scale.unique h'.scale
  have hn : l.negative = l'.negative := Bool.eq_iff_iff.mpr (h.sign.trans h'.sign.symm)
  have hc : (l.coeff : ℚ) = l'.coeff := by
    rw [← l.abs_value_mul_pow, ← l'.abs_value_mul_pow, h.value, h'.value, hs]
  cases l
  cases l'
  simp_all

end Layout

namespace Amount

theorem atPlaces_congr {a b : Amount} (h : a.value = b.value) {d : Nat} (hd : d ≤ maxScale) :
    a.atPlaces d = b.atPlaces d := by
  have hb := b.atPlaces_fills hd
  rw [← h] at hb
  exact (a.atPlaces_fills hd).unique hb

/-- What is divided by more than one is in range. -/
theorem div?_isSome (a : Amount) {b : Amount} (h : 1 ≤ b.value) : ∃ c, a.div? b = some c := by
  have hpos : 0 < b.value := by linarith
  have hb : b.isZero = false := by
    by_contra hz
    exact hpos.ne' (value_of_isZero (by simpa using hz))
  have hle : |a.value / b.value| ≤ |a.value| := by
    rw [abs_div, abs_of_pos hpos]
    exact div_le_self (abs_nonneg _) h
  have hin : a.div? b ≠ none := fun hn => a.not_overflows_value (((div?_eq_none_iff hb).mp hn).mono hle)
  exact Option.ne_none_iff_exists'.mp hin

/-- Moving the point loses only digits behind the last that an amount can have. -/
theorem Nearest.shift_error {a : Amount} {k : Nat} {y : ℚ} (h : Nearest (a.value / 10 ^ k) y) :
    |y - a.value / 10 ^ k| ≤ 1 / 2 / 10 ^ maxScale := by
  have hk : (10 : ℚ) ^ k ≠ 0 := by positivity
  have hshift : a.value / 10 ^ k * 10 ^ (a.scale + k) = a.value * 10 ^ a.scale := by
    rw [pow_add]
    field_simp
  obtain ⟨t, ht, hr⟩ := h
  rcases hr.full with rfl | rfl | full
  · rw [sub_self, abs_zero]
    positivity
  · rw [le_div_iff₀ (by positivity)]
    exact hr.near
  · rcases Nat.lt_or_ge t (a.scale + k) with hlt | hge
    · -- all digits of the amount have room
      have hover := full.mul_pow hlt
      have hc := a.coeff_add_one_le
      unfold Overflows at hover
      rw [hshift, abs_mul, abs_of_pos (by positivity : (0 : ℚ) < 10 ^ a.scale), abs_value_mul_pow] at hover
      linarith
    · have grid : OnGrid t (a.value / 10 ^ k) := by
        obtain ⟨n, hn⟩ := a.value_onGrid le_rfl
        exact OnGrid.mono ⟨n, hshift.trans hn⟩ hge
      have near := abs_le.mp (show |(y - a.value / 10 ^ k) * 10 ^ t| ≤ 1 / 2 by
        rw [abs_mul, abs_of_pos (by positivity : (0 : ℚ) < 10 ^ t)]
        exact hr.near)
      have hy : y = a.value / 10 ^ k := by
        apply le_antisymm (hr.grid.le_of_near grid near.2) (grid.le_of_near hr.grid _)
        linarith [near.1]
      rw [hy, sub_self, abs_zero]
      positivity

end Amount

namespace Figure

open Amount

/-! ## Units -/

inductive Magnitude where
  | ones
  | thousands
  | millions
  deriving DecidableEq

namespace Magnitude

def power : Magnitude → Nat
  | ones => 0
  | thousands => 3
  | millions => 6

def digits : Magnitude → Nat
  | ones => 2
  | thousands => 0
  | millions => 1

def mark : Magnitude → List Char
  | ones => []
  | thousands => ['K']
  | millions => ['M']

/-- The unit for a sum. -/
def ofSum (a : Amount) : Magnitude :=
  if million ≤ a then millions else if thousand ≤ a then thousands else ones

/-- How many of the unit a sum is. -/
def count (a : Amount) : Magnitude → Amount
  | ones => a
  | thousands => (a.div? thousand).getD a
  | millions => (a.div? million).getD a

/-- What the figure in a unit says about a sum. -/
def shown (u : Magnitude) (a : Amount) : ℚ := halfAway u.digits (u.count a).value * 10 ^ u.power

variable {u : Magnitude} {a b : Amount}

theorem value_thousand : thousand.value = 1000 := value_ofInt64 1000

theorem value_million : million.value = 1000000 := value_ofInt64 1000000

theorem count_rounded (hu : u ≠ ones) (a : Amount) : Rounded (a.value / 10 ^ u.power) (u.count a) := by
  have divided : ∀ {b : Amount} {k : Nat}, b.value = 10 ^ k →
      Rounded (a.value / 10 ^ k) ((a.div? b).getD a) := by
    intro b k hb
    obtain ⟨c, hc⟩ := a.div?_isSome (show 1 ≤ b.value by rw [hb]; exact one_le_pow₀ (by norm_num))
    rw [hc, ← hb]
    exact div?_rounded hc
  cases u with
  | ones => exact absurd rfl hu
  | thousands => exact divided (by rw [value_thousand]; norm_num [power])
  | millions => exact divided (by rw [value_million]; norm_num [power])

theorem count_mono (u : Magnitude) (h₀ : u = ones ∨ 0 ≤ a.value) (h : a.value ≤ b.value) :
    (u.count a).value ≤ (u.count b).value := by
  by_cases hu : u = ones
  · subst hu
    exact h
  · have ha : 0 ≤ a.value := h₀.resolve_left hu
    exact (count_rounded hu a).mono (count_rounded hu b) (by positivity) (by gcongr)

theorem shown_mono (u : Magnitude) (h₀ : u = ones ∨ 0 ≤ a.value) (h : a.value ≤ b.value) :
    u.shown a ≤ u.shown b := by
  have hc := halfAway_mono u.digits (u.count_mono h₀ h)
  unfold shown
  gcongr

theorem count_near (u : Magnitude) (a : Amount) :
    |(u.count a).value - a.value / 10 ^ u.power| ≤ if u = ones then 0 else 1 / 10 ^ 9 := by
  by_cases hu : u = ones
  · subst hu
    simp [count, power]
  · rw [if_neg hu]
    obtain ⟨c, near, hc⟩ := count_rounded hu a
    have h₁ := near.shift_error
    have h₂ := c.round_near places
    rw [← hc, ← le_div_iff₀ (by positivity)] at h₂
    have h₃ := abs_sub_le (u.count a).value c.value (a.value / 10 ^ u.power)
    norm_num [places, maxScale] at h₁ h₂ ⊢
    linarith

theorem shown_near (u : Magnitude) (a : Amount) :
    |u.shown a - a.value| ≤ (1 / 2 / 10 ^ u.digits + if u = ones then 0 else 1 / 10 ^ 9) * 10 ^ u.power := by
  have hp : (0 : ℚ) < 10 ^ u.power := by positivity
  have hr := (u.count a).round_near u.digits
  rw [value_round, ← le_div_iff₀ (by positivity)] at hr
  have hc := u.count_near a
  have hsum := abs_sub_le (halfAway u.digits (u.count a).value) (u.count a).value (a.value / 10 ^ u.power)
  have heq : u.shown a - a.value =
      (halfAway u.digits (u.count a).value - a.value / 10 ^ u.power) * 10 ^ u.power := by
    rw [shown, sub_mul, div_mul_cancel₀ _ hp.ne']
  rw [heq, abs_mul, abs_of_pos hp]
  gcongr
  linarith

theorem digits_le (u : Magnitude) : u.digits ≤ places := by
  cases u <;> decide

/-- A sum that needs no rounding is shown as it is. -/
theorem shown_of_onGrid (h : OnGrid u.digits (a.value / 10 ^ u.power)) : u.shown a = a.value := by
  have hp : (10 : ℚ) ^ u.power ≠ 0 := by positivity
  have hc : (u.count a).value = a.value / 10 ^ u.power := by
    by_cases hu : u = ones
    · subst hu
      simp [count, power]
    · obtain ⟨c, near, hc⟩ := count_rounded hu a
      have hpow : (10 : ℚ) ^ u.digits ≤ 10 ^ u.power := by
        apply pow_le_pow_right₀ (by norm_num)
        cases u with
        | ones => exact absurd rfl hu
        | thousands => decide
        | millions => decide
      have room : |a.value / 10 ^ u.power| * 10 ^ u.digits < bound := by
        have hin := not_le.mp a.not_overflows_value
        rw [abs_div, abs_of_pos (by positivity : (0 : ℚ) < 10 ^ u.power)]
        calc |a.value| / 10 ^ u.power * 10 ^ u.digits ≤ |a.value| / 10 ^ u.power * 10 ^ u.power := by gcongr
          _ = |a.value| := div_mul_cancel₀ _ hp
          _ < bound := by linarith
      have hx := near.eq (representable_of_room h (u.digits_le.trans (by decide)) room)
      rw [hc, value_round, hx, halfAway_of_onGrid (h.mono u.digits_le)]
  rw [shown, hc, halfAway_of_onGrid h, div_mul_cancel₀ _ hp]

/-! ## Switches -/

theorem ofSum_cases (a : Amount) :
    (ofSum a = ones ∧ a.value < 1000) ∨ (ofSum a = thousands ∧ 1000 ≤ a.value ∧ a.value < 1000000) ∨
      (ofSum a = millions ∧ 1000000 ≤ a.value) := by
  unfold ofSum
  simp only [le_iff_value, value_thousand, value_million]
  split
  · simp_all
  · split <;> simp_all

theorem ofSum_eq_ones_or_nonneg (a : Amount) : ofSum a = ones ∨ 0 ≤ a.value := by
  rcases ofSum_cases a with ⟨h, -⟩ | ⟨-, h, -⟩ | ⟨-, h⟩
  · exact .inl h
  · exact .inr (by linarith)
  · exact .inr (by linarith)

/-- Ones and thousands meet at a thousand. -/
theorem shown_thousand (hu : u = ones ∨ u = thousands) : u.shown thousand = 1000 := by
  rw [shown_of_onGrid, value_thousand]
  rw [value_thousand]
  rcases hu with rfl | rfl
  · exact ⟨100000, by norm_num [digits, power]⟩
  · exact ⟨1, by norm_num [digits, power]⟩

/-- Thousands and millions meet at a million. -/
theorem shown_million (hu : u = thousands ∨ u = millions) : u.shown million = 1000000 := by
  rw [shown_of_onGrid, value_million]
  rw [value_million]
  rcases hu with rfl | rfl
  · exact ⟨1000, by norm_num [digits, power]⟩
  · exact ⟨10, by norm_num [digits, power]⟩

theorem shown_ofSum_mono (h : a.value ≤ b.value) : (ofSum a).shown a ≤ (ofSum b).shown b := by
  -- no figure crosses the switch on its own side, since the switch itself is shown as it is
  have below_thousand : a.value < 1000 → ones.shown a ≤ 1000 := fun ha => by
    rw [← shown_thousand (.inl rfl)]
    exact shown_mono _ (.inl rfl) (by rw [value_thousand]; exact ha.le)
  have from_thousand : 1000 ≤ b.value → 1000 ≤ thousands.shown b := fun hb => by
    rw [← shown_thousand (.inr rfl)]
    exact shown_mono _ (.inr (by rw [value_thousand]; norm_num)) (by rwa [value_thousand])
  have below_million : 1000 ≤ a.value → a.value < 1000000 → thousands.shown a ≤ 1000000 := fun ha ha' => by
    rw [← shown_million (.inl rfl)]
    exact shown_mono _ (.inr (by linarith)) (by rw [value_million]; exact ha'.le)
  have from_million : 1000000 ≤ b.value → 1000000 ≤ millions.shown b := fun hb => by
    rw [← shown_million (.inr rfl)]
    exact shown_mono _ (.inr (by rw [value_million]; norm_num)) (by rwa [value_million])
  by_cases same : ofSum a = ofSum b
  · rw [← same]
    exact shown_mono _ (ofSum_eq_ones_or_nonneg a) h
  · rcases ofSum_cases a with ⟨ha, ha₁⟩ | ⟨ha, ha₁, ha₂⟩ | ⟨ha, ha₁⟩ <;>
      rcases ofSum_cases b with ⟨hb, hb₁⟩ | ⟨hb, hb₁, hb₂⟩ | ⟨hb, hb₁⟩ <;> rw [ha, hb] at same ⊢
    -- from ones up
    · exact absurd rfl same
    · exact (below_thousand ha₁).trans (from_thousand hb₁)
    · linarith [below_thousand ha₁, from_million hb₁]
    -- from thousands up
    · linarith
    · exact absurd rfl same
    · exact (below_million ha₁ ha₂).trans (from_million hb₁)
    -- from millions nothing is left
    · linarith
    · linarith
    · exact absurd rfl same

end Magnitude

/-! ## Texts -/

/-- The number written by a decimal text. -/
def written? (cs : List Char) : Option ℚ := (Amount.ofChars cs).toOption.map Amount.value

/-- What a compact figure says: `$xM` is `x` millions, `$xK` is `x` thousands, and `$x` is `x`. -/
def quantity? (text : String) : Option ℚ :=
  match text.toList with
  | '$' :: cs =>
    if cs.getLast? = some 'M' then (written? cs.dropLast).map (· * 10 ^ 6)
    else if cs.getLast? = some 'K' then (written? cs.dropLast).map (· * 10 ^ 3)
    else written? cs
  | _ => none

open Magnitude

theorem written?_chars {l : Layout} (coeff_lt : l.coeff < bound) (scale_le : l.scale ≤ places) :
    written? l.chars = some l.value := by
  obtain ⟨a, ha, rfl⟩ := Layout.ofChars_chars coeff_lt scale_le
  rw [written?, ha]
  rfl

theorem quantity?_of_layout {text : String} {l : Layout} {u : Magnitude}
    (h : text.toList = '$' :: (l.chars ++ u.mark)) (coeff_lt : l.coeff < bound)
    (scale_le : l.scale ≤ places) :
    quantity? text = some (l.value * 10 ^ u.power) := by
  have hw := written?_chars coeff_lt scale_le
  unfold quantity?
  rw [h]
  cases u with
  | ones =>
    have plain : ∀ {c : Char}, l.chars.getLast? = some c → c = '-' ∨ c = '.' ∨ c.isDigit = true :=
      fun hc => l.mem_chars (List.mem_of_getLast? hc)
    have hM : l.chars.getLast? ≠ some 'M' := fun hc => absurd (plain hc) (by decide)
    have hK : l.chars.getLast? ≠ some 'K' := fun hc => absurd (plain hc) (by decide)
    simp [mark, power, hM, hK, hw]
  | thousands => simp [mark, power, hw]
  | millions => simp [mark, power, hw]

theorem toList_dollars (a : Amount) : (dollars a).toList =
    '$' :: ((((ofSum a).count a).atPlaces (ofSum a).digits).chars ++ (ofSum a).mark) := by
  unfold dollars ofSum fixed
  split
  · simp [count, Magnitude.digits, mark]
  · split <;> simp [count, Magnitude.digits, mark]

theorem quantity?_dollars (a : Amount) : quantity? (dollars a) = some ((ofSum a).shown a) := by
  have hd := (ofSum a).digits_le
  have h := ((ofSum a).count a).atPlaces_fills (hd.trans (by decide))
  rw [quantity?_of_layout (toList_dollars a) h.coeff_lt (h.scale.1.1.trans hd), h.value]
  rfl

theorem dollars_congr {a b : Amount} (h : a.value = b.value) : dollars a = dollars b := by
  have hu : ofSum a = ofSum b := by
    unfold ofSum
    simp only [le_iff_value, h]
  have hn := ofSum_eq_ones_or_nonneg a
  rw [hu] at hn
  have hc : ((ofSum b).count a).value = ((ofSum b).count b).value := by
    apply le_antisymm (count_mono _ hn h.le) (count_mono _ _ h.ge)
    rwa [← h]
  rw [← String.toList_inj, toList_dollars, toList_dollars, hu,
    atPlaces_congr hc ((ofSum b).digits_le.trans (by decide))]

/-- The larger of two sums has no smaller figure, equal sums have the same one, and a figure is off by at most
half of its last digit, but for what the rounding of the count adds. -/
theorem dollars_monotone :
    (∀ a b : Amount, a ≤ b → ∃ x y, quantity? (dollars a) = some x ∧ quantity? (dollars b) = some y ∧ x ≤ y) ∧
    (∀ a b : Amount, (a == b) = true → dollars a = dollars b) ∧
    ∀ a : Amount, ∃ x, quantity? (dollars a) = some x ∧ |x - a.value| ≤
      if a.value < 1000 then 1 / 200 else if a.value < 1000000 then 500 + 1 / 10 ^ 6
        else 50000 + 1 / 10 ^ 3 := by
  refine ⟨fun a b h => ?_, fun a b h => dollars_congr (beq_iff_value.mp h),
    fun a => ⟨_, quantity?_dollars a, ?_⟩⟩
  · exact ⟨_, _, quantity?_dollars a, quantity?_dollars b, shown_ofSum_mono (le_iff_value.mp h)⟩
  · have near := (ofSum a).shown_near a
    rcases ofSum_cases a with ⟨hu, h₁⟩ | ⟨hu, h₁, h₂⟩ | ⟨hu, h₁⟩ <;> rw [hu] at near ⊢
    · rw [if_pos h₁]
      norm_num [Magnitude.digits, power] at near ⊢
      exact near
    · rw [if_neg (by decide : thousands ≠ ones)] at near
      rw [if_neg (not_lt.mpr h₁), if_pos h₂]
      norm_num [Magnitude.digits, power] at near ⊢
      exact near
    · rw [if_neg (by decide : millions ≠ ones)] at near
      rw [if_neg (by linarith), if_neg (not_lt.mpr h₁)]
      norm_num [Magnitude.digits, power] at near ⊢
      exact near

/-- `999999.999999` -/
def nearMillion : Amount := ⟨false, 999999999999, 6, by decide, by decide⟩

/-- `1000.00000` -/
def paddedThousand : Amount := ⟨false, 100000000, 5, by decide, by decide⟩

theorem dollars_monotone_switches :
    (dollars nearThousand = "$1000.00" ∧ dollars thousand = "$1K" ∧
      ∃ x y, quantity? "$1000.00" = some x ∧ quantity? "$1K" = some y ∧ x ≤ y) ∧
    (dollars nearMillion = "$1000K" ∧ dollars million = "$1.0M" ∧
      ∃ x y, quantity? "$1000K" = some x ∧ quantity? "$1.0M" = some y ∧ x ≤ y) ∧
    paddedThousand ≠ thousand ∧ dollars paddedThousand = dollars thousand := by
  obtain ⟨ordered, same, -⟩ := dollars_monotone
  have text₁ : dollars nearThousand = "$1000.00" := by decide +kernel
  have text₂ : dollars thousand = "$1K" := by decide +kernel
  have text₃ : dollars nearMillion = "$1000K" := by decide +kernel
  have text₄ : dollars million = "$1.0M" := by decide +kernel
  have switch₁ := ordered nearThousand thousand (by decide)
  have switch₂ := ordered nearMillion million (by decide)
  rw [text₁, text₂] at switch₁
  rw [text₃, text₄] at switch₂
  exact ⟨⟨text₁, text₂, switch₁⟩, ⟨text₃, text₄, switch₂⟩, by decide, same _ _ (by decide)⟩

end Figure

end YieldVault
