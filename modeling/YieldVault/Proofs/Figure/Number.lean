import Mathlib.Order.Bounds.Defs
import YieldVault.Figure
import YieldVault.Proofs.Amount.Layout

/-!
# Grouped numbers

A figure is rounded first and grouped last. The rounding fixes the value that is shown; filling up
with zeros keeps it and goes as far as the coefficient has room; the commas stand between threes that
are counted from the point. So without its commas a figure is the decimal text of the rounded value,
and it is read back as that.
-/

namespace YieldVault

open Amount

/-- `cs` is the decimal text of `x` with `k` digits behind the point. -/
structure DecimalText (x : ℚ) (k : Nat) (cs : List Char) : Prop where
  parts : ∃ whole fraction : List Char,
    cs = (if x < 0 then ['-'] else []) ++ whole ++ (if k = 0 then [] else '.' :: fraction) ∧
    whole ≠ [] ∧ (whole.head? = some '0' → whole = ['0']) ∧ fraction.length = k ∧
    Text.Digits (whole ++ fraction) ∧ (Text.number (whole ++ fraction) : ℚ) = |x| * 10 ^ k

/-- Commas cut the digits before the point into threes, of which the first may be shorter. -/
structure InThrees (cs : List Char) : Prop where
  groups : ∃ (sign first : List Char) (rest : List (List Char)) (fraction : List Char),
    cs = sign ++ [','].intercalate (first :: rest) ++ fraction ∧ (sign = [] ∨ sign = ['-']) ∧
    1 ≤ first.length ∧ first.length ≤ 3 ∧ (∀ g ∈ rest, g.length = 3) ∧ Text.Digits (first :: rest).flatten ∧
    (fraction = [] ∨ ∃ ds, fraction = '.' :: ds ∧ Text.Digits ds)

namespace Figure

/-! ## Commas -/

theorem intercalate_cons (c : Char) (first : List Char) (rest : List (List Char)) :
    [','].intercalate ((c :: first) :: rest) = c :: [','].intercalate (first :: rest) := by
  cases rest with
  | nil => simp
  | cons g gs => simp [List.intercalate_cons_cons]

/-- The length of the first group is what the threes behind it leave. -/
theorem grouped_eq (c : Char) (cs : List Char) :
    ∃ first rest, grouped (c :: cs) = [','].intercalate (first :: rest) ∧ (first :: rest).flatten = c :: cs ∧
      first.length = cs.length % 3 + 1 ∧ ∀ g ∈ rest, g.length = 3 := by
  induction cs generalizing c with
  | nil => exact ⟨[c], [], by simp [grouped], by simp, by simp, by simp⟩
  | cons d ds ih =>
    obtain ⟨first, rest, hg, hf, hl, hr⟩ := ih d
    rw [grouped]
    by_cases h : (d :: ds).length % 3 = 0
    · -- a full group stands behind, so a new one begins
      refine ⟨[c], first :: rest, ?_, ?_, ?_, ?_⟩
      · rw [if_pos ⟨h, by simp⟩, hg, List.intercalate_cons_cons]
        simp
      · rw [List.flatten_cons, hf]
        simp
      · rw [h]
        rfl
      · rw [List.forall_mem_cons]
        refine ⟨?_, hr⟩
        rw [List.length_cons] at h
        omega
    · refine ⟨c :: first, rest, ?_, ?_, ?_, hr⟩
      · rw [if_neg (fun hc => h hc.1), hg, intercalate_cons]
      · rw [List.flatten_cons, List.cons_append, ← List.flatten_cons, hf]
      · rw [List.length_cons] at h ⊢
        rw [hl, List.length_cons]
        omega

theorem filter_grouped {q : Char → Bool} (comma : q ',' = false) {ds : List Char} (h : ∀ c ∈ ds, q c = true) :
    (grouped ds).filter q = ds := by
  induction ds with
  | nil => rfl
  | cons c ds ih =>
    have hc := h c (by simp)
    have hds := ih fun x hx => h x (by simp [hx])
    unfold grouped
    split <;> simp [hc, comma, hds]

end Figure

namespace Layout

variable (l : Layout)

theorem abs_value_mul_pow : |l.value| * 10 ^ l.scale = l.coeff := by
  have hp : (10 : ℚ) ^ l.scale ≠ 0 := by positivity
  rw [l.abs_value, decimal, if_neg Bool.false_ne_true, div_mul_cancel₀ _ hp]

theorem decimalText_chars {l : Layout} (sign : l.negative = true ↔ l.value < 0) :
    DecimalText l.value l.scale l.chars := by
  refine ⟨l.integerDigits, l.fractionDigits, ?_, Text.digits_ne_nil _, fun h => ?_, l.length_fractionDigits,
    l.digits_digits, ?_⟩
  · unfold chars Layout.sign fraction
    simp only [sign]
  · obtain ⟨ds, hds⟩ := List.head?_eq_some_iff.mp h
    rw [hds, Text.eq_nil_of_digits_eq_cons hds]
  · rw [l.number_digits, l.abs_value_mul_pow]

theorem inThrees_grouped : InThrees (l.sign ++ Figure.grouped l.integerDigits ++ l.fraction) := by
  obtain ⟨c, cs, hcs, _⟩ := Text.digits_eq_cons (l.coeff / tenPow l.scale)
  have hi : l.integerDigits = c :: cs := hcs
  obtain ⟨first, rest, hg, hf, hl, hr⟩ := Figure.grouped_eq c cs
  refine ⟨l.sign, first, rest, l.fraction, by rw [hi, hg], ?_, by omega, by omega, hr, ?_, ?_⟩
  · unfold sign
    cases l.negative <;> simp
  · rw [hf, ← hi]
    exact l.digits_integerDigits
  · unfold fraction
    split
    · exact .inl rfl
    · exact .inr ⟨_, rfl, l.digits_fractionDigits⟩

theorem filter_comma_grouped :
    (l.sign ++ Figure.grouped l.integerDigits ++ l.fraction).filter (· ≠ ',') = l.chars := by
  have plain : ∀ {ds : List Char}, Text.Digits ds → ∀ c ∈ ds, decide (c ≠ ',') = true := by
    intro ds h c hc
    exact decide_eq_true (ne_of_mem_of_not_mem hc (h.notMem (by decide)))
  have hi := Figure.filter_grouped (q := (· ≠ ',')) (by decide) (plain l.digits_integerDigits)
  have hs : l.sign.filter (· ≠ ',') = l.sign := by
    unfold sign
    cases l.negative <;> rfl
  have hf : l.fraction.filter (· ≠ ',') = l.fraction := by
    unfold fraction
    split
    · rfl
    · rw [List.filter_cons_of_pos (by decide), List.filter_eq_self.mpr (plain l.digits_fractionDigits)]
  rw [List.filter_append, List.filter_append, hs, hi, hf]
  rfl

theorem sanitizeChars_grouped :
    Entry.sanitizeChars (l.sign ++ Figure.grouped l.integerDigits ++ l.fraction) =
      l.integerDigits ++ l.fraction := by
  apply l.sanitizeChars_dressed
  apply Figure.filter_grouped
  · decide
  · intro c hc
    rw [l.digits_integerDigits c hc]
    rfl

/-! ## Zeros behind the last digit -/

theorem widen_eq (n : Nat) :
    ∃ j ≤ n, l.widen n = ⟨l.negative, l.coeff * tenPow j, l.scale + j⟩ ∧
      (l.coeff < bound → l.coeff * tenPow j < bound) ∧ (j < n → bound ≤ l.coeff * tenPow (j + 1)) := by
  induction n generalizing l with
  | zero => exact ⟨0, le_rfl, by simp [widen, tenPow_zero], by simp [tenPow_zero], by simp⟩
  | succ n ih =>
    unfold widen
    split
    · rename_i h
      obtain ⟨j, hj, he, hlt, hfull⟩ := ih ⟨l.negative, l.coeff * 10, l.scale + 1⟩
      have hmul : ∀ i, l.coeff * 10 * tenPow i = l.coeff * tenPow (i + 1) := by
        intro i
        rw [tenPow_succ, Nat.mul_assoc, Nat.mul_comm 10]
      simp only [hmul] at he hlt hfull
      refine ⟨j + 1, by omega, ?_, fun _ => hlt h, fun hn => hfull (by omega)⟩
      rw [he, Nat.add_assoc, Nat.add_comm 1]
    · rename_i h
      exact ⟨0, Nat.zero_le _, by simp [tenPow_zero], by simp [tenPow_zero], fun _ => not_lt.mp h⟩

theorem fits_of_lt {l : Layout} (coeff_lt : l.coeff < bound) (scale_le : l.scale ≤ maxScale) :
    l.fits = true := by
  have hs : l.scale ≤ 28 := scale_le
  have hw : l.integerDigits.length ≤ 29 - l.scale := by
    refine (Nat.length_toDigits_le_iff (by decide) (by omega)).mpr (Nat.div_lt_of_lt_mul ?_)
    calc l.coeff < 10 ^ 29 := coeff_lt.trans (by decide)
      _ = tenPow l.scale * 10 ^ (29 - l.scale) := by
        rw [tenPow, Nat.pow_eq, ← Nat.pow_add, Nat.add_sub_cancel' (by omega)]
  have hf : l.fraction.length ≤ l.scale + 1 := by
    unfold fraction
    split
    · simp
    · rw [List.length_cons, l.length_fractionDigits]
  unfold fits
  rw [decide_eq_true_eq, List.length_append]
  omega

/-- `l` shows `x` with up to `d` digits behind the point, as many as there is room for. -/
structure Fills (x : ℚ) (d : Nat) (l : Layout) : Prop where
  value : l.value = x
  sign : l.negative = true ↔ x < 0
  scale : IsGreatest {j | j ≤ d ∧ |x| * 10 ^ j < bound} l.scale

theorem Fills.coeff_lt {x : ℚ} {d : Nat} {l : Layout} (h : l.Fills x d) : l.coeff < bound := by
  have hlt := h.scale.1.2
  rw [← h.value, l.abs_value_mul_pow] at hlt
  exact_mod_cast hlt

end Layout

namespace Amount

theorem scale_round_le (a : Amount) (p : Nat) : (a.round p).scale ≤ p := by
  unfold round reduce
  split
  · rename_i h
    exact h
  · exact le_rfl

theorem atPlaces_fills (a : Amount) {d : Nat} (hd : d ≤ maxScale) :
    (a.atPlaces d).Fills (halfAway d a.value) d := by
  have hs := a.scale_round_le d
  rw [← value_round]
  unfold atPlaces
  generalize a.round d = r at hs ⊢
  dsimp only
  split
  · rename_i hz
    rw [value_of_isZero hz, min_eq_left hd]
    refine ⟨decimal_zero .., by simp, ⟨le_rfl, ?_⟩, fun j hj => hj.1⟩
    rw [abs_zero, zero_mul]
    exact Nat.cast_pos.mpr (by decide)
  · rename_i hz
    obtain ⟨j, hj, he, hlt, hfull⟩ := r.layout.widen_eq (d - r.scale)
    have hv : decimal r.negative (r.coeff * tenPow j) (r.scale + j) = r.value := decimal_mul_tenPow ..
    have hpow : ∀ i, |r.value| * 10 ^ (r.scale + i) = (r.coeff * tenPow i : ℕ) := by
      intro i
      rw [pow_add, ← mul_assoc, abs_value_mul_pow, Nat.cast_mul, tenPow_cast]
    rw [he]
    refine ⟨hv, ?_, ⟨show r.scale + j ≤ d by omega, ?_⟩, ?_⟩
    · rw [← isNegative_iff]
      simp [isNegative, hz, layout]
    · show |r.value| * 10 ^ (r.scale + j) < bound
      rw [hpow]
      exact_mod_cast hlt r.coeff_lt
    · rintro i ⟨hi, room⟩
      by_contra hc
      have hlong : r.scale + (j + 1) ≤ i := not_le.mp hc
      -- the next zero already had no room
      have hnext : (bound : ℚ) ≤ |r.value| * 10 ^ (r.scale + (j + 1)) := by
        rw [hpow]
        exact_mod_cast hfull (by omega)
      have hmono : |r.value| * 10 ^ (r.scale + (j + 1)) ≤ |r.value| * 10 ^ i := by
        gcongr
        norm_num
      linarith

end Amount

namespace Figure

theorem toList_number (a : Amount) (d : Nat) : (number a d).toList =
    (a.atPlaces d).sign ++ grouped (a.atPlaces d).integerDigits ++ (a.atPlaces d).fraction :=
  String.toList_ofList

theorem number?_eq (a : Amount) {d : Nat} (hd : d ≤ maxScale) : number? a d = some (number a d) := by
  have h := a.atPlaces_fills hd
  unfold number? fixed?
  rw [if_pos (Layout.fits_of_lt h.coeff_lt (h.scale.1.1.trans hd))]
  rfl

theorem ofText_number (a : Amount) {d : Nat} (hd : d ≤ places) :
    ∃ b, Entry.ofText (number a d) = .value b ∧ b.value = |halfAway d a.value| := by
  have h := a.atPlaces_fills (hd.trans (by decide))
  obtain ⟨b, hread, hv⟩ := Layout.entry_of_sanitized h.coeff_lt (Layout.sanitizeChars_grouped _)
  have grid : OnGrid places |(a.atPlaces d).value| := by
    rw [Layout.abs_value]
    exact (onGrid_decimal ..).mono (h.scale.1.1.trans hd)
  refine ⟨b, ?_, ?_⟩
  · rw [Entry.ofText, toList_number, hread]
  · rw [hv, cutDown_of_onGrid grid, h.value]

/-- A figure with `d` digits shows the amount rounded to `d` digits, with as many of them as there is room
for, and is read back as the magnitude of what it shows. -/
theorem number_shows_rounded (a : Amount) {d : Nat} (hd : d ≤ 28) :
    number? a d = some (number a d) ∧
      ∃ k, DecimalText (halfAway d a.value) k ((number a d).toList.filter (· ≠ ',')) ∧
        InThrees (number a d).toList ∧
        IsGreatest {j | j ≤ d ∧ |halfAway d a.value| * 10 ^ j < 2 ^ 96} k ∧
        (d ≤ 9 → ∃ b, Entry.ofText (number a d) = .value b ∧ b.value = |(a.round d).value|) := by
  have h := a.atPlaces_fills hd
  have hb : (bound : ℚ) = 2 ^ 96 := by norm_num [bound]
  refine ⟨number?_eq a hd, (a.atPlaces d).scale, ?_, ?_, hb ▸ h.scale, fun hplaces => ?_⟩
  · rw [toList_number, Layout.filter_comma_grouped, ← h.value]
    exact Layout.decimalText_chars (by rw [h.value]; exact h.sign)
  · rw [toList_number]
    exact Layout.inThrees_grouped _
  · rw [value_round]
    exact ofText_number a hplaces

/-- `999.995` -/
def nearThousand : Amount := ⟨false, 999995, 3, by decide, by decide⟩

/-- A coefficient that leaves no room for a zero behind it. -/
def crowded : Amount := ⟨true, 79228162514264337593543950334, 1, by decide, by decide⟩

theorem number_shows_rounded_examples :
    (number? nearThousand 2 = some "1,000.00" ∧
      ∃ b, Entry.ofText "1,000.00" = .value b ∧ b.value = |(nearThousand.round 2).value|) ∧
    number? crowded 3 = some "-7,922,816,251,426,433,759,354,395,033.4" ∧
      ∃ k, DecimalText (halfAway 3 crowded.value) k "-7922816251426433759354395033.4".toList ∧
        IsGreatest {j | j ≤ 3 ∧ |halfAway 3 crowded.value| * 10 ^ j < 2 ^ 96} k := by
  have text : number nearThousand 2 = "1,000.00" := by decide +kernel
  have text' : number crowded 3 = "-7,922,816,251,426,433,759,354,395,033.4" := by decide +kernel
  have bare : (number crowded 3).toList.filter (· ≠ ',') = "-7922816251426433759354395033.4".toList := by
    rw [text']
    decide +kernel
  obtain ⟨shown, k, _, _, _, back⟩ := number_shows_rounded nearThousand (d := 2) (by decide)
  obtain ⟨shown', k', plain, _, most, _⟩ := number_shows_rounded crowded (d := 3) (by decide)
  rw [text] at shown back
  rw [text'] at shown'
  rw [bare] at plain
  exact ⟨⟨shown, back (by decide)⟩, shown', k', plain, most⟩

end Figure

end YieldVault
