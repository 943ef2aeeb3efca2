import YieldVault.Entry
import YieldVault.Proofs.Amount.Reader

/-!
# The lenient reader

A typed text counts as far as it starts like a number: the digits before its first point and the first nine
between that point and the next. What is read never fails for any other reason than its size, and it is the
same whether the text was sanitized before or not.
-/

namespace YieldVault

namespace Amount

variable {cs whole fraction : List Char} {c : Char}

theorem Splits.mem_whole (h : Splits cs whole fraction) (hc : c ∈ whole) : c ∈ cs ∧ c ≠ '.' := by
  cases h with
  | whole h => exact ⟨hc, ne_of_mem_of_not_mem hc h⟩
  | point h fraction => exact ⟨List.mem_append_left _ hc, ne_of_mem_of_not_mem hc h⟩

theorem Splits.mem_fraction (h : Splits cs whole fraction) (hc : c ∈ fraction) : c ∈ cs := by
  cases h with
  | whole h => cases hc
  | point h fraction => exact List.mem_append_right _ (List.mem_cons_of_mem _ hc)

end Amount

namespace Entry

/-! ## Sanitized text -/

theorem mem_sanitizeChars {cs : List Char} {c : Char} (h : c ∈ sanitizeChars cs) (hc : c ≠ '.') :
    c.isDigit = true := by
  unfold sanitizeChars at h
  simpa [hc] using (List.mem_filter.mp h).2

theorem sanitizeChars_sanitizeChars (cs : List Char) :
    sanitizeChars (sanitizeChars cs) = sanitizeChars cs := by
  unfold sanitizeChars
  rw [List.filter_filter]
  simp

theorem toList_sanitize (raw : String) : (sanitize raw).toList = sanitizeChars raw.toList :=
  String.toList_ofList

theorem ofText_sanitize (raw : String) : ofText (sanitize raw) = ofText raw := by
  unfold ofText ofChars parts
  rw [toList_sanitize, sanitizeChars_sanitizeChars]

/-! ## The numeric start -/

/-- What stands before the first point, and at most nine characters of what stands between it
and the second. -/
structure Starts (cs whole fraction : List Char) : Prop where
  cut : ∃ rest between beyond,
    Amount.Splits cs whole rest ∧ Amount.Splits rest between beyond ∧ fraction = between.take 9

theorem starts_parts (cs : List Char) : Starts (sanitizeChars cs) (parts cs).1 (parts cs).2 :=
  ⟨_, _, _, Amount.splits_splitPoint _, Amount.splits_splitPoint _, rfl⟩

section
variable {cs whole fraction : List Char}

theorem Starts.eq (h : Starts (sanitizeChars cs) whole fraction) : parts cs = (whole, fraction) := by
  obtain ⟨rest, between, beyond, first, second, rfl⟩ := h
  have hb : rest.takeWhile (· ≠ '.') = between := congrArg Prod.fst second.eq
  unfold parts
  rw [first.eq]
  simp only [hb]
  rfl

theorem Starts.digits (h : Starts (sanitizeChars cs) whole fraction) : Text.Digits (whole ++ fraction) := by
  obtain ⟨rest, between, beyond, first, second, rfl⟩ := h
  intro c hc
  rcases List.mem_append.mp hc with hc | hc
  · obtain ⟨hmem, hne⟩ := first.mem_whole hc
    exact mem_sanitizeChars hmem hne
  · obtain ⟨hmem, hne⟩ := second.mem_whole (List.mem_of_mem_take hc)
    exact mem_sanitizeChars (first.mem_fraction hmem) hne

theorem Starts.length_le (h : Starts cs whole fraction) : fraction.length ≤ 9 := by
  obtain ⟨rest, between, beyond, first, second, rfl⟩ := h
  exact List.length_take_le 9 between

end

/-! ## What it comes to -/

/-- The entry that `whole` before and `fraction` behind the point write: only a number too
large is invalid. -/
structure Reads (entry : Entry) (whole fraction : List Char) : Prop where
  digits : Text.Digits (whole ++ fraction)
  value : Text.number (whole ++ fraction) < 2 ^ 96 →
    ∃ a, entry = .value a ∧ a.negative = false ∧ a.coeff = Text.number (whole ++ fraction) ∧
      a.scale = fraction.length
  invalid : 2 ^ 96 ≤ Text.number (whole ++ fraction) → entry = .invalid

theorem ofParts_parts (cs : List Char) :
    (∃ a, Amount.ofParts (parts cs).1 (parts cs).2 = .ok a) ∨
      Amount.ofParts (parts cs).1 (parts cs).2 = .error .overflow := by
  have hstart := starts_parts cs
  cases hr : Amount.ofParts (parts cs).1 (parts cs).2 with
  | ok a => exact .inl ⟨a, rfl⟩
  | error e =>
    have h := Amount.ofParts_assembles (parts cs).1 (parts cs).2
    rw [hr] at h
    -- digits alone, and at most nine behind the point, leave one error
    cases h with
    | invalidDigit other => exact absurd hstart.digits other
    | tooManyDecimals digits long => exact absurd hstart.length_le (not_le.mpr long)
    | overflow digits short large => exact .inr rfl

theorem reads_ofChars (cs : List Char) : Reads (ofChars cs) (parts cs).1 (parts cs).2 := by
  have h := Amount.ofParts_assembles (parts cs).1 (parts cs).2
  unfold ofChars
  rcases ofParts_parts cs with ⟨a, hr⟩ | hr
  · rw [hr] at h ⊢
    cases h with
    | ok digits short sign coeff scale =>
      refine ⟨digits, fun _ => ⟨a, rfl, sign, coeff, scale⟩, fun hlarge => ?_⟩
      have hc : Text.number ((parts cs).1 ++ (parts cs).2) < 2 ^ 96 := coeff ▸ a.coeff_lt
      exact absurd hc (not_lt.mpr hlarge)
  · rw [hr] at h ⊢
    cases h with
    | overflow digits short large => exact ⟨digits, fun hlt => absurd hlt (not_lt.mpr large), fun _ => rfl⟩

/-- The lenient reader reads the numeric start of what is left when the text is sanitized, and
that exactly. -/
theorem lenient_reader_reads_start (raw : String) :
    (∃ whole fraction, Starts (sanitize raw).toList whole fraction) ∧
      (∀ whole fraction, Starts (sanitize raw).toList whole fraction → Reads (ofText raw) whole fraction) ∧
      ofText (sanitize raw) = ofText raw ∧
      ∀ e, Amount.ofParts (parts raw.toList).1 (parts raw.toList).2 = .error e → e = .overflow := by
  rw [toList_sanitize]
  refine ⟨⟨_, _, starts_parts raw.toList⟩, fun whole fraction h => ?_, ofText_sanitize raw, fun e he => ?_⟩
  · have hr := reads_ofChars raw.toList
    rw [h.eq] at hr
    exact hr
  · rcases ofParts_parts raw.toList with ⟨a, hr⟩ | hr
    · rw [hr] at he
      cases he
    · rw [hr] at he
      cases he
      rfl

theorem lenient_reader_reads_start_typed :
    ∃ a, ofText "-1,2.3456789015.6 €" = .value a ∧ a.negative = false ∧ a.coeff = 12345678901 ∧
      a.scale = 9 := by
  have hone : '.' ∉ "12".toList := by decide
  have htwo : '.' ∉ "3456789015".toList := by decide
  have hstart : Starts (sanitize "-1,2.3456789015.6 €").toList "12".toList "345678901".toList :=
    ⟨_, _, _, .point hone _, .point htwo "6".toList, rfl⟩
  exact ((lenient_reader_reads_start _).2.1 _ _ hstart).value (by decide)

end Entry

end YieldVault
