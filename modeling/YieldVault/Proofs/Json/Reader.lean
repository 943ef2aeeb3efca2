import YieldVault.Json.Reader
import YieldVault.Proofs.Text.Numeral

/-!
# Written JSON is read back

A value is written as a list of elements, each of which the scanner finds again, and the elements lead the
reader's machine to the value. Only counts and texts are written by records, so numbers are taken to be
written without sign, fraction and exponent, and strings to have a text.
-/

namespace YieldVault.Json

/-! ## String literals -/

/-- The piece stands for the character. -/
def Piece.Spells (c : Char) : Piece → Prop
  | .char d => d = c
  | .unit u => u = c.toNat ∧ u < 32

theorem joined_cons {p : Piece} {c : Char} (h : p.Spells c) (ps : List Piece) :
    joined (p :: ps) = (joined ps).map (c :: ·) := by
  cases p with
  | char d =>
    cases h
    rfl
  | unit u =>
    obtain ⟨rfl, hu⟩ := h
    have hhigh : isHighSurrogate c.toNat = false := by simp [isHighSurrogate]; omega
    have hlow : isLowSurrogate c.toNat = false := by simp [isLowSurrogate]; omega
    have hc : Char.ofNat c.toNat = c := Char.ofNat_toNat c
    cases ps with
    | nil => simp [joined, hhigh, hlow, hc]
    | cons q ps => cases q <;> simp [joined, hhigh, hlow, hc]

theorem hexDigits_control : ∀ n < 32,
    (Text.hexDigits n).leftpad 4 '0' = ['0', '0', Nat.digitChar (n / 16), Nat.digitChar (n % 16)] := by decide

theorem unitOf_control :
    ∀ n < 32, unitOf '0' '0' (Nat.digitChar (n / 16)) (Nat.digitChar (n % 16)) = some n := by decide

theorem pieces_short {e c : Char} (h : shortEscape e = some c) (rest : List Char) :
    pieces ('\\' :: e :: rest) = (pieces rest).map fun x => (.char c :: x.1, x.2) := by
  have hu : e ≠ 'u' := by rintro rfl; cases h
  rw [pieces]
  · simp only [h]
    cases pieces rest <;> rfl
  · intro _ _ _ _ _ he _
    exact hu he

theorem pieces_control {n : Nat} (h : n < 32) (rest : List Char) :
    pieces ('\\' :: 'u' :: '0' :: '0' :: Nat.digitChar (n / 16) :: Nat.digitChar (n % 16) :: rest) =
      (pieces rest).map fun x => (.unit n :: x.1, x.2) := by
  rw [pieces]
  simp only [unitOf_control n h]
  cases pieces rest <;> rfl

theorem pieces_plain {c : Char} (hq : c ≠ '"') (hb : c ≠ '\\') (hc : ¬ c.toNat < 32) (rest : List Char) :
    pieces (c :: rest) = (pieces rest).map fun x => (.char c :: x.1, x.2) := by
  rw [pieces]
  · rw [if_neg (by simp [hc, hb])]
    cases pieces rest <;> rfl
  · exact hq
  · intro _ _ _ _ _ he _
    exact hb he
  · intro _ _ he _
    exact hb he

theorem pieces_escaped (c : Char) (rest : List Char) :
    ∃ p : Piece, p.Spells c ∧ pieces (escaped c ++ rest) = (pieces rest).map fun x => (p :: x.1, x.2) := by
  have short : ∀ e, shortEscape e = some c →
      ∃ p : Piece, p.Spells c ∧ pieces (['\\', e] ++ rest) = (pieces rest).map fun x => (p :: x.1, x.2) :=
    fun e he => ⟨.char c, rfl, pieces_short he rest⟩
  have byCode : ∀ n, c.toNat = n → c = Char.ofNat n := fun n hn => by rw [← hn, Char.ofNat_toNat]
  unfold escaped
  split
  · rename_i h
    apply short
    rcases h with rfl | rfl <;> rfl
  · rename_i hq
    split
    · rename_i h
      exact short 'n' (by rw [h]; rfl)
    · split
      · rename_i h
        exact short 'r' (by rw [h]; rfl)
      · split
        · rename_i h
          exact short 't' (by rw [h]; rfl)
        · split
          · rename_i h
            exact short 'b' (by rw [byCode 8 h]; rfl)
          · split
            · rename_i h
              exact short 'f' (by rw [byCode 12 h]; rfl)
            · split
              · rename_i h
                rw [hexDigits_control c.toNat h]
                exact ⟨.unit c.toNat, ⟨rfl, h⟩, pieces_control h rest⟩
              · rename_i h
                exact ⟨.char c, rfl, pieces_plain (fun hc => hq (.inl hc)) (fun hc => hq (.inr hc)) h rest⟩

theorem pieces_text (s rest : List Char) :
    ∃ ps, pieces (s.flatMap escaped ++ '"' :: rest) = some (ps, rest) ∧ joined ps = some s := by
  induction s with
  | nil => exact ⟨[], by simp [pieces], rfl⟩
  | cons c s ih =>
    obtain ⟨ps, hps, hj⟩ := ih
    obtain ⟨p, hp, he⟩ := pieces_escaped c (s.flatMap escaped ++ '"' :: rest)
    refine ⟨p :: ps, ?_, ?_⟩
    · rw [List.flatMap_cons, List.append_assoc, he, hps]
      rfl
    · rw [joined_cons hp, hj]
      rfl

/-! ## Elements -/

/-- An element as records are written with. -/
def Token.Plain : Token → Prop
  | .mark c => isMark c = true
  | .number literal => ∃ n, literal = Text.digits n
  | .text s => ∃ t, s = some t
  | _ => True

/-- No number goes on here. -/
def NumberEnds (cs : List Char) : Prop := ∀ c ∈ cs.head?, c.isDigit = false ∧ c ≠ '.' ∧ c ≠ 'e' ∧ c ≠ 'E'

theorem isMark_cases {c : Char} (h : isMark c = true) :
    c = '[' ∨ c = ']' ∨ c = ',' ∨ c = ':' ∨ c = Char.ofNat 0x7b ∨ c = Char.ofNat 0x7d := by
  have hcode : ∀ n, c.toNat = n → c = Char.ofNat n := fun n hn => by rw [← hn, Char.ofNat_toNat]
  simp only [isMark, Bool.or_eq_true, beq_iff_eq, or_assoc] at h
  rcases h with h | h | h | h | h | h
  · exact .inl h
  · exact .inr (.inl h)
  · exact .inr (.inr (.inl h))
  · exact .inr (.inr (.inr (.inl h)))
  · exact .inr (.inr (.inr (.inr (.inl (hcode _ h)))))
  · exact .inr (.inr (.inr (.inr (.inr (hcode _ h)))))

theorem wholePart_digits (n : Nat) {rest : List Char} (hr : NumberEnds rest) :
    wholePart (Text.digits n ++ rest) = some (Text.digits n, rest) := by
  have hd : ∀ c ∈ Text.digits n, c.isDigit = true := fun c hc => Text.isDigit_of_mem_digits hc
  have hno : Text.NoDigit rest := fun c hc => (hr c hc).1
  have hsome : someDigits (Text.digits n ++ rest) = some (Text.digits n, rest) := by
    unfold someDigits
    rw [Text.takeWhile_isDigit hd hno, Text.dropWhile_isDigit hd hno]
    split
    · rename_i he
      exact absurd he (Text.digits_ne_nil n)
    · rfl
  unfold wholePart
  rw [hsome]
  split
  · rename_i he
    cases Text.eq_nil_of_digits_eq_cons (Prod.mk.inj (Option.some.inj he)).1
  · rfl

theorem fractionPart_end {cs : List Char} (h : NumberEnds cs) : fractionPart cs = some ([], cs) := by
  unfold fractionPart
  split
  · exact absurd rfl (h '.' rfl).2.1
  · rfl

theorem exponentPart_end {cs : List Char} (h : NumberEnds cs) : exponentPart cs = some ([], cs) := by
  unfold exponentPart
  split
  · rename_i e cs
    have he := (h e rfl).2.2
    rw [if_neg (by simp [he])]
  · rfl

theorem numberLiteral_digits (n : Nat) {rest : List Char} (hr : NumberEnds rest) :
    numberLiteral (Text.digits n ++ rest) = some (Text.digits n, rest) := by
  have hw := wholePart_digits n hr
  have hminus : ∀ cs, Text.digits n ++ rest ≠ '-' :: cs := by
    intro cs he
    obtain ⟨c, ds, hcs, hc⟩ := Text.digits_eq_cons n
    rw [hcs] at he
    cases he
    cases hc
  unfold numberLiteral
  generalize Text.digits n ++ rest = cs at hw hminus
  dsimp only
  split
  · exact absurd rfl (hminus _)
  · simp [hw, fractionPart_end hr, exponentPart_end hr]

theorem nextToken_digit {c : Char} (hc : c.isDigit = true) (cs : List Char) :
    nextToken (c :: cs) = (numberLiteral (c :: cs)).map fun x => (.number x.1, x.2) := by
  have hm : isMark c = false := by
    apply Bool.eq_false_iff.mpr
    intro hmark
    rcases isMark_cases hmark with rfl | rfl | rfl | rfl | rfl | rfl <;> cases hc
  unfold nextToken
  split
  · rename_i he
    cases he
    cases hc
  · rename_i he
    cases he
    cases hc
  · rename_i he
    cases he
    cases hc
  · rename_i he
    cases he
    cases hc
  · rename_i he
    cases he
    rw [hm]
    rfl
  · rename_i he
    cases he

theorem nextToken_chars {t : Token} (h : t.Plain) {rest : List Char}
    (hr : ∀ l, t = .number l → NumberEnds rest) :
    nextToken (t.chars ++ rest) = some (t, rest) := by
  cases t with
  | null => rfl
  | bool b => cases b <;> rfl
  | mark c => rcases isMark_cases h with rfl | rfl | rfl | rfl | rfl | rfl <;> rfl
  | text s =>
    obtain ⟨s, rfl⟩ := h
    obtain ⟨ps, hps, hj⟩ := pieces_text s.toList rest
    show nextToken ('"' :: (s.toList.flatMap escaped ++ ['"'] ++ rest)) = _
    rw [List.append_assoc]
    simp [nextToken, hps, hj]
  | number literal =>
    obtain ⟨n, rfl⟩ := h
    have hn := numberLiteral_digits n (hr _ rfl)
    obtain ⟨c, cs, hcs, hc⟩ := Text.digits_eq_cons n
    show nextToken (Text.digits n ++ rest) = some (.number (Text.digits n), rest)
    rw [hcs, List.cons_append] at hn ⊢
    rw [nextToken_digit hc, hn]
    rfl

/-- An element starts with a character that is no blank. -/
theorem chars_eq_cons {t : Token} (h : t.Plain) : ∃ c cs, t.chars = c :: cs ∧ isSpace c = false := by
  cases t with
  | null => exact ⟨_, _, rfl, rfl⟩
  | bool b => cases b <;> exact ⟨_, _, rfl, rfl⟩
  | mark c =>
    refine ⟨c, [], rfl, ?_⟩
    rcases isMark_cases h with rfl | rfl | rfl | rfl | rfl | rfl <;> rfl
  | text s =>
    obtain ⟨s, rfl⟩ := h
    exact ⟨_, _, rfl, rfl⟩
  | number literal =>
    obtain ⟨n, rfl⟩ := h
    obtain ⟨c, cs, hcs, hc⟩ := Text.digits_eq_cons n
    refine ⟨c, cs, hcs, ?_⟩
    apply Bool.eq_false_iff.mpr
    intro hs
    simp only [isSpace, Bool.or_eq_true, beq_iff_eq] at hs
    rcases hs with ((rfl | rfl) | rfl) | rfl <;> cases hc

/-! ## Scanning -/

/-- The text consists of these elements. -/
def Scans (cs : List Char) (ts : List Token) : Prop := ∀ n, cs.length ≤ n → scanWithin n cs = some ts

theorem scans_nil : Scans [] [] := by
  intro n _
  cases n <;> rfl

theorem Scans.cons {t : Token} (h : t.Plain) {rest : List Char} {ts : List Token}
    (hr : ∀ l, t = .number l → NumberEnds rest) (hs : Scans rest ts) : Scans (t.chars ++ rest) (t :: ts) := by
  intro n hn
  have hnext := nextToken_chars h hr
  obtain ⟨c, cs, hc, hspace⟩ := chars_eq_cons h
  rw [hc, List.cons_append] at hn hnext ⊢
  cases n with
  | zero => cases hn
  | succ n =>
    have hlen : rest.length ≤ n := by
      simp only [List.length_cons, List.length_append] at hn
      omega
    simp [scanWithin, hspace, hnext, hs n hlen]

theorem numberEnds_mark {c : Char} (h : isMark c = true) (cs : List Char) : NumberEnds (c :: cs) := by
  intro d hd
  cases hd
  rcases isMark_cases h with rfl | rfl | rfl | rfl | rfl | rfl <;> decide

theorem Scans.mark {c : Char} (h : isMark c = true) {rest : List Char} {ts : List Token}
    (hs : Scans rest ts) :
    Scans (c :: rest) (.mark c :: ts) :=
  Scans.cons (t := .mark c) h (fun l hl => by cases hl) hs

mutual

/-- A value is scanned as its elements, up to a place where no number goes on. -/
theorem scans_tokens (j : Json) (h : ∀ t ∈ tokens j, t.Plain) {rest : List Char} {ts : List Token}
    (hr : NumberEnds rest) (hs : Scans rest ts) :
    Scans ((tokens j).flatMap Token.chars ++ rest) (tokens j ++ ts) := by
  have atom : ∀ t, tokens j = [t] → Scans ((tokens j).flatMap Token.chars ++ rest) (tokens j ++ ts) := by
    intro t ht
    rw [ht] at h ⊢
    simpa using Scans.cons (h t (by simp)) (fun _ _ => hr) hs
  cases j with
  | null => exact atom _ rfl
  | bool b => exact atom _ rfl
  | number literal => exact atom _ rfl
  | text s => exact atom _ rfl
  | array items =>
    simp only [tokens] at h ⊢
    have inner := scans_itemTokens items (fun t ht => h t (by simp [ht])) (numberEnds_mark (by decide) rest)
      (hs.mark (c := ']') (by decide))
    simpa [Token.chars] using inner.mark (c := '[') (by decide)
  | object members =>
    simp only [tokens] at h ⊢
    have inner :=
      scans_memberTokens members (fun t ht => h t (by simp [ht])) (numberEnds_mark (by decide) rest)
      (hs.mark (c := Char.ofNat 0x7d) (by decide))
    simpa [Token.chars, openBrace, closeBrace] using inner.mark (c := Char.ofNat 0x7b) (by decide)

theorem scans_itemTokens (items : List Json) (h : ∀ t ∈ itemTokens items, t.Plain) {rest : List Char}
    {ts : List Token} (hr : NumberEnds rest) (hs : Scans rest ts) :
    Scans ((itemTokens items).flatMap Token.chars ++ rest) (itemTokens items ++ ts) := by
  cases items with
  | nil => exact hs
  | cons j items =>
    cases items with
    | nil => exact scans_tokens j h hr hs
    | cons k items =>
      simp only [itemTokens] at h ⊢
      have later := scans_itemTokens (k :: items) (fun t ht => h t (by simp [ht])) hr hs
      simpa [Token.chars] using scans_tokens j (fun t ht => h t (by simp [ht]))
        (numberEnds_mark (by decide) _)
        (later.mark (c := ',') (by decide))

theorem scans_memberTokens (members : List (Option String × Json)) (h : ∀ t ∈ memberTokens members, t.Plain)
    {rest : List Char} {ts : List Token} (hr : NumberEnds rest) (hs : Scans rest ts) :
    Scans ((memberTokens members).flatMap Token.chars ++ rest) (memberTokens members ++ ts) := by
  cases members with
  | nil => exact hs
  | cons member members =>
    obtain ⟨name, j⟩ := member
    cases members with
    | nil =>
      simp only [memberTokens] at h ⊢
      have value := scans_tokens j (fun t ht => h t (by simp [ht])) hr hs
      simpa [Token.chars] using Scans.cons (h (.text name) (by simp)) (fun l hl => by cases hl)
        (value.mark (c := ':') (by decide))
    | cons other members =>
      simp only [memberTokens] at h ⊢
      have later := scans_memberTokens (other :: members) (fun t ht => h t (by simp [ht])) hr hs
      have value := scans_tokens j (fun t ht => h t (by simp [ht])) (numberEnds_mark (by decide) _)
        (later.mark (c := ',') (by decide))
      simpa [Token.chars] using Scans.cons (h (.text name) (by simp)) (fun l hl => by cases hl)
        (value.mark (c := ':') (by decide))

end

/-! ## The machine -/

theorem tokens_eq_cons (j : Json) : ∃ t ts, tokens j = t :: ts ∧ t ≠ .mark ']' := by
  cases j with
  | object members => exact ⟨openBrace, _, rfl, by unfold openBrace; simp⟩
  | _ => exact ⟨_, _, rfl, by simp⟩

theorem itemTokens_eq_cons (j : Json) (items : List Json) :
    ∃ t ts, itemTokens (j :: items) = t :: ts ∧ t ≠ .mark ']' := by
  obtain ⟨t, ts, ht, hne⟩ := tokens_eq_cons j
  cases items with
  | nil => exact ⟨t, ts, ht, hne⟩
  | cons k items => exact ⟨t, _, by rw [itemTokens, ht]; rfl; simp, hne⟩

theorem memberTokens_eq_cons (member : Option String × Json) (members : List (Option String × Json)) :
    ∃ name ts, memberTokens (member :: members) = .text name :: ts := by
  cases members <;> exact ⟨_, _, rfl⟩

/-- In an array that has just been opened, a value is read as in the middle of one. -/
theorem step_itemOrEnd {t : Token} (h : t ≠ .mark ']') (frames : List Frame) :
    step (.array [] :: frames, .itemOrEnd) t = step (.array [] :: frames, .value) t := by
  rw [step, step]
  intro _ ht _
  exact h ht

mutual

/-- The elements of a value lead from where a value is expected to where it has been read. -/
theorem run_tokens (j : Json) (frames : List Frame) (ts : List Token) :
    (tokens j ++ ts).foldlM step (frames, .value) = ts.foldlM step (frames, .after j) := by
  cases j with
  | null => rfl
  | bool b => rfl
  | number literal => rfl
  | text s => rfl
  | array items =>
    cases items with
    | nil => rfl
    | cons j items =>
      have inner := run_itemTokens (j :: items) (by simp) [] frames ts
      obtain ⟨t, us, ht, hne⟩ := itemTokens_eq_cons j items
      show ((itemTokens (j :: items) ++ [Token.mark ']']) ++ ts).foldlM step
        (.array [] :: frames, .itemOrEnd) = _
      rw [List.append_assoc]
      rw [ht, List.cons_append, List.foldlM_cons] at inner ⊢
      rw [step_itemOrEnd hne]
      exact inner
  | object members =>
    cases members with
    | nil => rfl
    | cons member members =>
      have inner := run_memberTokens (member :: members) (by simp) [] frames ts
      obtain ⟨name, us, ht⟩ := memberTokens_eq_cons member members
      show ((memberTokens (member :: members) ++ [closeBrace]) ++ ts).foldlM step (frames, .nameOrEnd) = _
      rw [List.append_assoc]
      rw [ht] at inner ⊢
      exact inner

theorem run_itemTokens (items : List Json) (h : items ≠ []) (acc : List Json) (frames : List Frame)
    (ts : List Token) :
    (itemTokens items ++ .mark ']' :: ts).foldlM step (.array acc :: frames, .value) =
      ts.foldlM step (frames, .after (.array (acc.reverse ++ items))) := by
  cases items with
  | nil => exact absurd rfl h
  | cons j items =>
    cases items with
    | nil =>
      rw [itemTokens, run_tokens j]
      show ts.foldlM step (frames, .after (.array (j :: acc).reverse)) = _
      rw [List.reverse_cons]
    | cons k items =>
      have later := run_itemTokens (k :: items) (by simp) (j :: acc) frames ts
      rw [List.reverse_cons, List.append_assoc] at later
      have hts : itemTokens (j :: k :: items) = tokens j ++ .mark ',' :: itemTokens (k :: items) := rfl
      rw [hts, List.append_assoc, run_tokens j]
      exact later

theorem run_memberTokens (members : List (Option String × Json)) (h : members ≠ [])
    (acc : List (Option String × Json)) (frames : List Frame) (ts : List Token) :
    (memberTokens members ++ closeBrace :: ts).foldlM step (frames, .name acc) =
      ts.foldlM step (frames, .after (.object (acc.reverse ++ members))) := by
  cases members with
  | nil => exact absurd rfl h
  | cons member members =>
    obtain ⟨name, j⟩ := member
    cases members with
    | nil =>
      show (tokens j ++ closeBrace :: ts).foldlM step (.object acc name :: frames, .value) = _
      rw [run_tokens j]
      show ts.foldlM step (frames, .after (.object ((name, j) :: acc).reverse)) = _
      rw [List.reverse_cons]
    | cons other members =>
      have later := run_memberTokens (other :: members) (by simp) ((name, j) :: acc) frames ts
      rw [List.reverse_cons, List.append_assoc] at later
      show ((tokens j ++ .mark ',' :: memberTokens (other :: members)) ++ closeBrace :: ts).foldlM step
        (.object acc name :: frames, .value) = _
      rw [List.append_assoc, run_tokens j]
      exact later

end

/-! ## Texts -/

/-- A value as records are written. -/
def Plain (j : Json) : Prop := ∀ t ∈ tokens j, t.Plain

theorem ofText_render {j : Json} (h : j.Plain) : ofText j.render = some j := by
  have hscan : scan ((tokens j).flatMap Token.chars) = some (tokens j) := by
    have hs : Scans ((tokens j).flatMap Token.chars ++ []) (tokens j ++ []) :=
      scans_tokens j h (fun c hc => by cases hc) scans_nil
    rw [List.append_nil, List.append_nil] at hs
    exact hs _ (Nat.le_refl _)
  have hrun : (tokens j).foldlM step ([], .value) = some ([], .after j) := by
    have hr := run_tokens j [] []
    rw [List.append_nil] at hr
    exact hr
  unfold ofText ofChars render
  rw [String.toList_ofList, hscan]
  simp [hrun]

end YieldVault.Json
