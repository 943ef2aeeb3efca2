import Mathlib.Data.List.Nodup
import YieldVault.Json.Record
import YieldVault.Proofs.Json.Reader

/-!
# Written records are read back

A record is written as an object with its fields in order, and found in it again. Whatever is found in a
record, of whichever of the forms that are accepted, is a part of the value that it is read from.
-/

namespace YieldVault.Json

/-! ## Parts of a value -/

theorem itemTokens_cons (j : Json) (items : List Json) :
    itemTokens (j :: items) = tokens j ++ (if items = [] then [] else .mark ',' :: itemTokens items) := by
  cases items <;> simp [itemTokens]

theorem memberTokens_cons (name : Option String) (j : Json) (members : List (Option String × Json)) :
    memberTokens ((name, j) :: members) =
      .text name :: .mark ':' :: tokens j ++
        (if members = [] then [] else .mark ',' :: memberTokens members) := by
  cases members <;> simp [memberTokens]

theorem mem_itemTokens {items : List Json} {t : Token} (h : t ∈ itemTokens items) :
    t = .mark ',' ∨ ∃ j ∈ items, t ∈ tokens j := by
  induction items with
  | nil => simp [itemTokens] at h
  | cons j items ih =>
    rw [itemTokens_cons] at h
    rcases List.mem_append.mp h with h | h
    · exact .inr ⟨j, by simp, h⟩
    · split at h
      · cases h
      · rcases List.mem_cons.mp h with h | h
        · exact .inl h
        · rcases ih h with h | ⟨k, hk, h⟩
          · exact .inl h
          · exact .inr ⟨k, by simp [hk], h⟩

theorem mem_memberTokens {members : List (Option String × Json)} {t : Token} (h : t ∈ memberTokens members) :
    t = .mark ':' ∨ t = .mark ',' ∨ ∃ m ∈ members, t = .text m.1 ∨ t ∈ tokens m.2 := by
  induction members with
  | nil => simp [memberTokens] at h
  | cons m members ih =>
    rw [memberTokens_cons] at h
    rcases List.mem_append.mp h with h | h
    · simp only [List.mem_cons] at h
      rcases h with h | h | h
      · exact .inr (.inr ⟨m, by simp, .inl h⟩)
      · exact .inl h
      · exact .inr (.inr ⟨m, by simp, .inr h⟩)
    · split at h
      · cases h
      · rcases List.mem_cons.mp h with h | h
        · exact .inr (.inl h)
        · rcases ih h with h | h | ⟨k, hk, h⟩
          · exact .inl h
          · exact .inr (.inl h)
          · exact .inr (.inr ⟨k, by simp [hk], h⟩)

theorem plain_array {items : List Json} (h : ∀ j ∈ items, j.Plain) : (array items).Plain := by
  intro t ht
  simp only [tokens, List.cons_append, List.mem_cons, List.mem_append, List.not_mem_nil, or_false] at ht
  rcases ht with rfl | ht | rfl
  · rfl
  · rcases mem_itemTokens ht with rfl | ⟨j, hj, ht⟩
    · rfl
    · exact h j hj t ht
  · rfl

theorem plain_ofMembers {members : List (String × Json)} (h : ∀ m ∈ members, m.2.Plain) :
    (ofMembers members).Plain := by
  intro t ht
  simp only [ofMembers, tokens, List.cons_append, List.mem_cons, List.mem_append, List.not_mem_nil,
    or_false] at ht
  rcases ht with rfl | ht | rfl
  · rfl
  · rcases mem_memberTokens ht with rfl | rfl | ⟨m, hm, ht⟩
    · rfl
    · rfl
    · obtain ⟨⟨name, j⟩, hmem, rfl⟩ := List.mem_map.mp hm
      rcases ht with rfl | ht
      · exact ⟨name, rfl⟩
      · exact h (name, j) hmem t ht
  · rfl

theorem tokens_subset_itemTokens {items : List Json} {j : Json} (h : j ∈ items) :
    tokens j ⊆ itemTokens items := by
  induction items with
  | nil => cases h
  | cons k items ih =>
    rw [itemTokens_cons]
    rcases List.mem_cons.mp h with rfl | h
    · exact List.subset_append_left _ _
    · rw [if_neg (List.ne_nil_of_mem h)]
      intro t ht
      exact List.mem_append_right _ (List.mem_cons_of_mem _ (ih h ht))

theorem tokens_subset_memberTokens {members : List (Option String × Json)} {m : Option String × Json}
    (h : m ∈ members) : tokens m.2 ⊆ memberTokens members := by
  induction members with
  | nil => cases h
  | cons k members ih =>
    rw [memberTokens_cons]
    rcases List.mem_cons.mp h with rfl | h
    · intro t ht
      simp [ht]
    · rw [if_neg (List.ne_nil_of_mem h)]
      intro t ht
      exact List.mem_append_right _ (List.mem_cons_of_mem _ (ih h ht))

theorem tokens_subset_array {items : List Json} {j : Json} (h : j ∈ items) :
    tokens j ⊆ tokens (.array items) := by
  intro t ht
  simp [tokens, tokens_subset_itemTokens h ht]

/-- A record holds parts of the value that it is read from. -/
theorem tokens_subset_of_record? {names : List String} {j : Json} {r : Record} (h : record? names j = some r)
    {x : Json} (hx : some x ∈ r.held) : tokens x ⊆ tokens j := by
  unfold record? at h
  split at h
  · split at h
    · cases h
      have hmem := (List.mem_append.mp hx).resolve_right (by simp [List.mem_replicate])
      exact tokens_subset_array (by simpa using hmem)
    · cases h
  · obtain ⟨keys, _, h⟩ := Option.bind_eq_some_iff.mp h
    split at h
    · cases h
    · cases h
      obtain ⟨name, _, hl⟩ := List.mem_map.mp hx
      obtain ⟨before, after, rfl, _⟩ := List.lookup_eq_some_iff.mp hl
      have hmem : (some name, x) ∈ before ++ (some name, x) :: after := by simp
      intro t ht
      simp [tokens, tokens_subset_memberTokens hmem ht]
  · cases h

theorem exists_of_mem_list? {α : Type} {read : Json → Option α} {items : List Json} {xs : List α}
    (h : list? read (.array items) = some xs) {x : α} (hx : x ∈ xs) : ∃ j ∈ items, read j = some x := by
  have hm : items.mapM read = some xs := h
  clear h
  induction items generalizing xs with
  | nil =>
    cases hm
    cases hx
  | cons i items ih =>
    rw [List.mapM_cons] at hm
    obtain ⟨y, hy, hm⟩ := Option.bind_eq_some_iff.mp hm
    obtain ⟨ys, hys, hm⟩ := Option.bind_eq_some_iff.mp hm
    cases hm
    rcases List.mem_cons.mp hx with rfl | hx
    · exact ⟨i, by simp, hy⟩
    · obtain ⟨j, hj, hr⟩ := ih hx hys
      exact ⟨j, by simp [hj], hr⟩

/-! ## Fields -/

theorem keys_ofMembers (members : List (String × Json)) :
    (members.map fun m => (some m.1, m.2)).mapM (fun m => m.1) = some (members.map (·.1)) := by
  induction members with
  | nil => rfl
  | cons m members ih => simp [List.mapM_cons, ih]

theorem lookup_zip {names : List String} (hn : names.Nodup) {values : List Json}
    (hl : names.length = values.length) :
    (names.map fun name => ((names.zip values).map fun m => (some m.1, m.2)).lookup (some name)) =
      values.map some := by
  induction names generalizing values with
  | nil =>
    cases values with
    | nil => rfl
    | cons v values => cases hl
  | cons n names ih =>
    cases values with
    | nil => cases hl
    | cons v values =>
      obtain ⟨hnot, hnodup⟩ := List.nodup_cons.mp hn
      have later := ih hnodup (Nat.succ.inj hl)
      rw [List.map_cons, List.map_cons, ← later]
      congr 1
      · simp
      · apply List.map_congr_left
        intro m hm
        have hne : (m == n) = false := beq_false_of_ne (by rintro rfl; exact hnot hm)
        simp [List.lookup_cons, hne]

/-- The fields of a written record. -/
theorem record?_ofMembers {names : List String} (hn : names.Nodup) {values : List Json}
    (hl : names.length = values.length) :
    record? names (ofMembers (names.zip values)) = some ⟨false, values.map some⟩ := by
  have hkeys : (names.zip values).map (·.1) = names := List.map_fst_zip (Nat.le_of_eq hl)
  have hone : ∀ name ∈ names, names.count name ≤ 1 := fun name _ => List.nodup_iff_count_le_one.mp hn name
  simp only [record?, ofMembers]
  rw [keys_ofMembers, hkeys, lookup_zip hn hl]
  simpa using hone

theorem count?_ofNat (n : UInt64) : count? (ofNat n.toNat) = some n := by
  have hn : n.toNat < countBound := n.toNat_lt
  simp [count?, ofNat, Text.natural?_digits, hn]

theorem nullable_ofOption {α : Type} {read : Json → Option α} {write : α → Json} {f : α → α}
    (h : ∀ a, read (write a) = some (f a)) (hn : ∀ a, write a ≠ .null) (o : Option α) :
    nullable read (ofOption write o) = some (o.map f) := by
  cases o with
  | none => rfl
  | some a =>
    show nullable read (write a) = some (some (f a))
    have ha := hn a
    unfold nullable
    split
    · rename_i he
      exact absurd he ha
    · rw [h]
      rfl

theorem nullable_text (o : Option String) : nullable text? (ofOption ofString o) = some o := by
  cases o <;> rfl

theorem list?_array {α : Type} {read : Json → Option α} {write : α → Json} {f : α → α}
    (h : ∀ a, read (write a) = some (f a)) (as : List α) :
    list? read (.array (as.map write)) = some (as.map f) := by
  show (as.map write).mapM read = some (as.map f)
  induction as with
  | nil => rfl
  | cons a as ih => simp [List.mapM_cons, h, ih]

theorem plain_ofString (s : String) : (ofString s).Plain := by
  intro t ht
  cases List.mem_singleton.mp ht
  exact ⟨s, rfl⟩

theorem plain_ofNat (n : Nat) : (ofNat n).Plain := by
  intro t ht
  cases List.mem_singleton.mp ht
  exact ⟨n, rfl⟩

theorem plain_ofOption {α : Type} {write : α → Json} (h : ∀ a, (write a).Plain) (o : Option α) :
    (ofOption write o).Plain := by
  cases o with
  | none =>
    intro t ht
    cases List.mem_singleton.mp ht
    trivial
  | some a => exact h a

end YieldVault.Json
