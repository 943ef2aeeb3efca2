import YieldVault.Proofs.Amount.Wire
import YieldVault.Proofs.Calendar.Date
import YieldVault.Proofs.Json.Record
import YieldVault.Simulation.Sample
import YieldVault.Vault.Wire

/-!
# Snapshots are read as they are written

Whatever text a snapshot was read from, the text that it is written as gives it back, with all its strings,
counts, dates and absent fields, and every amount with its scale and its sign. The only thing that can get
lost is the sign of a zero, and a zero has a sign only if its text had an exponent that was too small for it.
-/

namespace YieldVault

open Json

/-! ## Amounts of a record -/

def Quote.amounts (q : Quote) : List Amount :=
  [q.sharePrice, q.depositCap, q.capUsed, q.minDeposit, q.walletBalance, q.userShares]

def Allocation.amounts (a : Allocation) : List Amount := [a.pct, a.balance, a.apy]

def Earnings.amounts (e : Earnings) : List Amount := [e.earned, e.earnedPct]

def Stats.amounts (s : Stats) : List Amount :=
  [s.tvl, s.netApy, s.yieldPaid] ++ s.allocations.flatMap Allocation.amounts ++
    s.earnings.toList.flatMap Earnings.amounts

def Snapshot.amounts (v : Snapshot) : List Amount := v.quote.amounts ++ v.stats.amounts

section Map
variable (f : Amount → Amount)

def Quote.map (q : Quote) : Quote :=
  ⟨f q.sharePrice, f q.depositCap, f q.capUsed, f q.minDeposit, f q.walletBalance, f q.userShares⟩

def Allocation.map (a : Allocation) : Allocation :=
  { a with pct := f a.pct, balance := f a.balance, apy := f a.apy }

def Earnings.map (e : Earnings) : Earnings := { e with earned := f e.earned, earnedPct := f e.earnedPct }

def Stats.map (s : Stats) : Stats :=
  { s with
    tvl := f s.tvl
    netApy := f s.netApy
    yieldPaid := f s.yieldPaid
    allocations := s.allocations.map (Allocation.map f)
    earnings := s.earnings.map (Earnings.map f) }

/-- All amounts changed by `f`, and nothing else. -/
def Snapshot.map (v : Snapshot) : Snapshot := ⟨v.quote.map f, v.stats.map f⟩

variable {f}

theorem Quote.map_eq_self_iff {q : Quote} : q.map f = q ↔ ∀ a ∈ q.amounts, f a = a := by
  obtain ⟨price, cap, used, least, wallet, shares⟩ := q
  simp [Quote.map, amounts]

theorem Allocation.map_eq_self_iff {x : Allocation} : x.map f = x ↔ ∀ a ∈ x.amounts, f a = a := by
  obtain ⟨name, pct, balance, apy, address⟩ := x
  simp [Allocation.map, amounts]

theorem Earnings.map_eq_self_iff {x : Earnings} : x.map f = x ↔ ∀ a ∈ x.amounts, f a = a := by
  obtain ⟨earned, pct, first⟩ := x
  simp [Earnings.map, amounts]

theorem Stats.map_eq_self_iff {s : Stats} : s.map f = s ↔ ∀ a ∈ s.amounts, f a = a := by
  obtain ⟨tvl, apy, depositors, paid, address, allocations, earnings⟩ := s
  have hlist : allocations.map (Allocation.map f) = allocations ↔
      ∀ x ∈ allocations, ∀ a ∈ x.amounts, f a = a := by
    have h := List.map_inj_left (l := allocations) (f := Allocation.map f) (g := id)
    simpa [Allocation.map_eq_self_iff] using h
  have hearn : earnings.map (Earnings.map f) = earnings ↔ ∀ x ∈ earnings, ∀ a ∈ x.amounts, f a = a := by
    cases earnings with
    | none => simp
    | some e => simp [Earnings.map_eq_self_iff]
  simp only [Stats.map, Stats.mk.injEq, hlist, hearn, amounts, List.mem_append, List.mem_flatMap,
    List.mem_cons, List.not_mem_nil, or_false, Option.mem_toList, true_and]
  constructor
  · rintro ⟨htvl, hapy, hpaid, hallocation, hearning⟩ a (((rfl | rfl | rfl) | ⟨x, hx, ha⟩) | ⟨x, hx, ha⟩)
    · exact htvl
    · exact hapy
    · exact hpaid
    · exact hallocation x hx a ha
    · exact hearning x hx a ha
  · intro h
    exact ⟨h tvl (by simp), h apy (by simp), h paid (by simp), fun x hx a ha => h a (.inl (.inr ⟨x, hx, ha⟩)),
      fun x hx a ha => h a (.inr ⟨x, hx, ha⟩)⟩

theorem Snapshot.map_eq_self_iff {v : Snapshot} : v.map f = v ↔ ∀ a ∈ v.amounts, f a = a := by
  obtain ⟨quote, stats⟩ := v
  simp [Snapshot.map, amounts, Quote.map_eq_self_iff, Stats.map_eq_self_iff, or_imp, forall_and]

theorem Stats.amounts_map (s : Stats) : (s.map f).amounts = s.amounts.map f := by
  have hearn : (s.earnings.map (Earnings.map f)).toList.flatMap Earnings.amounts =
      (s.earnings.toList.flatMap Earnings.amounts).map f := by
    cases s.earnings <;> rfl
  have hlist : (s.allocations.map (Allocation.map f)).flatMap Allocation.amounts =
      (s.allocations.flatMap Allocation.amounts).map f := by
    rw [List.flatMap_map, List.map_flatMap]
    rfl
  simp only [Stats.amounts, List.map_append, ← hlist, ← hearn]
  rfl

theorem Snapshot.amounts_map (v : Snapshot) : (v.map f).amounts = v.amounts.map f := by
  simp only [Snapshot.amounts, List.map_append, ← Stats.amounts_map]
  rfl

end Map

/-! ## Reading what was written -/

theorem Amount.ofJson_toJson (a : Amount) : Amount.ofJson a.toJson = some a.dropZeroSign := by
  simp only [Amount.ofJson, Amount.toJson, ofString, Json.text?, Option.bind_some, Amount.ofWire_wire]

theorem Date.ofJson_toJson (t : Date) : Date.ofJson t.toJson = some t := by
  simp only [Date.ofJson, Date.toJson, ofString, Json.text?, Option.bind_some, Date.ofText_toText]

theorem Quote.ofJson_toJson (q : Quote) : Quote.ofJson q.toJson = some (q.map Amount.dropZeroSign) := by
  unfold Quote.ofJson Quote.toJson
  rw [record?_ofMembers (by decide) rfl]
  simp [need, Amount.ofJson_toJson, Quote.map]

theorem Allocation.ofJson_toJson (x : Allocation) :
    Allocation.ofJson x.toJson = some (x.map Amount.dropZeroSign) := by
  unfold Allocation.ofJson Allocation.toJson
  rw [record?_ofMembers (by decide) rfl]
  simp only [Option.bind_eq_bind, Option.bind_some, List.map_cons, List.map_nil, need, orElse, nullable_text]
  simp [Amount.ofJson_toJson, Allocation.map, ofString, Json.text?]

theorem Earnings.ofJson_toJson (e : Earnings) :
    Earnings.ofJson e.toJson = some (e.map Amount.dropZeroSign) := by
  unfold Earnings.ofJson Earnings.toJson
  rw [record?_ofMembers (by decide) rfl]
  simp [need, Amount.ofJson_toJson, Date.ofJson_toJson, Earnings.map]

theorem Stats.ofJson_toJson (s : Stats) : Stats.ofJson s.toJson = some (s.map Amount.dropZeroSign) := by
  have hallocations := list?_array Allocation.ofJson_toJson s.allocations
  have hearnings := nullable_ofOption Earnings.ofJson_toJson (fun e he => by cases he) s.earnings
  unfold Stats.ofJson Stats.toJson
  rw [record?_ofMembers (by decide) rfl]
  simp only [Option.bind_eq_bind, Option.bind_some, List.map_cons, List.map_nil, need, orElse,
    nullable_text, hallocations, hearnings, count?_ofNat]
  simp [Amount.ofJson_toJson, Stats.map]

theorem Snapshot.ofJson_toJson (v : Snapshot) :
    Snapshot.ofJson v.toJson = some (v.map Amount.dropZeroSign) := by
  unfold Snapshot.ofJson Snapshot.toJson
  rw [record?_ofMembers (by decide) rfl]
  simp [need, Quote.ofJson_toJson, Stats.ofJson_toJson, Snapshot.map]

/-! ## Texts -/

theorem Quote.plain_toJson (q : Quote) : q.toJson.Plain := by
  apply plain_ofMembers
  simp [fieldNames, Amount.toJson, plain_ofString]

theorem Allocation.plain_toJson (x : Allocation) : x.toJson.Plain := by
  apply plain_ofMembers
  simp [fieldNames, Amount.toJson, plain_ofString, plain_ofOption]

theorem Earnings.plain_toJson (e : Earnings) : e.toJson.Plain := by
  apply plain_ofMembers
  simp [fieldNames, Amount.toJson, Date.toJson, plain_ofString]

theorem Stats.plain_toJson (s : Stats) : s.toJson.Plain := by
  have hallocations : (Json.array (s.allocations.map Allocation.toJson)).Plain := by
    apply plain_array
    intro j hj
    obtain ⟨x, _, rfl⟩ := List.mem_map.mp hj
    exact x.plain_toJson
  apply plain_ofMembers
  simp [fieldNames, Amount.toJson, plain_ofString, plain_ofNat, plain_ofOption, hallocations,
    Earnings.plain_toJson]

theorem Snapshot.plain_toJson (v : Snapshot) : v.toJson.Plain := by
  apply plain_ofMembers
  simp [fieldNames, Quote.plain_toJson, Stats.plain_toJson]

namespace Snapshot

/-- Every zero loses its sign. -/
def dropZeroSigns (v : Snapshot) : Snapshot := v.map Amount.dropZeroSign

theorem ofText_toText (v : Snapshot) : ofText v.toText = some v.dropZeroSigns := by
  unfold ofText toText
  rw [Json.ofText_render v.plain_toJson, Option.bind_some]
  exact v.ofJson_toJson

end Snapshot

/-! ## Where amounts come from -/

/-- One of the strings in the value is a wire text of the amount. -/
def Json.Spells (j : Json) (a : Amount) : Prop := ∃ s, .text (some s) ∈ j.tokens ∧ Amount.ofWire s = some a

theorem Json.Spells.mono {j k : Json} {a : Amount} (h : j.Spells a) (hs : j.tokens ⊆ k.tokens) :
    k.Spells a := by
  obtain ⟨s, hm, ha⟩ := h
  exact ⟨s, hs hm, ha⟩

/-- Whatever is read has only amounts that the value spells. -/
def Spelled {α : Type} (read : Json → Option α) (amounts : α → List Amount) : Prop :=
  ∀ j x, read j = some x → ∀ a ∈ amounts x, j.Spells a

section Spelled
variable {α : Type} {read : Json → Option α} {amounts : α → List Amount}

theorem spelled_amount : Spelled Amount.ofJson fun a => [a] := by
  intro j x h a ha
  cases List.mem_singleton.mp ha
  obtain ⟨s, hs, hw⟩ := Option.bind_eq_some_iff.mp h
  cases j with
  | text t =>
    cases hs
    exact ⟨s, List.mem_singleton.mpr rfl, hw⟩
  | _ => cases hs

theorem spelled_list (h : Spelled read amounts) : Spelled (list? read) fun xs => xs.flatMap amounts := by
  intro j xs hj a ha
  obtain ⟨x, hx, ha⟩ := List.mem_flatMap.mp ha
  cases j with
  | array items =>
    obtain ⟨k, hk, hr⟩ := exists_of_mem_list? hj hx
    exact (h k x hr a ha).mono (tokens_subset_array hk)
  | _ => cases hj

theorem spelled_nullable (h : Spelled read amounts) :
    Spelled (nullable read) fun o => o.toList.flatMap amounts := by
  intro j o hj a hmem
  obtain ⟨x, hx, ha⟩ := List.mem_flatMap.mp hmem
  cases Option.mem_toList.mp hx
  unfold nullable at hj
  split at hj
  · cases hj
  · obtain ⟨y, hy, he⟩ := Option.map_eq_some_iff.mp hj
    cases he
    exact h _ _ hy a ha

variable {names : List String} {j : Json} {r : Record}

theorem spells_of_need (h : Spelled read amounts) (hr : j.record? names = some r) {held : Option Json}
    (hm : held ∈ r.held) {x : α} (hx : need read held = some x) : ∀ a ∈ amounts x, j.Spells a := by
  intro a ha
  obtain ⟨k, rfl, hk⟩ := Option.bind_eq_some_iff.mp hx
  exact (h k x hk a ha).mono (tokens_subset_of_record? hr hm)

theorem spells_of_amount (hr : j.record? names = some r) {held : Option Json}
    (hm : held ∈ r.held) {a : Amount} (ha : need Amount.ofJson held = some a) : j.Spells a :=
  spells_of_need spelled_amount hr hm ha a (List.mem_singleton.mpr rfl)

theorem spells_of_orElse (h : Spelled read amounts) (hr : j.record? names = some r) {held : Option Json}
    (hm : held ∈ r.held) {absent : α} (hn : amounts absent = []) {x : α}
    (hx : orElse read absent held = some x) :
    ∀ a ∈ amounts x, j.Spells a := by
  cases held with
  | none =>
    cases hx
    simp [hn]
  | some k => exact spells_of_need h hr hm hx

end Spelled

theorem Quote.spelled : Spelled Quote.ofJson Quote.amounts := by
  intro j q h
  obtain ⟨r, hr, h⟩ := Option.bind_eq_some_iff.mp h
  split at h
  · rename_i hheld
    simp only [Option.bind_eq_bind, Option.bind_eq_some_iff, Option.pure_def, Option.some.injEq] at h
    obtain ⟨a₁, h₁, a₂, h₂, a₃, h₃, a₄, h₄, a₅, h₅, a₆, h₆, rfl⟩ := h
    simp only [amounts, List.forall_mem_cons]
    exact ⟨spells_of_amount hr (by simp [hheld]) h₁, spells_of_amount hr (by simp [hheld]) h₂,
      spells_of_amount hr (by simp [hheld]) h₃, spells_of_amount hr (by simp [hheld]) h₄,
      spells_of_amount hr (by simp [hheld]) h₅, spells_of_amount hr (by simp [hheld]) h₆, by simp⟩
  · cases h

theorem Allocation.spelled : Spelled Allocation.ofJson Allocation.amounts := by
  intro j x h
  obtain ⟨r, hr, h⟩ := Option.bind_eq_some_iff.mp h
  dsimp only at h
  split at h
  · rename_i hheld
    simp only [Option.bind_eq_bind, Option.bind_eq_some_iff] at h
    obtain ⟨name, _, a₁, h₁, a₂, h₂, a₃, h₃, h⟩ := h
    have hx : x.amounts = [a₁, a₂, a₃] := by
      split at h
      · obtain ⟨address, _, he⟩ := Option.bind_eq_some_iff.mp h
        cases he
        rfl
      · obtain ⟨address, _, he⟩ := Option.bind_eq_some_iff.mp h
        cases he
        rfl
    rw [hx]
    simp only [List.forall_mem_cons]
    exact ⟨spells_of_amount hr (by simp [hheld]) h₁, spells_of_amount hr (by simp [hheld]) h₂,
      spells_of_amount hr (by simp [hheld]) h₃, by simp⟩
  · cases h

theorem Earnings.spelled : Spelled Earnings.ofJson Earnings.amounts := by
  intro j e h
  obtain ⟨r, hr, h⟩ := Option.bind_eq_some_iff.mp h
  split at h
  · rename_i hheld
    simp only [Option.bind_eq_bind, Option.bind_eq_some_iff, Option.pure_def, Option.some.injEq] at h
    obtain ⟨a₁, h₁, a₂, h₂, first, _, rfl⟩ := h
    simp only [amounts, List.forall_mem_cons]
    exact ⟨spells_of_amount hr (by simp [hheld]) h₁, spells_of_amount hr (by simp [hheld]) h₂, by simp⟩
  · cases h

theorem Stats.spelled : Spelled Stats.ofJson Stats.amounts := by
  intro j s h
  obtain ⟨r, hr, h⟩ := Option.bind_eq_some_iff.mp h
  split at h
  · rename_i hheld
    simp only [Option.bind_eq_bind, Option.bind_eq_some_iff, Option.pure_def, Option.some.injEq] at h
    obtain ⟨a₁, h₁, a₂, h₂, count, _, a₃, h₃, address, _, allocations, ha, earnings, he, rfl⟩ := h
    have hallocations := spells_of_orElse (spelled_list Allocation.spelled) hr (by rw [hheld]; simp) rfl ha
    have hearnings := spells_of_orElse (spelled_nullable Earnings.spelled) hr (by rw [hheld]; simp) rfl he
    intro a hmem
    rcases List.mem_append.mp hmem with hmem | hmem
    · rcases List.mem_append.mp hmem with hmem | hmem
      · simp only [List.mem_cons, List.not_mem_nil, or_false] at hmem
        rcases hmem with rfl | rfl | rfl
        · exact spells_of_amount hr (by simp [hheld]) h₁
        · exact spells_of_amount hr (by simp [hheld]) h₂
        · exact spells_of_amount hr (by simp [hheld]) h₃
      · exact hallocations a hmem
    · exact hearnings a hmem
  · cases h

theorem Snapshot.spelled : Spelled Snapshot.ofJson Snapshot.amounts := by
  intro j v h
  obtain ⟨r, hr, h⟩ := Option.bind_eq_some_iff.mp h
  split at h
  · rename_i hheld
    simp only [Option.bind_eq_bind, Option.bind_eq_some_iff, Option.pure_def, Option.some.injEq] at h
    obtain ⟨quote, hq, stats, hs, rfl⟩ := h
    have hquote := spells_of_need Quote.spelled hr (by rw [hheld]; simp) hq
    have hstats := spells_of_need Stats.spelled hr (by rw [hheld]; simp) hs
    intro a hmem
    rcases List.mem_append.mp hmem with hmem | hmem
    · exact hquote a hmem
    · exact hstats a hmem
  · cases h

/-! ## Snapshots that were read -/

namespace Snapshot

theorem dropZeroSigns_dropZeroSigns (v : Snapshot) : v.dropZeroSigns.dropZeroSigns = v.dropZeroSigns := by
  unfold dropZeroSigns
  rw [map_eq_self_iff, amounts_map]
  intro a ha
  obtain ⟨b, _, rfl⟩ := List.mem_map.mp ha
  exact b.dropZeroSign_dropZeroSign

/-- A snapshot that was read has no zero with a sign but those that an exponent has left. -/
theorem dropZeroSign_or_vanished {text : String} {v : Snapshot} (h : ofText text = some v) {a : Amount}
    (ha : a ∈ v.amounts) : a.dropZeroSign = a ∨ a = .vanished := by
  obtain ⟨j, _, hv⟩ := Option.bind_eq_some_iff.mp h
  obtain ⟨s, _, hs⟩ := spelled j v hv a ha
  exact (Amount.dropZeroSign_or_vanished hs).imp_right And.left

theorem dropZeroSigns_eq_self_iff {text : String} {v : Snapshot} (h : ofText text = some v) :
    v.dropZeroSigns = v ↔ Amount.vanished ∉ v.amounts := by
  unfold dropZeroSigns
  rw [map_eq_self_iff]
  constructor
  · intro hall hmem
    exact absurd (hall _ hmem) (by decide)
  · intro hnot a ha
    refine (dropZeroSign_or_vanished h ha).resolve_right ?_
    rintro rfl
    exact hnot ha

/-- A snapshot that was read from any text is read again from the text that it is written as. It comes back as
it was, and is then written as before, unless one of its amounts is the negative zero of 28 decimals; such an
amount comes back without its sign, and was spelled with an exponent, and all other amounts come back as they
were. From then on nothing changes. -/
theorem rewritten_snapshot {text : String} {v : Snapshot} (h : ofText text = some v) :
    ofText v.toText = some v.dropZeroSigns ∧
      (∀ a ∈ v.amounts, a.dropZeroSign = a ∨ a = .vanished) ∧
      (Amount.vanished ∉ v.amounts → v.dropZeroSigns = v ∧ v.dropZeroSigns.toText = v.toText) ∧
      (Amount.vanished ∈ v.amounts → v.dropZeroSigns ≠ v ∧
        ∃ j s, Json.ofText text = some j ∧ .text (some s) ∈ j.tokens ∧ Amount.ofWire s = some .vanished ∧
          ∃ c ∈ s.toList, Amount.Wire.isExponentMark c = true) ∧
      ofText v.dropZeroSigns.toText = some v.dropZeroSigns := by
  have hiff := dropZeroSigns_eq_self_iff h
  refine ⟨v.ofText_toText, fun a => dropZeroSign_or_vanished h, fun hnot => ?_,
    fun hmem => ⟨fun he => hiff.mp he hmem, ?_⟩, ?_⟩
  · have he := hiff.mpr hnot
    exact ⟨he, by rw [he]⟩
  · obtain ⟨j, hj, hv⟩ := Option.bind_eq_some_iff.mp h
    obtain ⟨s, hs, hw⟩ := spelled j v hv _ hmem
    refine ⟨j, s, hj, hs, hw, ?_⟩
    exact ((Amount.dropZeroSign_or_vanished hw).resolve_left (by decide)).2
  · rw [ofText_toText, dropZeroSigns_dropZeroSigns]

/-- A snapshot as somebody else may write it, with the given text for the wallet's balance. -/
def sketch (balance : String) : Json :=
  ofMembers [("stats", .array [ofString "2100000", ofString "8.40", ofNat 312, ofString "1.5e5"]),
    ("note", ofString "taken by hand"),
    ("quote", ofMembers [("user_shares", ofString "12_283.47"), ("share_price", ofString "+1.0136"),
      ("wallet_balance", ofString balance), ("deposit_cap", ofString "1e6"),
      ("deposit_cap_used", ofString "200000"), ("min_deposit", ofString "10.")])]

def sketched (balance : Amount) : Snapshot where
  quote := { Simulation.sampleQuote with walletBalance := balance }
  stats :=
    { Stats.blank with
      tvl := Simulation.whole 2100000
      netApy := Simulation.scaled 840 2
      depositors := 312
      yieldPaid := Simulation.whole 150000 }

theorem ofText_sketch {balance : String} {v : Snapshot} (h : ofJson (sketch balance) = some v) :
    ofText (sketch balance).render = some v := by
  have hplain : (sketch balance).Plain := by
    apply plain_ofMembers
    simp only [List.forall_mem_cons]
    refine ⟨plain_array ?_, plain_ofString _, plain_ofMembers ?_, by simp⟩
    · simp [plain_ofString, plain_ofNat]
    · simp [plain_ofString]
  unfold ofText
  rw [Json.ofText_render hplain, Option.bind_some]
  exact h

theorem rewritten_snapshot_sketch :
    ofText (sketch "-0.00").render = some (sketched (.zeroAt 2)) ∧
      Amount.vanished ∉ (sketched (.zeroAt 2)).amounts ∧
      ofText (sketched (.zeroAt 2)).toText = some (sketched (.zeroAt 2)) := by
  have hread := ofText_sketch (show ofJson (sketch "-0.00") = some (sketched (.zeroAt 2)) by decide +kernel)
  have hnot : Amount.vanished ∉ (sketched (.zeroAt 2)).amounts := fun hmem =>
    (show ∀ a ∈ (sketched (.zeroAt 2)).amounts, a ≠ .vanished by decide) _ hmem rfl
  obtain ⟨hback, _, hsame, _⟩ := rewritten_snapshot hread
  refine ⟨hread, hnot, ?_⟩
  rw [hback, (hsame hnot).1]

/-- A negative balance too small for 28 decimals is read as a zero with a sign, which is lost
at the second reading. -/
theorem rewriting_drops_sign :
    ofText (sketch "-0.4e-28").render = some (sketched .vanished) ∧
      ofText (sketched .vanished).toText = some (sketched (.zeroAt 28)) ∧
      sketched (.zeroAt 28) ≠ sketched .vanished ∧
      (sketched (.zeroAt 28)).toText ≠ (sketched .vanished).toText := by
  refine ⟨ofText_sketch (by decide +kernel), ?_, by decide, fun h => ?_⟩
  · rw [ofText_toText]
    rfl
  · have hchars := String.ofList_injective h
    revert hchars
    decide +kernel

end Snapshot

end YieldVault
