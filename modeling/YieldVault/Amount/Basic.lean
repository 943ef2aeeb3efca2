import YieldVault.Power

/-!
# Decimal amounts

An amount is a sign, a coefficient below `2 ^ 96` and a scale of at most 28: it stands for
`± coeff / 10 ^ scale`. Several amounts have one value (`1.5` and `1.50`, `0` and `-0.00`), so `=`
compares the stored parts and `==`, `<` and `≤` compare values.
-/

namespace YieldVault

/-- Coefficients stay below `2 ^ 96`. -/
def Amount.bound : Nat := 79228162514264337593543950336

/-- A signed decimal: asset, shares, a price or a percentage. -/
structure Amount where
  negative : Bool
  coeff : Nat
  scale : Nat
  coeff_lt : coeff < Amount.bound
  scale_le : scale ≤ 28
  deriving DecidableEq

namespace Amount

/-- The largest scale. -/
def maxScale : Nat := 28

/-- Fractional digits kept by products and quotients, and read from typed text. -/
def places : Nat := 9

def make? (negative : Bool) (coeff scale : Nat) : Option Amount :=
  if h : coeff < bound ∧ scale ≤ 28 then some ⟨negative, coeff, scale, h.1, h.2⟩ else none

@[simp]
theorem make?_eq_some_iff {n : Bool} {c s : Nat} {a : Amount} :
    make? n c s = some a ↔ a.negative = n ∧ a.coeff = c ∧ a.scale = s := by
  unfold make?
  constructor
  · intro h
    split at h
    · cases h; exact ⟨rfl, rfl, rfl⟩
    · cases h
  · rintro ⟨rfl, rfl, rfl⟩
    rw [dif_pos ⟨a.coeff_lt, a.scale_le⟩]

/-- Zero, at any scale the type allows and without a sign. -/
def zeroAt (scale : Nat) (h : scale ≤ 28 := by decide) : Amount := ⟨false, 0, scale, by decide, h⟩

def zero : Amount := zeroAt 0

instance : Inhabited Amount := ⟨zero⟩

/-- The largest magnitude with the given sign. -/
def extreme (negative : Bool) : Amount := ⟨negative, bound - 1, 0, by decide, by decide⟩

/-- A count below `2 ^ 64`. -/
def ofUInt64 (n : UInt64) : Amount :=
  ⟨false, n.toNat, 0, Nat.lt_trans n.toNat_lt (by decide), by decide⟩

theorem natAbs_toInt_lt (n : Int64) : n.toInt.natAbs < bound := by
  have h₁ := n.toInt_lt
  have h₂ := n.le_toInt
  unfold bound
  omega

/-- `n / 10 ^ scale`; there is none for a scale above 28. -/
def ofScaled? (n : Int64) (scale : Nat) : Option Amount :=
  if h : scale ≤ 28 then some ⟨n.toInt < 0, n.toInt.natAbs, scale, natAbs_toInt_lt n, h⟩ else none

def ofInt64 (n : Int64) : Amount :=
  ⟨n.toInt < 0, n.toInt.natAbs, 0, natAbs_toInt_lt n, by decide⟩

/-! ## Sign -/

def isZero (a : Amount) : Bool := a.coeff == 0

def isPositive (a : Amount) : Bool := !a.isZero && !a.negative

def isNegative (a : Amount) : Bool := !a.isZero && a.negative

def abs (a : Amount) : Amount := { a with negative := false }

def neg (a : Amount) : Amount := { a with negative := !a.negative }

/-- The coefficient with its sign. -/
def signed (a : Amount) : Int := if a.negative then -a.coeff else a.coeff

/-! ## Order by value -/

/-- `a.against b` and `b.against a` are the two values over the common denominator `10 ^
(a.scale + b.scale)`. -/
def against (a b : Amount) : Int := a.signed * tenPow b.scale

instance : BEq Amount := ⟨fun a b => a.against b == b.against a⟩

instance : LT Amount := ⟨fun a b => a.against b < b.against a⟩

instance : LE Amount := ⟨fun a b => a.against b ≤ b.against a⟩

instance (a b : Amount) : Decidable (a < b) := inferInstanceAs (Decidable (a.against b < b.against a))

instance (a b : Amount) : Decidable (a ≤ b) := inferInstanceAs (Decidable (a.against b ≤ b.against a))

instance : Ord Amount := ⟨fun a b => compare (a.against b) (b.against a)⟩

/-- The larger of the two; of equals, the second. -/
instance : Max Amount := ⟨fun a b => if b < a then a else b⟩

/-- The smaller of the two; of equals, the first. -/
instance : Min Amount := ⟨fun a b => if b < a then b else a⟩

end Amount

end YieldVault
