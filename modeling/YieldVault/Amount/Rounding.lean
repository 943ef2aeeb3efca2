import YieldVault.Amount.Basic

/-!
# Rounding

Dropping decimal digits from a coefficient. Sums and products that outgrow the coefficient go to
the nearest coefficient with ties to even (`halfEven`, `fit`); the rounding that a caller asks for
takes ties away from zero (`halfUp`).
-/

namespace YieldVault

namespace Amount

/-- `m / 10 ^ d`, to the nearest, a half to the even neighbour. -/
def halfEven (m d : Nat) : Nat :=
  let q := m / tenPow d
  let r := 2 * (m % tenPow d)
  if tenPow d < r ∨ (r = tenPow d ∧ q % 2 = 1) then q + 1 else q

/-- `m / 10 ^ d`, to the nearest, a half upwards. -/
def halfUp (m d : Nat) : Nat :=
  let q := m / tenPow d
  if tenPow d ≤ 2 * (m % tenPow d) then q + 1 else q

theorem div_pow_succ_le (m d : Nat) (h : tenPow d ≤ 2 * (m % tenPow d)) : m / tenPow d + 1 ≤ m := by
  have hp := tenPow_pos d
  have hm := Nat.div_add_mod m (tenPow d)
  have hr := Nat.mod_lt m hp
  have hq : m / tenPow d ≤ tenPow d * (m / tenPow d) := Nat.le_mul_of_pos_left _ hp
  have h₁ : 1 ≤ m % tenPow d := by omega
  omega

theorem halfUp_le (m d : Nat) : halfUp m d ≤ m := by
  unfold halfUp
  split
  · next h => exact div_pow_succ_le m d h
  · exact Nat.div_le_self _ _

/-- The least number of digits, `d` or more, to drop from `m` so that the rest is below the bound;
at most `room` more than `d`. -/
def excess (m d : Nat) : (room : Nat) → Option Nat
  | 0 => if m / tenPow d < bound then some d else none
  | room + 1 => if m / tenPow d < bound then some d else excess m (d + 1) room

/-- `± m / 10 ^ s` with as many digits as an amount can hold. There is none when not even the
integer part fits. -/
def fit (negative : Bool) (m s : Nat) : Option Amount := do
  let d ← excess m (s - maxScale) (s - (s - maxScale))
  let q := halfEven m d
  if q < bound then make? negative q (s - d)
  else if d < s then make? negative (halfEven q 1) (s - (d + 1))
  else none

/-- To `p` fractional digits by `rule`, which is given the coefficient and the number of digits to
drop. An amount with no more digits than that is kept as it is. -/
def reduce (rule : Nat → Nat → Nat) (le : ∀ m d, rule m d ≤ m) (a : Amount) (p : Nat) : Amount :=
  if h : a.scale ≤ p then a
  else
    let c := rule a.coeff (a.scale - p)
    ⟨a.negative && (a.isZero || c != 0), c, p, Nat.lt_of_le_of_lt (le _ _) a.coeff_lt,
      Nat.le_of_lt (Nat.lt_of_lt_of_le (Nat.lt_of_not_le h) a.scale_le)⟩

/-- To `p` fractional digits, a half away from zero. -/
def round (a : Amount) (p : Nat) : Amount := a.reduce halfUp halfUp_le p

/-- Everything past `p` fractional digits dropped. -/
def truncate (a : Amount) (p : Nat) : Amount :=
  a.reduce (fun m d => m / tenPow d) (fun m d => Nat.div_le_self m (tenPow d)) p

end Amount

end YieldVault
