import YieldVault.Amount.Rounding

/-!
# Quotients

Long division in blocks of up to nine digits. The quotient grows until the division is exact, the
scale reaches its limit or the next digit would not fit the coefficient; the last digit is then
rounded to the nearest, ties to even. A quotient that needed fractional blocks is trimmed of
trailing zeros in steps of eight, four, two and one digit, so some can stay.
-/

namespace YieldVault

namespace Amount

namespace Division

/-- Digits taken in one block. -/
def block : Nat := 9

/-- The quotient so far has coefficient `q` at scale `s`, which may be below zero, and leaves the
remainder `r`; `inexact` tells whether a block was asked for by a remainder. -/
structure State where
  q : Nat
  r : Nat
  s : Int
  inexact : Bool

/-- The largest block, of at most `x` digits, that keeps the scale and the coefficient in range. -/
def room (q : Nat) (s : Int) : (x : Nat) → Nat
  | 0 => 0
  | x + 1 => if s + (x + 1 : Nat) ≤ maxScale ∧ q * tenPow (x + 1) < bound then x + 1 else room q s x

/-- `q` one digit shorter, to the nearest, ties to even; `inexact` breaks a tie upwards. -/
def shorten (q : Nat) (inexact : Bool) : Nat :=
  if 5 < q % 10 ∨ (q % 10 = 5 ∧ (inexact ∨ q / 10 % 2 = 1)) then q / 10 + 1 else q / 10

/-- The last digit, rounded by the remainder `r` of a division by `d`. -/
def close (d : Nat) (st : State) : Option State :=
  if d < 2 * st.r ∨ (2 * st.r = d ∧ st.q % 2 = 1) then
    if st.q + 1 < bound then some { st with q := st.q + 1 }
    else if st.s < 1 then none
    else some { st with q := shorten (st.q + 1) false, s := st.s - 1 }
  else some st

/-- One more block of `x` digits. -/
def extend (d x : Nat) (st : State) : State :=
  { st with q := st.q * tenPow x + st.r * tenPow x / d, r := st.r * tenPow x % d, s := st.s + x }

/-- Blocks until the division ends; `n` bounds their number. -/
def loop (d : Nat) : (n : Nat) → State → Option State
  | 0, _ => none
  | n + 1, st =>
    if st.r = 0 then
      if 0 ≤ st.s then some st
      else
        let x := min block (-st.s).toNat
        if st.q * tenPow x < bound then loop d n (extend d x st) else none
    else
      let x := room st.q st.s block
      if x < block ∧ st.s + x < 0 then none
      else if x = 0 then close d { st with inexact := true }
      else
        let next := extend d x { st with inexact := true }
        if next.q < bound then loop d n next
        else if next.s < 1 then none
        else some { next with q := shorten next.q (next.r != 0), s := next.s - 1 }

/-- Blocks of zeros are looked for only behind this many binary zeros, `2 ^ 32`. -/
def blockFactor : Nat := 4294967296

/-- Trailing zeros dropped `k` at a time, for as long as they can be. -/
def dropMany (k : Nat) : (n : Nat) → Nat × Nat → Nat × Nat
  | 0, p => p
  | n + 1, (q, s) =>
    if k ≤ s ∧ q % tenPow k = 0 ∧ q % blockFactor = 0 then dropMany k n (q / tenPow k, s - k) else (q, s)

/-- `k` trailing zeros dropped once, if there are so many. -/
def dropOnce (k : Nat) (p : Nat × Nat) : Nat × Nat :=
  if k ≤ p.2 ∧ p.1 % tenPow k = 0 then (p.1 / tenPow k, p.2 - k) else p

def trim (q s : Nat) : Nat × Nat := dropOnce 1 (dropOnce 2 (dropOnce 4 (dropMany 8 4 (q, s))))

end Division

open Division in
/-- The quotient before it is rounded to `places` digits; there is none by zero. -/
def quotient? (a b : Amount) : Option Amount := do
  if b.isZero then none
  else if a.isZero then some zero
  else
    -- Each block moves the scale up by at least one digit, from no less than `-28` to at most `28`.
    let st ← loop b.coeff (2 * maxScale + 1) ⟨a.coeff / b.coeff, a.coeff % b.coeff,
        (a.scale : Int) - b.scale, false⟩
    let (q, s) := if st.inexact then trim st.q st.s.toNat else (st.q, st.s.toNat)
    make? (a.negative != b.negative && q != 0) q s

/-- The quotient to `places` digits, a half away from zero. -/
def div? (a b : Amount) : Option Amount := (a.quotient? b).map (·.round places)

end Amount

end YieldVault
