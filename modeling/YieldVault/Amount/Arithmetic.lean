import YieldVault.Amount.Rounding

/-!
# Sums and products

Sums are exact at the larger of the two scales and lose digits only when the coefficient outgrows
its bound. A zero operand is dropped before the scales are aligned, so the other operand keeps its
own scale. Products are exact, then fitted, then rounded to `places` digits.
-/

namespace YieldVault

namespace Amount

/-- The coefficient that `a` has at the scale `s`, which is at least its own, with its sign. -/
def raised (a : Amount) (s : Nat) : Int := a.signed * tenPow (s - a.scale)

def add? (a b : Amount) : Option Amount :=
  if a.isZero then some b
  else if b.isZero then some a
  else
    let s := max a.scale b.scale
    let t := a.raised s + b.raised s
    fit (t < 0) t.natAbs s

def sub? (a b : Amount) : Option Amount :=
  if b.isZero then (if a.isZero then some b else some a) else a.add? b.neg

/-- The difference, or the extreme amount with the sign of the first operand where there is none. -/
def saturatingSub (a b : Amount) : Amount := (a.sub? b).getD (extreme a.negative)

/-- Coefficients below `2 ^ 32` are multiplied in one machine word. -/
def wordBound : Nat := 4294967296

/-- The scale from which on a product of two word-sized coefficients counts as zero. -/
def vanishing : Nat := 48

/-- The product before it is rounded to `places` digits. -/
def product? (a b : Amount) : Option Amount :=
  if a.isZero || b.isZero then some zero
  else
    let negative := a.negative != b.negative
    let m := a.coeff * b.coeff
    let s := a.scale + b.scale
    if a.coeff < wordBound ∧ b.coeff < wordBound then
      if vanishing ≤ s then some zero
      else if maxScale < s then
        let q := halfEven m (s - maxScale)
        make? (negative && q != 0) q maxScale
      else make? negative m s
    else fit negative m s

/-- The product to `places` digits, a half away from zero. -/
def mul? (a b : Amount) : Option Amount := (a.product? b).map (·.round places)

end Amount

end YieldVault
