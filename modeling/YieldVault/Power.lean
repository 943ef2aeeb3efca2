/-!
# Powers of ten

Every scale, every shift of a decimal point and every group of digits is a power of ten.
-/

namespace YieldVault

/-- A one with `n` zeros. -/
def tenPow (n : Nat) : Nat := Nat.pow 10 n

theorem tenPow_zero : tenPow 0 = 1 := rfl

theorem tenPow_succ (n : Nat) : tenPow (n + 1) = tenPow n * 10 := rfl

theorem tenPow_pos (n : Nat) : 0 < tenPow n := Nat.pow_pos (by decide)

end YieldVault
