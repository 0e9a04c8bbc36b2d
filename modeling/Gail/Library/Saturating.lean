import Mathlib.Algebra.Group.Nat.Defs
import Mathlib.Order.Basic

/-! Unsigned 64-bit counters that stop at their maximum instead of wrapping. -/
namespace Gail

def u64Max : Nat := 2^64 - 1

/-- `saturating_add(1)` on a `u64`. -/
def saturatingSucc (n : Nat) : Nat := min (n + 1) u64Max

/-- `saturating_add` on a `u64`. -/
def saturatingAdd (n m : Nat) : Nat := min (n + m) u64Max

/-- `saturating_mul` on a `u64`. -/
def saturatingMul (n m : Nat) : Nat := min (n * m) u64Max

theorem saturatingSucc_of_lt {n : Nat} (h : n < u64Max) : saturatingSucc n = n + 1 := by
  unfold saturatingSucc
  omega

end Gail
