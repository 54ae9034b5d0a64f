import Mathlib.Algebra.Group.Nat.Defs
import Mathlib.Algebra.Ring.Int.Defs
import Mathlib.Data.Int.Order.Basic

/-!
A 32-bit int among the integers: every result is taken modulo 2^32 into its range.
-/
namespace MachineInt

def toInt (n : Int) : Int := n.bmod (2 ^ 32)

theorem toInt_small {n : Int} (low : -2 ^ 31 ≤ n) (high : n < 2 ^ 31) : toInt n = n := by
  unfold toInt
  rw [Int.bmod_eq_of_le_mul_two] <;> omega

end MachineInt
