/-! # Powers of ten and two

The bases in which numerals are written and doubles are kept.
-/

set_option autoImplicit false

namespace Rulebook

def tenPow (exponent : Nat) : Nat :=
  Nat.pow 10 exponent

def twoPow (exponent : Nat) : Nat :=
  Nat.pow 2 exponent

@[simp] theorem tenPow_zero : tenPow 0 = 1 :=
  rfl

theorem tenPow_succ (n : Nat) : tenPow (n + 1) = 10 * tenPow n :=
  Nat.mul_comm _ _

theorem tenPow_pos (n : Nat) : 0 < tenPow n :=
  Nat.pow_pos (by decide)

@[simp] theorem twoPow_zero : twoPow 0 = 1 :=
  rfl

theorem twoPow_succ (n : Nat) : twoPow (n + 1) = 2 * twoPow n :=
  Nat.mul_comm _ _

theorem twoPow_pos (n : Nat) : 0 < twoPow n :=
  Nat.pow_pos (by decide)

end Rulebook
