import Mathlib.Algebra.Order.Field.Rat
import Mathlib.Tactic.FieldSimp
import Mathlib.Tactic.Ring
import Rulebook.Number.Decimal

/-! # The value of a decimal

`Decimal.value` is the rational number for which a decimal stands. Decimals compare as their values
(`equal_iff`, `lt_iff`, `le_iff`), and the normal form, in which no place is left to cancel,
belongs to the value: it is the same exactly for equal decimals (`normalForm_eq_iff`).
-/

set_option autoImplicit false

namespace Rulebook

theorem tenPow_eq (n : Nat) : tenPow n = 10 ^ n :=
  rfl

theorem twoPow_eq (n : Nat) : twoPow n = 2 ^ n :=
  rfl

theorem cast_tenPow (n : Nat) : (tenPow n : ℚ) = 10 ^ n := by
  rw [tenPow_eq]
  push_cast
  rfl

theorem cast_tenPow_pos (n : Nat) : (0 : ℚ) < tenPow n := by
  exact_mod_cast tenPow_pos n

namespace Decimal

/-- The number for which a decimal stands. -/
def value (d : Decimal) : ℚ :=
  d.coefficient / tenPow d.scale

variable {a b : Decimal}

/-- Comparing values over a common denominator is comparing cross products. -/
theorem cross_le_iff :
    a.coefficient * tenPow b.scale ≤ b.coefficient * tenPow a.scale ↔ a.value ≤ b.value := by
  rw [value, value, div_le_div_iff₀ (cast_tenPow_pos _) (cast_tenPow_pos _)]
  exact_mod_cast Iff.rfl

theorem equal_iff : a.equal b = true ↔ a.value = b.value := by
  have h : a.coefficient * tenPow b.scale = b.coefficient * tenPow a.scale ↔
      a.value = b.value := by
    rw [le_antisymm_iff, le_antisymm_iff, cross_le_iff, cross_le_iff]
  rw [equal, beq_iff_eq, h]

theorem le_iff : a.le b = true ↔ a.value ≤ b.value := by
  rw [le, decide_eq_true_eq, cross_le_iff]

theorem lt_iff : a.lt b = true ↔ a.value < b.value := by
  rw [lt, decide_eq_true_eq, ← not_le, cross_le_iff, not_le]

/-! ## The normal form -/

/-- Cancelling keeps the value. -/
theorem cancelTens_value (c : Int) (s : Nat) :
    ((cancelTens c s).1 : ℚ) / tenPow (cancelTens c s).2 = c / tenPow s := by
  induction s generalizing c with
  | zero => rfl
  | succ s ih =>
    rw [cancelTens]
    split
    · next h =>
      obtain ⟨q, rfl⟩ : (10 : Int) ∣ c := Int.dvd_of_emod_eq_zero h
      have hten : (tenPow s : ℚ) ≠ 0 := (cast_tenPow_pos s).ne'
      rw [ih, Int.mul_ediv_cancel_left q (by decide), tenPow_succ]
      push_cast
      field_simp
    · rfl

/-- After cancelling, no place is left that could be cancelled. -/
theorem cancelTens_reduced (c : Int) (s : Nat) :
    (cancelTens c s).2 = 0 ∨ (cancelTens c s).1 % 10 ≠ 0 := by
  induction s generalizing c with
  | zero => exact .inl rfl
  | succ s ih =>
    rw [cancelTens]
    split
    · exact ih _
    · next h => exact .inr h

/-- A fraction over a power of ten that has no place to cancel has the least denominator. -/
theorem scale_le_of_reduced {c e : Int} {s t : Nat} (hs : s = 0 ∨ c % 10 ≠ 0)
    (h : c * tenPow t = e * tenPow s) : s ≤ t := by
  by_contra hlt
  obtain ⟨k, rfl⟩ : ∃ k, s = t + k + 1 := ⟨s - t - 1, by omega⟩
  have hc : c = 10 * (e * tenPow k) := by
    have hpos : (0 : Int) < tenPow t := by exact_mod_cast tenPow_pos t
    apply Int.eq_of_mul_eq_mul_right hpos.ne'
    rw [h, tenPow_eq, tenPow_eq, tenPow_eq]
    push_cast
    ring
  rcases hs with hs | hs
  · omega
  · exact hs (by omega)

theorem normalForm_eq_iff : a.normalForm = b.normalForm ↔ a.equal b = true := by
  rw [equal_iff]
  have ha : ((a.normalForm).1 : ℚ) / tenPow a.normalForm.2 = a.value := cancelTens_value _ _
  have hb : ((b.normalForm).1 : ℚ) / tenPow b.normalForm.2 = b.value := cancelTens_value _ _
  refine ⟨fun h => by rw [← ha, ← hb, h], fun h => ?_⟩
  rw [← ha, ← hb, div_eq_div_iff (cast_tenPow_pos _).ne' (cast_tenPow_pos _).ne'] at h
  have hcross : a.normalForm.1 * tenPow b.normalForm.2 =
      b.normalForm.1 * tenPow a.normalForm.2 := by exact_mod_cast h
  have hscale : a.normalForm.2 = b.normalForm.2 :=
    Nat.le_antisymm (scale_le_of_reduced (cancelTens_reduced _ _) hcross)
      (scale_le_of_reduced (cancelTens_reduced _ _) hcross.symm)
  have hpos : (0 : Int) < tenPow b.normalForm.2 := by exact_mod_cast tenPow_pos _
  rw [hscale] at hcross
  exact Prod.ext (Int.eq_of_mul_eq_mul_right hpos.ne' hcross) hscale

end Decimal

end Rulebook
