import Rulebook.Proofs.Data.Conversion
import Rulebook.Proofs.Number.DoubleText
import Rulebook.Proofs.Number.Shift
import Rulebook.Proofs.Number.ToDouble

/-! # How decimals are rendered in JSON

A decimal whose value is an integer of 64 signed bits is rendered as that integer, any other one as a
double (`toJson_of_int`, `toJson_of_double`). A double of few digits that is no such integer is
rendered as it came (`toJson_of_short`).
-/

set_option autoImplicit false

namespace Rulebook

/-- Zero, a whole number, or a fraction of fewer than sixteen digits with at most 22 places. -/
def Double.IsShort (x : Double) : Prop :=
  x.mantissa = 0 ∨ 0 ≤ x.shortest.power ∨
    x.shortest.digits < 10 ^ 15 ∧ -22 ≤ x.shortest.power

/-- An integer of 64 signed bits or a double of few digits. -/
def JsonNumber.IsShort : JsonNumber → Prop
  | .integer value _ => IsInt64 value
  | .float x => x.IsShort

instance (x : Double) : Decidable x.IsShort :=
  inferInstanceAs (Decidable (_ ∨ _ ∨ _ ∧ _))

instance : DecidablePred JsonNumber.IsShort
  | .integer value _ => inferInstanceAs (Decidable (IsInt64 value))
  | .float x => inferInstanceAs (Decidable x.IsShort)

namespace Decimal

variable {d : Decimal} {k : Int}

theorem toInt?_eq_some_iff : d.toInt? = some k ↔ d.value = k := by
  have hpos : (0 : Int) < tenPow d.scale := by exact_mod_cast tenPow_pos d.scale
  rw [value, div_eq_iff (cast_tenPow_pos _).ne', toInt?]
  constructor
  · intro h
    split at h
    · next hmod =>
      obtain rfl := Option.some.inj h
      exact_mod_cast (Int.ediv_mul_cancel (Int.dvd_of_emod_eq_zero hmod)).symm
    · cases h
  · intro h
    have hcoef : d.coefficient = k * tenPow d.scale := by exact_mod_cast h
    rw [hcoef, if_pos (Int.mul_emod_left _ _), Int.mul_ediv_cancel _ hpos.ne']

theorem toJson_of_int (h : d.value = k) (hk : IsInt64 k) :
    d.toJson = .num (.integer k (inRange_of_isInt64 hk)) := by
  rw [toJson, toInt?_eq_some_iff.mpr h]
  exact dif_pos hk

theorem toJson_of_double (h : ∀ k : Int, d.value = k → ¬ IsInt64 k) {x : Double}
    (hx : d.toDouble? = some x) : d.toJson = .num (.float x) := by
  rw [toJson, hx]
  dsimp only
  split
  · next k hk => exact dif_neg (h k (toInt?_eq_some_iff.mp hk))
  · rfl

theorem value_ofInt (h : k.natAbs < 0x1000000000000000000000000) : (ofInt k h).value = k := by
  rw [value, coefficient_ofInt]
  show (k : ℚ) / (tenPow 0 : Nat) = k
  simp

end Decimal

theorem JsonNumber.toDecimal_float_iff {x : Double} {d : Decimal} :
    (JsonNumber.float x).toDecimal = .ok d ↔ Decimal.ofString x.text = .ok d := by
  rw [toDecimal]
  cases Decimal.ofString x.text <;> simp

namespace Double

variable {x : Double} {d : Decimal}

/-- A decimal with the shortest digits of a short fraction is converted back to it. -/
theorem toDouble?_of_short_fraction (hne : x.mantissa ≠ 0) (hx : x.shortest.digits < 10 ^ 15)
    (hplaces : -22 ≤ x.shortest.power) (hpower : x.shortest.power < 0)
    (hparts : d.parts = (x.negative, x.shortest.digits, (-x.shortest.power).toNat)) :
    d.toDouble? = some x := by
  obtain ⟨hneg, hmag, hscale⟩ := Decimal.parts_eq_iff.mp hparts
  obtain ⟨hcovers, -, -, hmod⟩ := shortest_spec hne
  obtain ⟨s, hs⟩ : ∃ s : Nat, x.shortest.power = -((s + 1 : Nat) : Int) :=
    ⟨(-x.shortest.power).toNat - 1, by omega⟩
  have hscale' : d.scale = s + 1 := by omega
  have hrest : d.magnitude % tenPow d.scale ≠ 0 := by
    intro hzero
    rw [hscale', hmag, tenPow_succ] at hzero
    exact hmod (Nat.mod_eq_zero_of_dvd
      ((Nat.dvd_mul_right 10 _).trans (Nat.dvd_of_mod_eq_zero hzero)))
  have hvalue : (d.magnitude : ℚ) / tenPow d.scale = x.shortest.value := by
    rw [hscale', hmag, Digits.value, hs, zpow_neg, zpow_natCast, cast_tenPow, div_eq_mul_inv]
  exact Decimal.toDouble?_of_fraction hne (by omega) (by omega) (by omega) hrest
    (hvalue ▸ hcovers) hneg

/-- A decimal with the shortest digits of a whole double is converted back to it. -/
theorem toDouble?_of_short_whole (hne : x.mantissa ≠ 0) (hpower : 0 ≤ x.shortest.power)
    (hparts : d.parts =
      (x.negative, x.shortest.digits * 10 ^ x.shortest.power.toNat, 0)) :
    d.toDouble? = some x := by
  obtain ⟨hneg, hmag, hscale⟩ := Decimal.parts_eq_iff.mp hparts
  have hvalue : (d.magnitude : ℚ) = x.shortest.value := by
    obtain ⟨s, hs⟩ := Int.eq_ofNat_of_zero_le hpower
    rw [hmag, Digits.value, hs, Int.toNat_natCast, zpow_natCast]
    push_cast
    rfl
  exact Decimal.toDouble?_of_whole hne hscale (hvalue ▸ (shortest_spec hne).1) hneg

/-- Up to the sixteenth place before the point a whole number is an integer of 64 signed bits. -/
theorem value_isInt64_of_pointed {negative : Bool} {n : Nat} (hn : n < 10 ^ 16)
    (hparts : d.parts = (negative, n * 10, 1)) : ∃ k : Int, d.value = k ∧ IsInt64 k := by
  refine ⟨if negative then -(n : Int) else n, ?_, ?_⟩
  · rw [Decimal.value_of_parts hparts, tenPow_succ, tenPow_zero]
    split <;> push_cast <;> ring
  · unfold IsInt64
    split <;> omega

/-- A double of few digits that is no integer of 64 signed bits is rendered as it came. -/
theorem toJson_of_short (hx : x.IsShort) (hd : (JsonNumber.float x).toDecimal = .ok d)
    (hint : ∀ k : Int, d.value = k → ¬ IsInt64 k) : d.toJson = .num (.float x) := by
  have htext := JsonNumber.toDecimal_float_iff.mp hd
  rcases eq_or_ne x.mantissa 0 with hzero | hne
  · obtain ⟨e, he, hparts⟩ := ofString_zero hzero
    cases htext.symm.trans he
    have hvalue : d.value = (0 : Int) := by
      rw [Decimal.value_of_parts hparts]
      simp
    exact absurd (by decide) (hint 0 hvalue)
  · have hshort := hx.resolve_left hne
    refine Decimal.toJson_of_double hint ?_
    rcases ofString_text hne (by omega) htext with
      ⟨hpower, hparts⟩ | ⟨hpower, hparts | ⟨hlt, hparts⟩⟩
    · have hfew := hshort.resolve_left (by omega)
      exact toDouble?_of_short_fraction hne hfew.1 hfew.2 hpower hparts
    · exact toDouble?_of_short_whole hne hpower hparts
    · obtain ⟨k, hvalue, hk⟩ := value_isInt64_of_pointed hlt hparts
      exact absurd hk (hint k hvalue)

end Double

end Rulebook
