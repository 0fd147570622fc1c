import Rulebook.Operator.Apply
import Rulebook.Proofs.Data.Rendering
import Rulebook.Proofs.Number.FloatText

/-! # Numbers that are taken exactly

An integer of a JSON text becomes the decimal of its value. A float is read from its text, and all
that can be lost there are digits behind the last place of a decimal: the shift by the power of ten
rounds to 28 places (`Decimal.shift_error`), and it fails only where the power is too small or the
value too large (`Decimal.exists_shift_iff`). So a float is taken exactly if and only if the number
that its text denotes has no more places than that (`coercion_is_exact_up_to_last_place`).
-/

set_option autoImplicit false

namespace Rulebook

theorem Operator.operand_num_iff {op : Operator} {n : JsonNumber} {d : Decimal} :
    op.operand (.json (.num n)) = .ok d ↔ n.toDecimal = .ok d := by
  rw [operand, Datum.asNumber?]
  cases n.toDecimal <;> simp [Except.toOption]

/-! ## Main statements -/

/-- As an operand, an integer is taken exactly, and a float as what is read from its text, which
denotes a number that is rounded to it. What is read is off from the number that a text denotes by
at most half a unit of the last place of a decimal, and it is that number if and only if the number
has no more places. Without a power of ten, nothing fails and every place is kept. -/
theorem coercion_is_exact_up_to_last_place {t : FloatText} (ht : t.Printed) :
    (∀ op k hk, ∃ d, Operator.operand op (.json (.num (.integer k hk))) = .ok d ∧ d.value = k) ∧
    (∀ x : Double, ∃ s : FloatText, s.Printed ∧ s.text = x.text ∧
      (x.mantissa ≠ 0 → s.negative = x.negative ∧ x.Covers s.magnitude) ∧
      ∀ op d, Operator.operand op (.json (.num (.float x))) = .ok d ↔
        Decimal.parseEither s.text.toList = .ok d) ∧
    ((∃ d, Decimal.parseEither t.text.toList = .ok d) ↔ -28 ≤ t.power ∧ t.magnitude < 2 ^ 96) ∧
    (t.exponent = none →
      ∃ d, Decimal.parseEither t.text.toList = .ok d ∧ d.value = t.value) ∧
    (t.fraction.length ≤ t.power + 28 → Decimal.HasPlaces t.value) ∧
    ∀ d, Decimal.parseEither t.text.toList = .ok d →
      |d.value - t.value| ≤ 1 / 2 / 10 ^ 28 ∧
        (d.value = t.value ↔ Decimal.HasPlaces t.value) := by
  refine ⟨fun op k hk => ⟨_, Operator.operand_num_iff.mpr rfl, Decimal.value_ofInt _⟩,
    fun x => ?_, ?_⟩
  · obtain ⟨s, hs, htext, hcovers⟩ := x.exists_floatText
    refine ⟨s, hs, htext, hcovers, fun op d => ?_⟩
    rw [Operator.operand_num_iff, JsonNumber.toDecimal_float_iff, hs.parseEither_text, htext]
  · rw [ht.parseEither_text]
    refine ⟨ht.exists_ofString_iff, ht.exists_ofString_of_plain, FloatText.hasPlaces_value,
      fun d hd => ?_⟩
    have hclose := ht.ofString_error hd
    exact ⟨hclose, Decimal.value_eq_iff hclose⟩

theorem coercion_is_exact_up_to_last_place_scientific :
    let t : FloatText := ⟨true, ['2'], ['5'], some (-27)⟩
    t.Printed ∧ t.text = "-2.5e-27" ∧ t.value = -25 / 10 ^ 28 ∧
      ∃ d, Decimal.parseEither t.text.toList = .ok d ∧ d.value = t.value := by
  intro t
  have ht : t.Printed :=
    ⟨List.all_eq_true.mp rfl, by decide, .inr ⟨-27, '2', rfl, by decide, rfl, by decide⟩⟩
  have hmagnitude : t.magnitude = 25 * 10 ^ (-28 : ℤ) := rfl
  obtain ⟨-, -, hsucceeds, -, hplaces, hread⟩ := coercion_is_exact_up_to_last_place ht
  obtain ⟨d, hd⟩ := hsucceeds.mpr ⟨by decide, by rw [hmagnitude]; norm_num⟩
  refine ⟨ht, rfl, ?_, d, hd, (hread d hd).2.mpr (hplaces (by decide))⟩
  show -t.magnitude = _
  rw [hmagnitude]
  norm_num

/-- A double of two digits whose second one stands behind the last place of a decimal, and which is
taken as a different number. -/
theorem raw_double_is_rounded :
    let x : Double := ⟨false, 0x17c4b90ebc4813, -145, by decide⟩
    let t : FloatText := ⟨false, ['1'], ['5'], some (-28)⟩
    t.Printed ∧ t.text = "1.5e-28" ∧ x.text = t.text ∧ t.value = 15 / 10 ^ 29 ∧
      ∃ d, Decimal.parseEither t.text.toList = .ok d ∧
        Operator.ge.operand (.json (.num (.float x))) = .ok d ∧
        d.value = 2 / 10 ^ 28 ∧ d.value ≠ t.value := by
  intro x t
  have ht : t.Printed :=
    ⟨List.all_eq_true.mp rfl, by decide, .inr ⟨-28, '1', rfl, by decide, rfl, by decide⟩⟩
  have htext : x.text = t.text := by decide +kernel
  have hvalue : t.value = 15 / 10 ^ 29 := by
    have hmagnitude : t.value = 15 * 10 ^ (-29 : ℤ) := rfl
    rw [hmagnitude]
    norm_num
  have hparts : (Decimal.ofString t.text).toOption.map Decimal.parts = some (false, 2, 28) := by
    decide +kernel
  cases hread : Decimal.ofString t.text with
  | error e =>
    rw [hread] at hparts
    cases hparts
  | ok d =>
    rw [hread] at hparts
    have htaken : d.value = 2 / 10 ^ 28 := by
      rw [Decimal.value_of_parts (Option.some.inj hparts)]
      norm_num [cast_tenPow]
    refine ⟨ht, rfl, htext, hvalue, d, ht.parseEither_text.trans hread, ?_, htaken, ?_⟩
    · exact Operator.operand_num_iff.mpr (JsonNumber.toDecimal_float_iff.mpr (htext ▸ hread))
    · rw [htaken, hvalue]
      norm_num

end Rulebook
