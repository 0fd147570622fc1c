import Rulebook.Proofs.Data.RoundTrip
import Rulebook.Proofs.Operator.RawScalars

/-! # Raw JSON values against their native forms

A raw scalar equals its native form. A raw array or object is compared with the JSON value to which
its native form is rendered, so it equals the native form exactly if every number in it is kept by
the rendering (`matches_native_iff`). Integers of 64 signed bits are kept; a double whose text
denotes such an integer is not, for it is rendered as an integer (`not_kept_of_isInt64Double`).
-/

set_option autoImplicit false

namespace Rulebook

/-- The decimal form of a number is rendered as the same number. -/
def JsonNumber.Kept (n : JsonNumber) : Prop :=
  ∃ d, n.toDecimal = .ok d ∧ d.toJson.equal (.num n) = true

/-- A double whose text denotes an integer of 64 signed bits. -/
def JsonNumber.IsInt64Double : JsonNumber → Prop
  | .integer _ _ => False
  | .float x => ∃ (d : Decimal) (k : Int), (float x).toDecimal = .ok d ∧ d.value = k ∧ IsInt64 k

instance : DecidablePred JsonNumber.IsInt64Double
  | .integer _ _ => inferInstanceAs (Decidable False)
  | .float x => decidable_of_iff
      (((JsonNumber.float x).toDecimal.toOption.bind Decimal.toInt?).any fun k => IsInt64 k) (by
    rw [JsonNumber.IsInt64Double]
    cases (JsonNumber.float x).toDecimal with
    | error e => simp [Except.toOption]
    | ok d => simp [Except.toOption, Option.any_eq_true, Decimal.toInt?_eq_some_iff])

namespace JsonNumber

theorem equal_self (n : JsonNumber) : n.equal n = true := by
  cases n with
  | integer k hk => exact beq_self_eq_true k
  | float x => simp [equal, Double.equal]

/-- A double whose text denotes an integer of 64 signed bits is rendered as that integer. -/
theorem not_kept_of_isInt64Double {n : JsonNumber} (hn : n.IsInt64Double) : ¬ n.Kept := by
  rintro ⟨e, he, hkept⟩
  cases n with
  | integer k hk => exact hn
  | float x =>
    obtain ⟨d, k, hd, hvalue, hk⟩ := hn
    obtain rfl : d = e := Except.ok.inj (hd.symm.trans he)
    rw [Decimal.toJson_of_int hvalue hk, Json.equal] at hkept
    cases hkept

theorem kept_of_short {n : JsonNumber} (hn : n.IsShort) (hdecimal : n.HasDecimal)
    (hint : ¬ n.IsInt64Double) : n.Kept := by
  obtain ⟨d, hd⟩ := hdecimal
  have hjson : d.toJson = .num n := by
    cases n with
    | integer k hk =>
      obtain rfl := Except.ok.inj hd
      exact Decimal.toJson_of_int (Decimal.value_ofInt _) hn
    | float x =>
      exact Double.toJson_of_short hn hd fun k hvalue hk => hint ⟨d, k, hd, hvalue, hk⟩
  refine ⟨d, hd, ?_⟩
  rw [hjson, Json.equal]
  exact n.equal_self

-- The double `-2 ^ 63` is kept: its text denotes `-9223372036854776000`, which is out of range.
example :
    let least : JsonNumber := .float ⟨true, 0x10000000000000, 11, by decide⟩
    least.IsShort ∧ ¬ least.IsInt64Double := by
  decide +kernel

end JsonNumber

namespace Datum

variable {j : Json} {d : Datum}

/-- A value is what its native form is rendered to exactly if all its numbers are kept. -/
theorem toJson_equal_iff (h : ofJson j = .ok d) :
    d.toJson.equal j = true ↔ ∀ n ∈ j.numbers, n.Kept := by
  refine native_induction (P := fun j d => d.toJson.equal j = true ↔ ∀ n ∈ j.numbers, n.Kept)
    ?_ ?_ ?_ ?_ ?_ ?_ h
  · simp [toJson, Json.equal, Json.numbers]
  · simp [toJson, Json.equal, Json.numbers]
  · intro n e he
    simp [toJson, Json.numbers, JsonNumber.Kept, he]
  · simp [toJson, Json.equal, Json.numbers]
  · intro items ds hitems
    rw [toJson_list, Json.equal, Json.equalItems_iff, List.forall₂_map_left_iff,
      forall₂_iff_forall_mem hitems, Json.forall_numbers_arr]
  · intro fields entries hfields
    have hfields' : List.Forall₂ (fun f e => (e.1 == f.1 && e.2.toJson.equal f.2) = true ↔
        ∀ n ∈ f.2.numbers, n.Kept) fields entries :=
      hfields.imp fun f e h => by simpa [h.1] using h.2
    rw [toJson_map, Json.equal, Json.equalFields_iff, List.forall₂_map_left_iff,
      forall₂_iff_forall_mem hfields', Json.forall_numbers_obj]

theorem matches_native_iff (h : ofJson j = .ok d) :
    (Datum.json j).matches d = true ↔ j.isScalar = true ∨ ∀ n ∈ j.numbers, n.Kept := by
  cases j with
  | num n =>
    obtain ⟨e, he, rfl⟩ := ofJson_num_iff.mp h
    have hself : e.equal e = true := Decimal.equal_iff.mpr rfl
    rw [matches_eq, asNumber?_json h]
    simp [asNumber?, Json.isScalar, hself]
  | arr items =>
    rw [← toJson_equal_iff h, Json.equal_comm]
    obtain ⟨ds, -, rfl⟩ := ofJson_arr_iff.mp h
    simp [matches_eq, asNumber?, asText?, isRaw, Json.isScalar, toJson]
  | obj fields =>
    rw [← toJson_equal_iff h, Json.equal_comm]
    obtain ⟨entries, -, rfl⟩ := ofJson_obj_iff.mp h
    simp [matches_eq, asNumber?, asText?, isRaw, Json.isScalar, toJson]
  | _ =>
    cases h
    simp [matches_eq, asNumber?, asText?, isRaw, Json.isScalar, toJson, Json.equal]

end Datum

/-! ## Main statement -/

/-- Equality of a raw JSON value and its native form, in either order. It holds of scalars, and of
arrays and objects all of whose numbers are kept. -/
theorem equality_with_native_form {j : Json} {d : Datum} (h : Datum.ofJson j = .ok d) :
    (∃ b, Operator.eq.apply (.json j) d = .ok b ∧ Operator.eq.apply d (.json j) = .ok b ∧
      Operator.ne.apply (.json j) d = .ok (!b) ∧ Operator.ne.apply d (.json j) = .ok (!b) ∧
      (b = true ↔ j.isScalar = true ∨ ∀ n ∈ j.numbers, n.Kept)) ∧
    ∀ n ∈ j.numbers, (n.IsInt64Double → ¬ n.Kept) ∧ (n.IsShort → ¬ n.IsInt64Double → n.Kept) := by
  refine ⟨⟨(Datum.json j).matches d, rfl, ?_, rfl, ?_, Datum.matches_native_iff h⟩, fun n hn => ?_⟩
  · rw [Operator.apply, Datum.matches_comm]
  · rw [Operator.apply, Datum.matches_comm]
  · exact ⟨JsonNumber.not_kept_of_isInt64Double,
      fun hshort => JsonNumber.kept_of_short hshort (Datum.hasDecimal_of_mem h n hn)⟩

theorem equality_with_native_form_nested :
    let half : Double := ⟨false, 0x10000000000000, -53, by decide⟩
    let j : Json := .obj [("ages", .arr [.num (.integer 18 (by decide)), .num (.float half)])]
    ∃ d, Datum.ofJson j = .ok d ∧ Operator.eq.apply (.json j) d = .ok true := by
  intro half j
  have hsome : (Datum.ofJson j).toOption.isSome = true := by decide +kernel
  cases h : Datum.ofJson j with
  | error e =>
    rw [h] at hsome
    cases hsome
  | ok d =>
    obtain ⟨⟨b, heq, -, -, -, hiff⟩, hnumbers⟩ := equality_with_native_form h
    have hplain : ∀ n ∈ j.numbers, n.IsShort ∧ ¬ n.IsInt64Double := by decide +kernel
    have hb : b = true := hiff.mpr (.inr fun n hn =>
      (hnumbers n hn).2 (hplain n hn).1 (hplain n hn).2)
    exact ⟨d, rfl, hb ▸ heq⟩

/-- In a list, `1.0` differs from its native form, which is rendered as `1`. -/
theorem list_of_whole_double_differs :
    let one : Double := ⟨false, 0x10000000000000, -52, by decide⟩
    let j : Json := .arr [.num (.float one)]
    ∃ d, Datum.ofJson j = .ok d ∧ Operator.eq.apply (.json j) d = .ok false := by
  intro one j
  have hany : ((Datum.ofJson j).toOption.any fun d => !(Datum.json j).matches d) = true := by
    decide +kernel
  cases h : Datum.ofJson j with
  | error e =>
    rw [h] at hany
    cases hany
  | ok d =>
    rw [h] at hany
    refine ⟨d, rfl, congrArg Except.ok ?_⟩
    simpa [Except.toOption] using hany

end Rulebook
