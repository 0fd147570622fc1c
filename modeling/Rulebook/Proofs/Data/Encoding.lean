import Rulebook.Proofs.Data.Decoding
import Rulebook.Proofs.Data.Rendering

/-! # From data back to the same JSON

A JSON value is restored if its native form is rendered as that very value, with the arrays, the
objects and the nulls in it. Only numbers can keep a value from being restored
(`Datum.toJson_eq_iff`), and integers of 64 signed bits do not.
-/

set_option autoImplicit false

namespace Rulebook

/-- An integer of 64 signed bits; doubles are none, also where they are whole. -/
def JsonNumber.IsSigned : JsonNumber → Prop
  | .integer value _ => IsInt64 value
  | .float _ => False

instance : DecidablePred JsonNumber.IsSigned
  | .integer value _ => inferInstanceAs (Decidable (IsInt64 value))
  | .float _ => inferInstanceAs (Decidable False)

/-- The decimal form of the number is rendered as the number itself. -/
def JsonNumber.Restored (n : JsonNumber) : Prop :=
  ∃ d, n.toDecimal = .ok d ∧ d.toJson = .num n

theorem JsonNumber.restored_of_isSigned {n : JsonNumber} (hn : n.IsSigned) : n.Restored := by
  cases n with
  | integer k hk => exact ⟨_, rfl, Decimal.toJson_of_int (Decimal.value_ofInt _) hn⟩
  | float x => cases hn

namespace Datum

variable {j : Json} {d : Datum}

theorem toJson_record (typeName : String) (fields : List (String × Datum)) :
    (Datum.record typeName fields).toJson = (Datum.map fields).toJson := by
  rw [toJson, toJson]

/-- A native form is rendered as the value it comes from exactly if all numbers are restored. -/
theorem toJson_eq_iff (h : ofJson j = .ok d) : d.toJson = j ↔ ∀ n ∈ j.numbers, n.Restored := by
  refine native_induction (P := fun j d => d.toJson = j ↔ ∀ n ∈ j.numbers, n.Restored)
    ?_ ?_ ?_ ?_ ?_ ?_ h
  · simp [toJson, Json.numbers]
  · simp [toJson, Json.numbers]
  · intro n e he
    simp [toJson, Json.numbers, JsonNumber.Restored, he]
  · simp [toJson, Json.numbers]
  · intro items ds hitems
    rw [toJson_list, Json.arr.injEq, ← List.forall₂_eq_eq_eq, List.forall₂_map_left_iff,
      forall₂_iff_forall_mem hitems, Json.forall_numbers_arr]
  · intro fields entries hfields
    have hfields' : List.Forall₂ (fun f e => (e.1, e.2.toJson) = f ↔
        ∀ n ∈ f.2.numbers, n.Restored) fields entries :=
      hfields.imp fun f e h => by simpa [Prod.ext_iff, h.1] using h.2
    rw [toJson_map, Json.obj.injEq, ← List.forall₂_eq_eq_eq, List.forall₂_map_left_iff,
      forall₂_iff_forall_mem hfields', Json.forall_numbers_obj]

/-- A value with restored numbers has a native form, which is rendered as the value. -/
theorem exists_toJson_eq (h : ∀ n ∈ j.numbers, n.Restored) :
    ∃ d, ofJson j = .ok d ∧ d.toJson = j := by
  obtain ⟨d, hd⟩ := (ofJson_isOk_iff j).mpr fun n hn => (h n hn).imp fun _ => And.left
  exact ⟨d, hd, (toJson_eq_iff hd).mpr h⟩

end Datum

/-! ## Main statement -/

/-- A value all of whose numbers are integers of 64 signed bits is decoded, and encoded again as
it was; an object is so also by way of a record. A decimal whose value is such an integer is encoded
as it, whatever its scale. -/
theorem encoding_undoes_decoding :
    (∀ j : Json, (∀ n ∈ j.numbers, n.IsSigned) → ∃ d, Datum.ofJson j = .ok d ∧ d.toJson = j) ∧
    (∀ fields, (∀ n ∈ (Json.obj fields).numbers, n.IsSigned) → ∀ typeName, ∃ entries,
      Datum.recordOfJson typeName (.obj fields) = .ok (.record typeName entries) ∧
        (Datum.record typeName entries).toJson = .obj fields) ∧
    ∀ (d : Decimal) (k : Int), d.value = k → ∀ hk : IsInt64 k,
      (Datum.number d).toJson = .num (.integer k (inRange_of_isInt64 hk)) := by
  have hrestored : ∀ j : Json, (∀ n ∈ j.numbers, n.IsSigned) →
      ∃ d, Datum.ofJson j = .ok d ∧ d.toJson = j :=
    fun j hj => Datum.exists_toJson_eq fun n hn => JsonNumber.restored_of_isSigned (hj n hn)
  refine ⟨hrestored, fun fields hfields typeName => ?_, fun d k hvalue hk => ?_⟩
  · obtain ⟨d, hd, hjson⟩ := hrestored _ hfields
    obtain ⟨entries, hentries, rfl⟩ := Datum.ofJson_obj_iff.mp hd
    refine ⟨entries, ?_, (Datum.toJson_record typeName entries).trans hjson⟩
    rw [Datum.recordOfJson, Datum.entriesOfObject, Datum.entriesOfJson_iff.mpr hentries]
    rfl
  · rw [Datum.toJson, Decimal.toJson_of_int hvalue hk]

/-- Both ends of the range next to a null and empty nests, and eighteen with one place. -/
theorem encoding_undoes_decoding_nested :
    let least : JsonNumber := .integer (-0x8000000000000000) (by decide)
    let greatest : JsonNumber := .integer 0x7fffffffffffffff (by decide)
    let fields : List (String × Json) :=
      [("ends", .arr [.num least, .num greatest, .null]), ("rest", .obj [("none", .arr [])])]
    let d : Decimal := ⟨false, 180, 1, by decide, by decide⟩
    (∃ r, Datum.recordOfJson "Range" (.obj fields) = .ok r ∧ r.toJson = .obj fields) ∧
      (Datum.number d).toJson = .num (.integer 18 (by decide)) := by
  intro least greatest fields d
  obtain ⟨-, hrecord, hnumber⟩ := encoding_undoes_decoding
  have hsigned : ∀ n ∈ (Json.obj fields).numbers, n.IsSigned := by decide
  obtain ⟨entries, hentries, hjson⟩ := hrecord fields hsigned "Range"
  have hvalue : d.value = (18 : Int) := by
    rw [Decimal.value]
    norm_num [d, Decimal.coefficient, tenPow_eq]
  exact ⟨⟨_, hentries, hjson⟩, hnumber d 18 hvalue (by decide)⟩

end Rulebook
