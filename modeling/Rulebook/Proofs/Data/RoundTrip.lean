import Rulebook.Proofs.Data.Decoding
import Rulebook.Proofs.Data.Rendering

/-! # From JSON to data and back

A datum returns if the JSON value to which it is rendered has an equal native form. Only numbers can
keep a datum from returning (`returns_iff`), and no number of few digits does
(`JsonNumber.returns_of_short`). An unsigned integer past the signed range can: it is rendered as a
double.
-/

set_option autoImplicit false

namespace Rulebook

def Datum.Returns (d : Datum) : Prop :=
  ∃ e, Datum.ofJson d.toJson = .ok e ∧ e.equal d = true

instance (d : Datum) : Decidable d.Returns :=
  decidable_of_iff ((Datum.ofJson d.toJson).toOption.any fun e => e.equal d) (by
    unfold Datum.Returns
    cases Datum.ofJson d.toJson <;> simp [Except.toOption])

def JsonNumber.Returns (n : JsonNumber) : Prop :=
  ∃ d, n.toDecimal = .ok d ∧ (Datum.number d).Returns

/-! ## Nests -/

namespace Datum

theorem returns_list_iff {ds : List Datum} : (Datum.list ds).Returns ↔ ∀ d ∈ ds, d.Returns := by
  unfold Returns
  rw [← exists_forall₂_iff, toJson_list]
  constructor
  · rintro ⟨e, he, hequal⟩
    obtain ⟨es, hes, rfl⟩ := ofJson_arr_iff.mp he
    exact ⟨es, List.forall₂_map_left_iff.mp hes, equalItems_iff.mp hequal⟩
  · rintro ⟨es, hes, hequal⟩
    exact ⟨.list es, ofJson_arr_iff.mpr ⟨es, List.forall₂_map_left_iff.mpr hes, rfl⟩,
      equalItems_iff.mpr hequal⟩

theorem returns_map_iff {entries : List (String × Datum)} :
    (Datum.map entries).Returns ↔ ∀ e ∈ entries, e.2.Returns := by
  have hentry (e : String × Datum) : e.2.Returns ↔
      ∃ f : String × Datum, (e.1 = f.1 ∧ ofJson e.2.toJson = .ok f.2) ∧
        (f.1 == e.1 && f.2.equal e.2) = true := by
    constructor
    · rintro ⟨d, hd, hequal⟩
      exact ⟨(e.1, d), ⟨rfl, hd⟩, by simpa using hequal⟩
    · rintro ⟨f, ⟨-, hf⟩, hequal⟩
      rw [Bool.and_eq_true] at hequal
      exact ⟨f.2, hf, hequal.2⟩
  simp only [hentry]
  rw [← exists_forall₂_iff, Returns, toJson_map]
  constructor
  · rintro ⟨e, he, hequal⟩
    obtain ⟨es, hes, rfl⟩ := ofJson_obj_iff.mp he
    exact ⟨es, List.forall₂_map_left_iff.mp hes, equalEntries_iff.mp hequal⟩
  · rintro ⟨es, hes, hequal⟩
    exact ⟨.map es, ofJson_obj_iff.mpr ⟨es, List.forall₂_map_left_iff.mpr hes, rfl⟩,
      equalEntries_iff.mpr hequal⟩

/-- Only numbers keep a value from returning. -/
theorem returns_iff {j : Json} {d : Datum} (h : ofJson j = .ok d) :
    d.Returns ↔ ∀ n ∈ j.numbers, n.Returns := by
  refine native_induction (P := fun j d => d.Returns ↔ ∀ n ∈ j.numbers, n.Returns)
    ?_ ?_ ?_ ?_ ?_ ?_ h
  · simp [Returns, Json.numbers, toJson, ofJson, equal, Json.equal]
  · simp [Returns, Json.numbers, toJson, ofJson, equal]
  · intro n e he
    simp [Json.numbers, JsonNumber.Returns, he]
  · simp [Returns, Json.numbers, toJson, ofJson, equal]
  · intro items ds hitems
    rw [returns_list_iff, forall_mem_iff_of_forall₂ hitems, Json.forall_numbers_arr]
  · intro fields entries hfields
    rw [returns_map_iff, forall_mem_iff_of_forall₂ (hfields.imp fun _ _ h => h.2),
      Json.forall_numbers_obj]

end Datum

/-! ## Numbers -/

theorem Decimal.returns_of_int {d : Decimal} {k : Int} (h : d.value = k) (hk : IsInt64 k) :
    (Datum.number d).Returns := by
  refine ⟨.number (.ofInt k (natAbs_lt_of_inRange (inRange_of_isInt64 hk))), ?_, ?_⟩
  · rw [Datum.toJson, toJson_of_int h hk]
    rfl
  · rw [Datum.equal, equal_iff, value_ofInt, h]

theorem JsonNumber.returns_of_short {n : JsonNumber} (hn : n.IsShort) (hdecimal : n.HasDecimal) :
    n.Returns := by
  obtain ⟨d, hd⟩ := hdecimal
  refine ⟨d, hd, ?_⟩
  cases n with
  | integer k hk =>
    obtain rfl := Except.ok.inj hd
    exact Decimal.returns_of_int (Decimal.value_ofInt _) hn
  | float x =>
    by_cases hint : ∃ k : Int, d.value = k ∧ IsInt64 k
    · obtain ⟨k, hvalue, hk⟩ := hint
      exact Decimal.returns_of_int hvalue hk
    · have hjson := Double.toJson_of_short hn hd fun k hvalue hk => hint ⟨k, hvalue, hk⟩
      refine ⟨.number d, ?_, ?_⟩
      · rw [Datum.toJson, hjson]
        exact Datum.ofJson_num_iff.mpr ⟨d, hd, rfl⟩
      · rw [Datum.equal, Decimal.equal_iff]

/-! ## Main statements -/

/-- A value returns exactly if each of its numbers does, and numbers of few digits all return. -/
theorem json_round_trip {j : Json} {d : Datum} (h : Datum.ofJson j = .ok d) :
    (d.Returns ↔ ∀ n ∈ j.numbers, n.Returns) ∧ ((∀ n ∈ j.numbers, n.IsShort) → d.Returns) := by
  refine ⟨Datum.returns_iff h, fun hshort => (Datum.returns_iff h).mpr fun n hn => ?_⟩
  exact JsonNumber.returns_of_short (hshort n hn) (Datum.hasDecimal_of_mem h n hn)

theorem json_round_trip_nested :
    let tenth : Double := ⟨false, 0x1999999999999a, -56, by decide⟩
    let large : Double := ⟨true, 0x1b1ae4d6e2ef50, 15, by decide⟩
    let j : Json := .obj [("age", .num (.integer 18 (by decide))),
      ("rates", .arr [.num (.float tenth), .num (.float large), .null])]
    ∃ d, Datum.ofJson j = .ok d ∧ d.Returns := by
  intro tenth large j
  have hsome : (Datum.ofJson j).toOption.isSome = true := by decide +kernel
  cases h : Datum.ofJson j with
  | error e =>
    rw [h] at hsome
    cases hsome
  | ok d => exact ⟨d, rfl, (json_round_trip h).2 (by decide +kernel)⟩

/-- The least unsigned integer past the signed range is rendered as a double, whose text has fewer
digits. -/
theorem unsigned_integer_does_not_return :
    let j : Json := .num (.integer 0x8000000000000000 (by decide))
    let d : Datum := .number (.ofInt 0x8000000000000000 (by decide))
    Datum.ofJson j = .ok d ∧ ¬ d.Returns := by
  intro j d
  exact ⟨rfl, by decide +kernel⟩

end Rulebook
