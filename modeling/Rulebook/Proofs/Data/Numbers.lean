import Rulebook.Proofs.Data.Induction

/-! # The numbers in a value

`Json.numbers` lists the numbers of a JSON value in depth-first order, `Datum.rawNumbers` those of
the raw JSON in a datum.
-/

set_option autoImplicit false

namespace Rulebook

namespace Json

mutual

def numbers : Json → List JsonNumber
  | .num n => [n]
  | .arr items => itemNumbers items
  | .obj fields => fieldNumbers fields
  | _ => []

def itemNumbers : List Json → List JsonNumber
  | [] => []
  | a :: rest => a.numbers ++ itemNumbers rest

def fieldNumbers : List (String × Json) → List JsonNumber
  | [] => []
  | e :: rest => e.2.numbers ++ fieldNumbers rest

end

theorem itemNumbers_eq (items : List Json) : itemNumbers items = items.flatMap numbers := by
  induction items with
  | nil => rfl
  | cons a rest ih => rw [itemNumbers, ih, List.flatMap_cons]

theorem fieldNumbers_eq (fields : List (String × Json)) :
    fieldNumbers fields = fields.flatMap fun e => e.2.numbers := by
  induction fields with
  | nil => rfl
  | cons e rest ih => rw [fieldNumbers, ih, List.flatMap_cons]

theorem numbers_subset_of_item {items : List Json} {a : Json} (h : a ∈ items) :
    a.numbers ⊆ (Json.arr items).numbers := by
  rw [numbers, itemNumbers_eq]
  exact fun n hn => List.mem_flatMap.mpr ⟨a, h, hn⟩

theorem forall_numbers_arr {P : JsonNumber → Prop} {items : List Json} :
    (∀ n ∈ (Json.arr items).numbers, P n) ↔ ∀ a ∈ items, ∀ n ∈ a.numbers, P n := by
  rw [numbers, itemNumbers_eq]
  simp only [List.mem_flatMap, forall_exists_index, and_imp]
  exact ⟨fun h a ha n hn => h n a ha hn, fun h n a ha hn => h a ha n hn⟩

theorem forall_numbers_obj {P : JsonNumber → Prop} {fields : List (String × Json)} :
    (∀ n ∈ (Json.obj fields).numbers, P n) ↔ ∀ e ∈ fields, ∀ n ∈ e.2.numbers, P n := by
  rw [numbers, fieldNumbers_eq]
  simp only [List.mem_flatMap, forall_exists_index, and_imp]
  exact ⟨fun h e he n hn => h n e he hn, fun h n e he hn => h e he n hn⟩

end Json

namespace Datum

mutual

/-- The numbers of the raw JSON in a datum, at any depth. -/
def rawNumbers : Datum → List JsonNumber
  | .list items => itemRawNumbers items
  | .map entries => entryRawNumbers entries
  | .record _ fields => entryRawNumbers fields
  | .json value => value.numbers
  | _ => []

def itemRawNumbers : List Datum → List JsonNumber
  | [] => []
  | a :: rest => a.rawNumbers ++ itemRawNumbers rest

def entryRawNumbers : List (String × Datum) → List JsonNumber
  | [] => []
  | e :: rest => e.2.rawNumbers ++ entryRawNumbers rest

end

theorem rawNumbers_subset_of_item {items : List Datum} {a : Datum} (h : a ∈ items) :
    a.rawNumbers ⊆ (Datum.list items).rawNumbers := by
  rw [rawNumbers]
  induction items with
  | nil => cases h
  | cons b rest ih =>
    rw [itemRawNumbers]
    rcases List.mem_cons.mp h with rfl | h
    · exact List.subset_append_left _ _
    · exact List.Subset.trans (ih h) (List.subset_append_right _ _)

end Datum

end Rulebook
