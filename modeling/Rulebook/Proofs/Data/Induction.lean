import Mathlib.Data.List.Forall2
import Rulebook.Datum.HashInput
import Rulebook.Datum.Json

/-! # Induction over JSON values and data

Arrays and objects contain JSON values, lists and maps contain data. `Json.induction` and
`Datum.induction` are induction over such nests: what holds of a value whenever it holds of the
values directly in it holds of every value.

The functions over nests recurse through helpers for items and for entries. Each helper is a
function of the library on lists (`Forall₂`, `flatMap`), and is used in that form from here on.
-/

set_option autoImplicit false

namespace Rulebook

/-! ## Lists that correspond -/

section Correspondence

variable {α β : Type} {as : List α} {bs : List β}

theorem forall_mem_of_forall₂ {P : α → Prop} (h : List.Forall₂ (fun a _ => P a) as bs) :
    ∀ a ∈ as, P a :=
  ((List.forall₂_and_left (R := fun _ _ => True) as bs).mp (h.imp fun _ _ ha => ⟨ha, trivial⟩)).1

theorem forall_mem_iff_of_forall₂ {P : α → Prop} {Q : β → Prop}
    (h : List.Forall₂ (fun a b => Q b ↔ P a) as bs) : (∀ b ∈ bs, Q b) ↔ ∀ a ∈ as, P a := by
  induction h with
  | nil => simp
  | cons hab _ ih => rw [List.forall_mem_cons, List.forall_mem_cons, hab, ih]

theorem forall₂_iff_forall_mem {P : α → Prop} {S : β → α → Prop}
    (h : List.Forall₂ (fun a b => S b a ↔ P a) as bs) : List.Forall₂ S bs as ↔ ∀ a ∈ as, P a := by
  induction h with
  | nil => simp
  | cons hab _ ih => rw [List.forall₂_cons, List.forall_mem_cons, hab, ih]

theorem exists_forall₂_iff {R : α → β → Prop} {S : β → α → Prop} :
    (∃ bs, List.Forall₂ R as bs ∧ List.Forall₂ S bs as) ↔ ∀ a ∈ as, ∃ b, R a b ∧ S b a := by
  induction as with
  | nil => simp
  | cons a as ih =>
    rw [List.forall_mem_cons, ← ih]
    constructor
    · rintro ⟨bs, hr, hs⟩
      obtain ⟨b, bs', hab, hr', rfl⟩ := List.forall₂_cons_left_iff.mp hr
      cases hs with
      | cons hba hs' => exact ⟨⟨b, hab, hba⟩, bs', hr', hs'⟩
    · rintro ⟨⟨b, hab, hba⟩, bs, hr, hs⟩
      exact ⟨b :: bs, .cons hab hr, .cons hba hs⟩

theorem forall₂_of_forall_mem {R S : α → β → Prop} (h : List.Forall₂ R as bs)
    (hS : ∀ a ∈ as, ∀ b ∈ bs, R a b → S a b) : List.Forall₂ S as bs := by
  induction h with
  | nil => exact .nil
  | cons hab _ ih =>
    refine .cons (hS _ List.mem_cons_self _ List.mem_cons_self hab) (ih fun a ha b hb => ?_)
    exact hS a (List.mem_cons_of_mem _ ha) b (List.mem_cons_of_mem _ hb)

theorem exists_mem_of_forall₂ {R : α → β → Prop} (h : List.Forall₂ R as bs) :
    ∀ b ∈ bs, ∃ a ∈ as, R a b := by
  induction h with
  | nil => exact List.forall_mem_nil _
  | @cons a b as bs hab _ ih =>
    refine List.forall_mem_cons.mpr ⟨⟨a, List.mem_cons_self, hab⟩, fun c hc => ?_⟩
    obtain ⟨d, hd, hdc⟩ := ih c hc
    exact ⟨d, List.mem_cons_of_mem a hd, hdc⟩

theorem forall₂_append_cons {R : α → β → Prop} {before after : List α} {a : α}
    (h : List.Forall₂ R (before ++ a :: after) bs) :
    ∃ first b rest, bs = first ++ b :: rest ∧ R a b ∧ List.Forall₂ R after rest := by
  induction before generalizing bs with
  | nil =>
    obtain ⟨b, rest, hab, hrest, rfl⟩ := List.forall₂_cons_left_iff.mp h
    exact ⟨[], b, rest, rfl, hab, hrest⟩
  | cons c before ih =>
    obtain ⟨d, tail, -, htail, rfl⟩ := List.forall₂_cons_left_iff.mp h
    obtain ⟨first, b, rest, rfl, hab, hrest⟩ := ih htail
    exact ⟨d :: first, b, rest, rfl, hab, hrest⟩

theorem flatMap_eq_of_forall₂ {γ : Type} {f : α → List γ} {g : β → List γ}
    (h : List.Forall₂ (fun a b => f a = g b) as bs) : as.flatMap f = bs.flatMap g := by
  induction h with
  | nil => rfl
  | cons hab _ ih => rw [List.flatMap_cons, List.flatMap_cons, hab, ih]

/-- A key has corresponding values in both lists, or none in either. -/
theorem lookup_cases_of_forall₂ {R : α → β → Prop} {as : List (String × α)}
    {bs : List (String × β)} (h : List.Forall₂ (fun a b => a.1 = b.1 ∧ R a.2 b.2) as bs)
    (key : String) : (as.lookup key = none ∧ bs.lookup key = none) ∨
      ∃ v w, as.lookup key = some v ∧ bs.lookup key = some w ∧ R v w := by
  induction h with
  | nil => exact .inl ⟨rfl, rfl⟩
  | @cons a b _ _ hab _ ih =>
    rw [List.lookup_cons, List.lookup_cons, ← hab.1]
    cases key == a.1 with
    | true => exact .inr ⟨a.2, b.2, rfl, rfl, hab.2⟩
    | false => exact ih

end Correspondence

/-! ## JSON values -/

namespace Json

@[elab_as_elim]
theorem induction {P : Json → Prop} (null : P .null) (bool : ∀ b, P (.bool b))
    (num : ∀ n, P (.num n)) (str : ∀ s, P (.str s))
    (arr : ∀ items, (∀ a ∈ items, P a) → P (.arr items))
    (obj : ∀ fields, (∀ e ∈ fields, P e.2) → P (.obj fields)) (j : Json) : P j :=
  @Json.rec P (fun items => ∀ a ∈ items, P a) (fun fields => ∀ e ∈ fields, P e.2)
    (fun e => P e.2) null bool num str arr obj (List.forall_mem_nil _)
    (fun _ _ ha hl => List.forall_mem_cons.mpr ⟨ha, hl⟩) (List.forall_mem_nil _)
    (fun _ _ he hl => List.forall_mem_cons.mpr ⟨he, hl⟩) (fun _ _ h => h) j

theorem equalItems_iff {as bs : List Json} :
    equalItems as bs = true ↔ List.Forall₂ (fun a b => a.equal b = true) as bs := by
  induction as generalizing bs with
  | nil => cases bs <;> simp [equalItems]
  | cons a as ih => cases bs <;> simp [equalItems, ih]

theorem equalFields_iff {as bs : List (String × Json)} :
    equalFields as bs = true ↔
      List.Forall₂ (fun a b => (a.1 == b.1 && a.2.equal b.2) = true) as bs := by
  induction as generalizing bs with
  | nil => cases bs <;> simp [equalFields]
  | cons a as ih => cases bs <;> simp [equalFields, ih]

theorem hashItems_eq (items : List Json) : hashItems items = items.flatMap hashInput := by
  induction items with
  | nil => rfl
  | cons a rest ih => rw [hashItems, ih, List.flatMap_cons]

theorem hashFields_eq (fields : List (String × Json)) :
    hashFields fields = fields.flatMap fun e => .text e.1 :: e.2.hashInput := by
  induction fields with
  | nil => rfl
  | cons e rest ih => rw [hashFields, ih, List.flatMap_cons]

end Json

/-! ## Data -/

namespace Datum

@[elab_as_elim]
theorem induction {P : Datum → Prop} (text : ∀ s, P (.text s)) (bool : ∀ b, P (.bool b))
    (number : ∀ n, P (.number n)) (list : ∀ items, (∀ a ∈ items, P a) → P (.list items))
    (map : ∀ entries, (∀ e ∈ entries, P e.2) → P (.map entries))
    (record : ∀ typeName fields, (∀ e ∈ fields, P e.2) → P (.record typeName fields))
    (json : ∀ value, P (.json value)) (d : Datum) : P d :=
  @Datum.rec P (fun items => ∀ a ∈ items, P a) (fun entries => ∀ e ∈ entries, P e.2)
    (fun e => P e.2) text bool number list map record json (List.forall_mem_nil _)
    (fun _ _ ha hl => List.forall_mem_cons.mpr ⟨ha, hl⟩) (List.forall_mem_nil _)
    (fun _ _ he hl => List.forall_mem_cons.mpr ⟨he, hl⟩) (fun _ _ h => h) d

theorem equalItems_iff {as bs : List Datum} :
    equalItems as bs = true ↔ List.Forall₂ (fun a b => a.equal b = true) as bs := by
  induction as generalizing bs with
  | nil => cases bs <;> simp [equalItems]
  | cons a as ih => cases bs <;> simp [equalItems, ih]

theorem equalEntries_iff {as bs : List (String × Datum)} :
    equalEntries as bs = true ↔
      List.Forall₂ (fun a b => (a.1 == b.1 && a.2.equal b.2) = true) as bs := by
  induction as generalizing bs with
  | nil => cases bs <;> simp [equalEntries]
  | cons a as ih => cases bs <;> simp [equalEntries, ih]

theorem hashItems_eq (items : List Datum) : hashItems items = items.flatMap hashInput := by
  induction items with
  | nil => rfl
  | cons a rest ih => rw [hashItems, ih, List.flatMap_cons]

theorem hashEntries_eq (entries : List (String × Datum)) :
    hashEntries entries = entries.flatMap fun e => .text e.1 :: e.2.hashInput := by
  induction entries with
  | nil => rfl
  | cons e rest ih => rw [hashEntries, ih, List.flatMap_cons]

end Datum

end Rulebook
