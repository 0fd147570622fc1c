import Rulebook.Proofs.Data.Numbers
import Rulebook.Proofs.Number.Conversion

/-! # Native forms of JSON values

Conversion goes part by part in both directions: `ofJson_arr_iff` and `ofJson_obj_iff` say what the
native form of a nest is made of, `toJson_list` and `toJson_map` what its JSON value is made of.
`native_induction` is induction over a value together with its native form.
-/

set_option autoImplicit false

namespace Rulebook

def JsonNumber.HasDecimal (n : JsonNumber) : Prop :=
  ∃ d, n.toDecimal = .ok d

theorem Decimal.toJson_eq_num (d : Decimal) : ∃ n, d.toJson = .num n := by
  obtain ⟨x, hx⟩ := d.toDouble?_isSome
  rw [Decimal.toJson, hx]
  split
  · split
    · exact ⟨_, rfl⟩
    · exact ⟨_, rfl⟩
  · exact ⟨_, rfl⟩

theorem map_eq_ok_iff {ε α β : Type} {r : Except ε α} {f : α → β} {b : β} :
    r.map f = .ok b ↔ ∃ a, r = .ok a ∧ b = f a := by
  cases r with
  | error e => simp [Except.map]
  | ok a => simp [Except.map, eq_comm]

section Checks

variable {ε α : Type} {f : α → Except ε Unit} {l : List α}

theorem forM_eq_ok_iff : forM l f = .ok () ↔ ∀ a ∈ l, f a = .ok () := by
  induction l with
  | nil => exact iff_of_true rfl (List.forall_mem_nil _)
  | cons a l ih =>
    rw [List.forM_cons, List.forall_mem_cons, ← ih]
    cases f a <;> simp [bind, Except.bind]

/-- A check of all members of a list fails with the first failure. -/
theorem forM_eq_error_iff {e : ε} : forM l f = .error e ↔
    ∃ before a after, l = before ++ a :: after ∧ (∀ b ∈ before, f b = .ok ()) ∧
      f a = .error e := by
  constructor
  · intro h
    induction l with
    | nil => cases h
    | cons a l ih =>
      rw [List.forM_cons] at h
      cases ha : f a with
      | error e' =>
        rw [ha] at h
        cases h
        exact ⟨[], a, l, rfl, List.forall_mem_nil _, ha⟩
      | ok u =>
        rw [ha] at h
        obtain ⟨before, b, after, rfl, hbefore, hb⟩ := ih h
        exact ⟨a :: before, b, after, rfl, List.forall_mem_cons.mpr ⟨ha, hbefore⟩, hb⟩
  · rintro ⟨before, a, after, rfl, hbefore, ha⟩
    rw [List.forM_append, forM_eq_ok_iff.mpr hbefore, List.forM_cons, ha]
    rfl

end Checks

namespace Datum

variable {j : Json} {d : Datum}

/-! ## From JSON -/

theorem ofJson_num_iff {n : JsonNumber} :
    ofJson (.num n) = .ok d ↔ ∃ e, n.toDecimal = .ok e ∧ d = .number e := by
  rw [ofJson, map_eq_ok_iff]

theorem itemsOfJson_iff {items : List Json} {ds : List Datum} :
    itemsOfJson items = .ok ds ↔ List.Forall₂ (fun a d => ofJson a = .ok d) items ds := by
  induction items generalizing ds with
  | nil => cases ds <;> simp [itemsOfJson]
  | cons a rest ih =>
    rw [itemsOfJson]
    cases ha : ofJson a with
    | error e => cases ds <;> simp [bind, Except.bind, ha]
    | ok d =>
      cases hrest : itemsOfJson rest with
      | error e => cases ds <;> simp [bind, Except.bind, ← ih, hrest, ha]
      | ok rest' => cases ds <;> simp [bind, Except.bind, pure, Except.pure, ← ih, hrest, ha]

theorem entriesOfJson_iff {fields : List (String × Json)} {entries : List (String × Datum)} :
    entriesOfJson fields = .ok entries ↔
      List.Forall₂ (fun f e => f.1 = e.1 ∧ ofJson f.2 = .ok e.2) fields entries := by
  induction fields generalizing entries with
  | nil => cases entries <;> simp [entriesOfJson]
  | cons f rest ih =>
    rw [entriesOfJson]
    cases hf : ofJson f.2 with
    | error e => cases entries <;> simp [bind, Except.bind, hf]
    | ok d =>
      cases hrest : entriesOfJson rest with
      | error e => cases entries <;> simp [bind, Except.bind, ← ih, hrest, hf]
      | ok rest' =>
        cases entries <;>
          simp [bind, Except.bind, pure, Except.pure, ← ih, hrest, hf, Prod.ext_iff]

theorem ofJson_arr_iff {items : List Json} : ofJson (.arr items) = .ok d ↔
    ∃ ds, List.Forall₂ (fun a d => ofJson a = .ok d) items ds ∧ d = .list ds := by
  rw [ofJson, map_eq_ok_iff]
  simp only [itemsOfJson_iff]

theorem ofJson_obj_iff {fields : List (String × Json)} : ofJson (.obj fields) = .ok d ↔
    ∃ entries, List.Forall₂ (fun f e => f.1 = e.1 ∧ ofJson f.2 = .ok e.2) fields entries ∧
      d = .map entries := by
  rw [ofJson, map_eq_ok_iff]
  simp only [entriesOfJson_iff]

/-- Induction over a JSON value and its native form. -/
theorem native_induction {P : Json → Datum → Prop} (null : P .null (.json .null))
    (bool : ∀ b, P (.bool b) (.bool b))
    (num : ∀ n e, n.toDecimal = .ok e → P (.num n) (.number e))
    (str : ∀ s, P (.str s) (.text s))
    (arr : ∀ items ds, List.Forall₂ P items ds → P (.arr items) (.list ds))
    (obj : ∀ fields entries, List.Forall₂ (fun f e => f.1 = e.1 ∧ P f.2 e.2) fields entries →
      P (.obj fields) (.map entries))
    (h : ofJson j = .ok d) : P j d := by
  induction j using Json.induction generalizing d with
  | null =>
    cases h
    exact null
  | bool b =>
    cases h
    exact bool b
  | num n =>
    obtain ⟨e, he, rfl⟩ := ofJson_num_iff.mp h
    exact num n e he
  | str s =>
    cases h
    exact str s
  | arr items ih =>
    obtain ⟨ds, hds, rfl⟩ := ofJson_arr_iff.mp h
    refine arr items ds (((List.forall₂_and_left items ds).mpr ⟨ih, hds⟩).imp ?_)
    rintro a d ⟨ha, had⟩
    exact ha had
  | obj fields ih =>
    obtain ⟨entries, hentries, rfl⟩ := ofJson_obj_iff.mp h
    refine obj fields entries (((List.forall₂_and_left fields entries).mpr ⟨ih, hentries⟩).imp ?_)
    rintro f e ⟨hf, hkey, hfe⟩
    exact ⟨hkey, hf hfe⟩

/-! ## To JSON -/

theorem itemsToJson_eq (items : List Datum) : itemsToJson items = items.map toJson := by
  induction items with
  | nil => rfl
  | cons a rest ih => rw [itemsToJson, ih, List.map_cons]

theorem entriesToJson_eq (entries : List (String × Datum)) :
    entriesToJson entries = entries.map fun e => (e.1, e.2.toJson) := by
  induction entries with
  | nil => rfl
  | cons e rest ih => rw [entriesToJson, ih, List.map_cons]

theorem toJson_list (items : List Datum) : (Datum.list items).toJson = .arr (items.map toJson) := by
  rw [toJson, itemsToJson_eq]

theorem toJson_map (entries : List (String × Datum)) :
    (Datum.map entries).toJson = .obj (entries.map fun e => (e.1, e.2.toJson)) := by
  rw [toJson, entriesToJson_eq]

end Datum

end Rulebook
