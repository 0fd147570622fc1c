/-! # Entries under string keys

Maps from strings are lists of entries in ascending key order with no key twice; keys compare by
code point, which is also the order of their UTF-8 bytes. The list type is left bare, so that
recursive value types can hold such maps.

* `Keyed.Ordered`: the keys ascend strictly.
* `Keyed.insert`, `Keyed.ofList`: both keep that order, and the last entry under a key wins.
* Reading is `List.lookup`.
-/

set_option autoImplicit false

namespace Rulebook.Keyed

variable {α : Type}

def keys (entries : List (String × α)) : List String :=
  entries.map (·.1)

/-- Entries are ordered when their keys ascend strictly. -/
def Ordered (entries : List (String × α)) : Prop :=
  (keys entries).Pairwise (· < ·)

instance (entries : List (String × α)) : Decidable (Ordered entries) :=
  inferInstanceAs (Decidable (List.Pairwise _ _))

/-- Stores `value` under `key`, in place of what stood there. -/
def insert (key : String) (value : α) : List (String × α) → List (String × α)
  | [] => [(key, value)]
  | (k, v) :: rest =>
    if key < k then (key, value) :: (k, v) :: rest
    else if key = k then (key, value) :: rest
    else (k, v) :: insert key value rest

/-- The map that holds, under each key of the list, the last value listed with it. -/
def ofList (entries : List (String × α)) : List (String × α) :=
  entries.foldl (fun map e => insert e.1 e.2 map) []

def contains (key : String) (entries : List (String × α)) : Bool :=
  (entries.lookup key).isSome

@[simp] theorem lookup_insert_self (key : String) (value : α) (entries : List (String × α)) :
    (insert key value entries).lookup key = some value := by
  induction entries with
  | nil => simp [insert]
  | cons e rest ih =>
    obtain ⟨k, v⟩ := e
    rw [insert]
    split
    · simp
    · split
      · simp
      · rename_i h
        simp [List.lookup_cons, beq_false_of_ne h, ih]

theorem lookup_insert_of_ne {key other : String} (h : other ≠ key) (value : α)
    (entries : List (String × α)) :
    (insert key value entries).lookup other = entries.lookup other := by
  induction entries with
  | nil => simp [insert, List.lookup_cons, beq_false_of_ne h]
  | cons e rest ih =>
    obtain ⟨k, v⟩ := e
    rw [insert]
    split
    · simp [List.lookup_cons, beq_false_of_ne h]
    · split
      · rename_i heq
        subst heq
        simp [List.lookup_cons, beq_false_of_ne h]
      · simp [List.lookup_cons, ih]

theorem mem_keys_insert {key other : String} {value : α} {entries : List (String × α)} :
    other ∈ keys (insert key value entries) ↔ other = key ∨ other ∈ keys entries := by
  induction entries with
  | nil => simp [insert, keys]
  | cons e rest ih =>
    obtain ⟨k, v⟩ := e
    rw [insert]
    split
    · simp [keys]
    · split
      · rename_i heq
        simp [keys, heq]
      · have hcons {l : List (String × α)} : keys ((k, v) :: l) = k :: keys l := rfl
        rw [hcons, hcons, List.mem_cons, List.mem_cons, ih]
        exact or_left_comm

theorem ordered_insert {entries : List (String × α)} (h : Ordered entries) (key : String)
    (value : α) : Ordered (insert key value entries) := by
  induction entries with
  | nil => exact List.pairwise_singleton ..
  | cons e rest ih =>
    obtain ⟨k, v⟩ := e
    obtain ⟨hk, hrest⟩ := List.pairwise_cons.mp h
    rw [insert]
    split
    · next hlt =>
      refine List.pairwise_cons.mpr ⟨fun other hother => ?_, h⟩
      rcases List.mem_cons.mp hother with rfl | hmem
      · exact hlt
      · exact String.lt_trans hlt (hk other hmem)
    · next hlt =>
      split
      · next heq =>
        subst heq
        exact h
      · next hne =>
        have hgt : k < key := ((Std.lt_trichotomy key k).resolve_left hlt).resolve_left hne
        refine List.pairwise_cons.mpr ⟨fun other hother => ?_, ih hrest⟩
        rcases mem_keys_insert.mp hother with rfl | hmem
        · exact hgt
        · exact hk other hmem

theorem ordered_ofList (entries : List (String × α)) : Ordered (ofList entries) := by
  have h (map : List (String × α)) (hmap : Ordered map) :
      Ordered (entries.foldl (fun map e => insert e.1 e.2 map) map) := by
    induction entries generalizing map with
    | nil => exact hmap
    | cons e rest ih => exact ih (insert e.1 e.2 map) (ordered_insert hmap e.1 e.2)
  exact h [] List.Pairwise.nil

end Rulebook.Keyed
