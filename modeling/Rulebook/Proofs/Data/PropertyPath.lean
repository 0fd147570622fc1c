import Rulebook.Proofs.Data.Conversion
import Rulebook.Proofs.Equality.Conversion

/-! # Reading along a path of fields

The property reader takes one field at a time, so a caller reads a nested value by a path of names
(`Property.readPath`). From an object as raw JSON, as a map or as a record, each path leads to the
same datum or the same failure, as the raw fields are converted on their way out
(`property_reading_commutes_with_conversion`). It is the native form of the JSON value at that path
(`Property.readPath_native_iff`).
-/

set_option autoImplicit false

namespace Rulebook

namespace Json

def field? (j : Json) (name : String) : Option Json :=
  match j with
  | .obj fields => fields.lookup name
  | _ => none

/-- The value that a path of field names leads to. -/
def at? (j : Json) (path : List String) : Option Json :=
  path.foldlM field? j

end Json

namespace Property

def parameter (object : Datum) (name : String) : Datum :=
  .map [("field", .text name), ("object", object)]

/-- Reads one field after the other, each from what was read last. -/
def readPath (object : Datum) (path : List String) : Except FunctionError Datum :=
  path.foldlM (fun d name => read (parameter d name)) object

variable {j : Json} {fields : List (String × Json)} {object d : Datum} {name : String}
  {path : List String}

theorem read_eq_ok_iff : read (parameter object name) = .ok d ↔
    field? object name = .ok (some d) := by
  show (field? object name >>= _) = _ ↔ _
  cases field? object name with
  | error err => simp [bind, Except.bind]
  | ok found => cases found <;> simp [bind, Except.bind]

theorem field?_json_iff : field? (.json j) name = .ok (some d) ↔
    ∃ value, j.field? name = some value ∧ Datum.ofJson value = .ok d := by
  cases j with
  | obj fields =>
    rw [field?_obj, Json.field?]
    cases fields.lookup name with
    | none => simp
    | some value =>
      cases hvalue : Datum.ofJson value <;> simp [Except.map, Except.mapError, hvalue]
  | _ => simp [field?, Json.field?]

/-- A raw object has the fields of its native form. -/
theorem field?_json_eq (h : Datum.ofJson (.obj fields) = .ok object) (name : String) :
    field? (.json (.obj fields)) name = field? object name := by
  obtain ⟨entries, hentries, rfl⟩ := Datum.ofJson_obj_iff.mp h
  rw [field?_obj]
  obtain ⟨hf, he⟩ | ⟨value, d, hf, he, hd⟩ :=
    lookup_cases_of_forall₂ (R := fun value d => Datum.ofJson value = .ok d) hentries name
  · rw [hf, field?, he]
  · rw [hf, field?, he]
    simp only
    rw [hd]
    rfl

/-! ## Paths -/

theorem readPath_cons (object : Datum) (name : String) (path : List String) :
    readPath object (name :: path) = read (parameter object name) >>= (readPath · path) :=
  List.foldlM_cons

/-- Objects with the same fields are read alike along every path that leaves them. -/
theorem readPath_congr {object' : Datum} (h : ∀ name, field? object name = field? object' name)
    (hpath : path ≠ []) : readPath object path = readPath object' path := by
  cases path with
  | nil => exact absurd rfl hpath
  | cons name rest =>
    have hread : read (parameter object name) = read (parameter object' name) := by
      show (field? object name >>= _) = (field? object' name >>= _)
      rw [h]
    rw [readPath_cons, readPath_cons, hread]

/-- A native form has the fields of its value, in native form. -/
theorem field?_native_cases (h : Datum.ofJson j = .ok object) (name : String) :
    (j.field? name = none ∧ ∀ d, field? object name ≠ .ok (some d)) ∨
      ∃ value d, j.field? name = some value ∧ Datum.ofJson value = .ok d ∧
        field? object name = .ok (some d) := by
  cases j with
  | obj fields =>
    obtain ⟨entries, hentries, rfl⟩ := Datum.ofJson_obj_iff.mp h
    obtain ⟨hf, he⟩ | ⟨value, d, hf, he, hd⟩ :=
      lookup_cases_of_forall₂ (R := fun value d => Datum.ofJson value = .ok d) hentries name
    · exact .inl ⟨hf, fun d => by simp [field?, he]⟩
    · exact .inr ⟨value, d, hf, hd, congrArg Except.ok he⟩
  | num n =>
    obtain ⟨x, -, rfl⟩ := Datum.ofJson_num_iff.mp h
    exact .inl ⟨rfl, fun d => by simp [field?]⟩
  | arr items =>
    obtain ⟨ds, -, rfl⟩ := Datum.ofJson_arr_iff.mp h
    exact .inl ⟨rfl, fun d => by simp [field?]⟩
  | _ =>
    cases h
    exact .inl ⟨rfl, fun d => by simp [field?]⟩

/-- From a native form, a path leads to the native form of the value to which it leads in JSON. -/
theorem readPath_native_iff (h : Datum.ofJson j = .ok object) :
    readPath object path = .ok d ↔
      ∃ value, j.at? path = some value ∧ Datum.ofJson value = .ok d := by
  induction path generalizing j object with
  | nil =>
    have hat : j.at? [] = some j := rfl
    have hread : readPath object [] = .ok object := rfl
    simp [hat, hread, h]
  | cons name rest ih =>
    have hat : j.at? (name :: rest) = (j.field? name).bind (Json.at? · rest) := List.foldlM_cons
    rw [readPath_cons, hat]
    obtain ⟨hnone, hne⟩ | ⟨value, d', hvalue, hd', hfield⟩ := field?_native_cases h name
    · rw [hnone]
      cases hread : read (parameter object name) with
      | error err => simp [bind, Except.bind]
      | ok d' => exact absurd (read_eq_ok_iff.mp hread) (hne d')
    · rw [hvalue, read_eq_ok_iff.mpr hfield]
      exact ih hd'

end Property

/-! ## Main statement -/

/-- From an object as raw JSON, as a map and as a record, each path of fields leads to one datum or
to one failure, once the object has a native form. A single field is read from raw JSON even if
others have none. -/
theorem property_reading_commutes_with_conversion (fields : List (String × Json)) :
    (∀ {d}, Datum.ofJson (.obj fields) = .ok d → ∀ typeName, ∃ r,
      Datum.recordOfJson typeName (.obj fields) = .ok r ∧ ∀ {path}, path ≠ [] →
        Property.readPath (.json (.obj fields)) path = Property.readPath d path ∧
        Property.readPath r path = Property.readPath d path) ∧
    ∀ name d, Property.read (Property.parameter (.json (.obj fields)) name) = .ok d ↔
      ∃ value, fields.lookup name = some value ∧ Datum.ofJson value = .ok d := by
  refine ⟨fun {d} h typeName => ?_, fun name d => ?_⟩
  · obtain ⟨entries, hentries, rfl⟩ := Datum.ofJson_obj_iff.mp h
    refine ⟨.record typeName entries, ?_, fun hpath => ⟨?_, ?_⟩⟩
    · rw [Datum.recordOfJson, Datum.entriesOfObject, Datum.entriesOfJson_iff.mpr hentries]
      rfl
    · exact Property.readPath_congr (Property.field?_json_eq h) hpath
    · exact Property.readPath_congr (fun _ => rfl) hpath
  · rw [Property.read_eq_ok_iff, Property.field?_json_iff]
    rfl

/-- A number out of range keeps the whole object from being converted, but not its other field. -/
theorem property_reading_commutes_with_conversion_nested :
    let far : Double := ⟨false, 0x10000000000000, 848, by decide⟩
    let home : Json := .obj [("city", .str "Ulm"), ("floor", .null)]
    let native : Datum := .map [("city", .text "Ulm"), ("floor", .json .null)]
    let person : List (String × Json) := [("home", home), ("name", .str "Ann")]
    let record : Datum := .record "Person" [("home", native), ("name", .text "Ann")]
    let distant : List (String × Json) := ("far", .num (.float far)) :: person
    Property.readPath record ["home", "floor"] = .ok (.json .null) ∧
      Property.readPath (.json (.obj person)) ["home", "floor"] = .ok (.json .null) ∧
      Property.readPath (.json (.obj person)) ["home", "city", "zip"] =
        .error (.invalidArgument "cannot read field 'zip' from Text") ∧
      (Datum.ofJson (.obj distant)).toOption = none ∧
      Property.read (Property.parameter (.json (.obj distant)) "home") = .ok native := by
  intro far home native person record distant
  obtain ⟨hwhole, -⟩ := property_reading_commutes_with_conversion person
  obtain ⟨-, hfield⟩ := property_reading_commutes_with_conversion distant
  obtain ⟨r, hr, hpath⟩ := hwhole rfl "Person"
  cases hr
  refine ⟨rfl, ?_, ?_, ?_, ?_⟩
  · rw [(hpath (by decide)).1]
    rfl
  · rw [(hpath (by decide)).1]
    rfl
  · decide +kernel
  · exact (hfield "home" native).mpr ⟨home, rfl, rfl⟩

end Rulebook
