import Rulebook.Proofs.Evaluation.Construction

/-! # Registries only grow

A registration binds a free name and leaves every other name as it was; a name that is taken refuses
it. So the bindings of a registry are those of every registry that it grows into (`Extends`), and
registering the built-in functions, which passes over taken names, can neither fail nor replace a
function.

Calls are built with the functions that a registry returns. `Application.BuiltFrom` keeps track of
the registry; what was built from it is built from all that it grows into, and in a registry that
stores functions under their own names each call holds what its name still stands for (`linked`).
-/

set_option autoImplicit false

namespace Rulebook

/-- An insertion adds one entry. -/
theorem Keyed.mem_insert {α : Type} {entries : List (String × α)} {key : String} {value : α}
    {e : String × α} (h : e ∈ insert key value entries) : e = (key, value) ∨ e ∈ entries := by
  induction entries with
  | nil => exact .inl (List.mem_singleton.mp h)
  | cons first rest ih =>
    rw [insert] at h
    split at h
    · exact List.mem_cons.mp h
    · split at h
      · exact (List.mem_cons.mp h).imp_right (List.mem_cons_of_mem first)
      · rcases List.mem_cons.mp h with rfl | h
        · exact .inr List.mem_cons_self
        · exact (ih h).imp_right (List.mem_cons_of_mem first)

namespace Registry

variable {registry left a b c : Registry} {f g : FunctionRef} {name : String} {e : EvalError}

/-! ## Lookups -/

theorem get_eq_ok : registry.get name = .ok f ↔ registry.find? name = some f := by
  rw [get]
  cases registry.find? name <;> simp

theorem contains_iff : registry.contains name = true ↔ ∃ f, registry.get name = .ok f := by
  simp only [contains, Option.isSome_iff_exists, get_eq_ok]

/-- Every name that stands for a function in `a` stands for the same function in `b`. -/
def Extends (a b : Registry) : Prop :=
  ∀ name f, a.get name = .ok f → b.get name = .ok f

theorem Extends.refl (registry : Registry) : registry.Extends registry :=
  fun _ _ h => h

theorem Extends.trans (hab : a.Extends b) (hbc : b.Extends c) : a.Extends c :=
  fun name f h => hbc name f (hab name f h)

theorem WellFormed.name_eq (h : registry.WellFormed) (hf : registry.get name = .ok f) :
    f.name = name := by
  have hlookup : registry.entries.lookup name = some f := get_eq_ok.mp hf
  obtain ⟨before, after, heq, -⟩ := List.lookup_eq_some_iff.mp hlookup
  refine h.2 (name, f) ?_
  rw [heq]
  exact List.mem_append_right before List.mem_cons_self

/-! ## Registrations -/

theorem registerInPlace_of_free (h : registry.contains f.name = false) :
    registry.registerInPlace f = (.ok (), ⟨Keyed.insert f.name f registry.entries⟩) := by
  rw [registerInPlace, h]
  rfl

theorem registerInPlace_of_taken (h : registry.contains f.name = true) :
    registry.registerInPlace f = (.error (.duplicateFunction f.name), registry) := by
  rw [registerInPlace, h]
  rfl

/-- In place or not, a registration comes to the same. -/
theorem registerInPlace_eq :
    registry.registerInPlace f =
      match registry.register f with
      | .ok left => (.ok (), left)
      | .error e => (.error e, registry) := by
  rw [register]
  cases h : registry.contains f.name with
  | true => exact registerInPlace_of_taken h
  | false => exact registerInPlace_of_free h

theorem registerInPlace_eq_error :
    (registry.registerInPlace f).1 = .error e ↔
      (∃ g, registry.get f.name = .ok g) ∧ e = .duplicateFunction f.name := by
  rw [← contains_iff]
  cases h : registry.contains f.name with
  | true => simp [registerInPlace_of_taken h, eq_comm (a := e)]
  | false => simp [registerInPlace_of_free h]

theorem registerInPlace_of_error (h : (registry.registerInPlace f).1 = .error e) :
    (registry.registerInPlace f).2 = registry := by
  rw [registerInPlace_of_taken (contains_iff.mpr (registerInPlace_eq_error.mp h).1)]

theorem free_of_registerInPlace (h : (registry.registerInPlace f).1 = .ok ()) :
    registry.contains f.name = false := by
  cases hc : registry.contains f.name with
  | false => rfl
  | true =>
    rw [registerInPlace_of_taken hc] at h
    cases h

/-- A registration that succeeds binds the name of the function and no other one. -/
theorem get_registerInPlace (h : (registry.registerInPlace f).1 = .ok ()) (name : String) :
    (registry.registerInPlace f).2.get name =
      if name = f.name then .ok f else registry.get name := by
  rw [registerInPlace_of_free (free_of_registerInPlace h), get, find?]
  by_cases hname : name = f.name
  · rw [if_pos hname, hname, Keyed.lookup_insert_self]
  · rw [if_neg hname, Keyed.lookup_insert_of_ne hname]
    rfl

theorem extends_registerInPlace (registry : Registry) (f : FunctionRef) :
    registry.Extends (registry.registerInPlace f).2 := by
  intro name g hg
  cases hf : (registry.registerInPlace f).1 with
  | error e => rwa [registerInPlace_of_error hf]
  | ok _ =>
    have hne : name ≠ f.name := by
      rintro rfl
      have htaken := contains_iff.mpr ⟨g, hg⟩
      rw [free_of_registerInPlace hf] at htaken
      cases htaken
    rwa [get_registerInPlace hf, if_neg hne]

theorem WellFormed.empty : WellFormed ∅ :=
  ⟨List.Pairwise.nil, List.forall_mem_nil _⟩

theorem WellFormed.registerInPlace (h : registry.WellFormed) (f : FunctionRef) :
    (registry.registerInPlace f).2.WellFormed := by
  cases hf : (registry.registerInPlace f).1 with
  | error e => rwa [registerInPlace_of_error hf]
  | ok _ =>
    rw [registerInPlace_of_free (free_of_registerInPlace hf)]
    refine ⟨Keyed.ordered_insert h.1 f.name f, fun entry hentry => ?_⟩
    rcases Keyed.mem_insert hentry with rfl | hold
    · rfl
    · exact h.2 entry hold

/-! ## The built-in functions -/

theorem registerFreeInPlace_cons (registry : Registry) (f : FunctionRef) (rest : List FunctionRef) :
    registry.registerFreeInPlace (f :: rest) =
      (registry.registerInPlace f).2.registerFreeInPlace rest := by
  rw [registerFreeInPlace]
  cases h : registry.contains f.name with
  | true => rw [registerInPlace_of_taken h, if_pos rfl]
  | false => simp [registerInPlace_of_free h]

/-- Whatever every registration keeps is kept, and no registration fails. -/
theorem registerFreeInPlace_induction {P : Registry → Prop}
    (step : ∀ registry f, P registry → P (registerInPlace registry f).2) (h : P registry)
    (functions : List FunctionRef) :
    (registry.registerFreeInPlace functions).1 = .ok () ∧
      P (registry.registerFreeInPlace functions).2 := by
  induction functions generalizing registry with
  | nil => exact ⟨rfl, h⟩
  | cons f rest ih =>
    rw [registerFreeInPlace_cons]
    exact ih (step registry f h)

theorem extends_registerFreeInPlace (registry : Registry) (functions : List FunctionRef) :
    registry.Extends (registry.registerFreeInPlace functions).2 :=
  (registerFreeInPlace_induction (P := registry.Extends)
    (fun grown f h => h.trans (extends_registerInPlace grown f)) (.refl registry) functions).2

theorem WellFormed.registerFreeInPlace (h : registry.WellFormed) (functions : List FunctionRef) :
    (registry.registerFreeInPlace functions).2.WellFormed :=
  (registerFreeInPlace_induction (fun _ f h => h.registerInPlace f) h functions).2

/-- Afterwards the names of all these functions are taken. -/
theorem contains_registerFreeInPlace (registry : Registry) (functions : List FunctionRef) :
    ∀ f ∈ functions, (registry.registerFreeInPlace functions).2.contains f.name = true := by
  induction functions generalizing registry with
  | nil => exact List.forall_mem_nil _
  | cons f rest ih =>
    rw [registerFreeInPlace_cons]
    refine List.forall_mem_cons.mpr ⟨?_, ih _⟩
    have htaken : (registry.registerInPlace f).2.contains f.name = true := by
      cases h : registry.contains f.name with
      | true => rwa [registerInPlace_of_taken h]
      | false =>
        have hok : (registry.registerInPlace f).1 = .ok () := by rw [registerInPlace_of_free h]
        exact contains_iff.mpr ⟨f, by rw [get_registerInPlace hok, if_pos rfl]⟩
    obtain ⟨g, hg⟩ := contains_iff.mp htaken
    exact contains_iff.mpr ⟨g, extends_registerFreeInPlace _ rest f.name g hg⟩

/-- Functions whose names are all taken change nothing. -/
theorem registerFreeInPlace_of_taken {functions : List FunctionRef}
    (h : ∀ f ∈ functions, registry.contains f.name = true) :
    registry.registerFreeInPlace functions = (.ok (), registry) := by
  induction functions with
  | nil => rfl
  | cons f rest ih =>
    obtain ⟨hf, hrest⟩ := List.forall_mem_cons.mp h
    rw [registerFreeInPlace_cons, registerInPlace_of_taken hf]
    exact ih hrest

theorem registerBuiltinsInPlace_eq (registry : Registry) :
    registry.registerBuiltinsInPlace = (.ok (), registry.registerBuiltins) := by
  have hstep (r : Registry) (f : FunctionRef) :
      (r.registerInPlace f).2 = (r.register f).toOption.getD r := by
    rw [registerInPlace_eq]
    cases r.register f <;> rfl
  have hall (functions : List FunctionRef) (r : Registry) : r.registerFreeInPlace functions =
      (.ok (), functions.foldl (fun r f => (r.register f).toOption.getD r) r) := by
    induction functions generalizing r with
    | nil => rfl
    | cons f rest ih => rw [registerFreeInPlace_cons, ih, hstep, List.foldl_cons]
  exact hall builtins registry

theorem registerBuiltinsInPlace_idempotent (registry : Registry) :
    registry.registerBuiltinsInPlace.2.registerBuiltinsInPlace =
      (.ok (), registry.registerBuiltinsInPlace.2) :=
  registerFreeInPlace_of_taken (contains_registerFreeInPlace registry builtins)

theorem wellFormed_withBuiltins : withBuiltins.WellFormed := by
  have h : (registerBuiltinsInPlace ∅).2.WellFormed := WellFormed.empty.registerFreeInPlace builtins
  rwa [registerBuiltinsInPlace_eq] at h

end Registry

/-! ## What is built from a registry -/

/-- A call that was built with what the registry returned, and perhaps narrowed. What was declared
for functions may have changed in between. -/
inductive Application.BuiltFrom (registry : Registry) : Call → Prop where
  | make {decl : Declarations} {name : String} {parameter : Param} {call : Call} :
      Application.make decl registry name parameter = .ok call → BuiltFrom registry call
  | expecting {decl : Declarations} {call narrowed : Call} {dataType : DataType} :
      BuiltFrom registry call → call.expecting decl dataType = .ok narrowed →
      BuiltFrom registry narrowed

/-- Every call in the expression was built from the registry. -/
def Expr.BuiltFrom (registry : Registry) (v : Expr) : Prop :=
  ∀ call ∈ v.calls, call.BuiltFrom registry

def Param.BuiltFrom (registry : Registry) (p : Param) : Prop :=
  ∀ call ∈ p.calls, call.BuiltFrom registry

theorem Application.BuiltFrom.mono {a b : Registry} {call : Call} (h : call.BuiltFrom a)
    (hab : a.Extends b) : call.BuiltFrom b := by
  induction h with
  | @make decl name parameter call h =>
    obtain ⟨function, hget, -, -, -⟩ := make_eq_ok h
    refine @make b decl name parameter call ?_
    rw [Application.make, hget] at h
    rw [Application.make, hab name function hget]
    exact h
  | expecting _ h ih => exact .expecting ih h

/-- The function of the call is the one that its name stands for. -/
def Application.LinkedTo (registry : Registry) (call : Call) : Prop :=
  registry.get call.function.name = .ok call.function

theorem Application.BuiltFrom.linked {registry : Registry} {call : Call}
    (h : call.BuiltFrom registry) (hreg : registry.WellFormed) : call.LinkedTo registry := by
  induction h with
  | make h =>
    obtain ⟨function, hget, -, -, rfl⟩ := make_eq_ok h
    rw [LinkedTo, hreg.name_eq hget]
    exact hget
  | expecting _ h ih =>
    rw [expecting_eq_ok h]
    exact ih

end Rulebook
