import Rulebook.Function.Host
import Rulebook.Keyed

/-! # Registries

A registry is a catalogue of functions under unique names. It only grows: a name that is taken is
refused and keeps its function.
-/

set_option autoImplicit false

namespace Rulebook

structure Registry where
  entries : List (String × FunctionRef) := []

namespace Registry

instance : EmptyCollection Registry := ⟨{}⟩

/-- Every function stands under its own name, and the names ascend strictly. -/
def WellFormed (registry : Registry) : Prop :=
  Keyed.Ordered registry.entries ∧ ∀ e ∈ registry.entries, e.2.name = e.1

def builtins : List FunctionRef := [.property]

def find? (registry : Registry) (name : String) : Option FunctionRef :=
  registry.entries.lookup name

/-- The function registered under a name, which has to be there. -/
def get (registry : Registry) (name : String) : Except EvalError FunctionRef :=
  match registry.find? name with
  | some f => .ok f
  | none => .error (.unknownFunction name)

def contains (registry : Registry) (name : String) : Bool :=
  (registry.find? name).isSome

def names (registry : Registry) : List String :=
  Keyed.keys registry.entries

def size (registry : Registry) : Nat :=
  registry.entries.length

/-- Adds a function under its name, unless the name is taken. -/
def register (registry : Registry) (f : FunctionRef) : Except EvalError Registry :=
  if registry.contains f.name then .error (.duplicateFunction f.name)
  else .ok ⟨Keyed.insert f.name f registry.entries⟩

/-- Adds every built-in function whose name is still free. -/
def registerBuiltins (registry : Registry) : Registry :=
  builtins.foldl (fun r f => (r.register f).toOption.getD r) registry

def withBuiltins : Registry :=
  registerBuiltins ∅

/-- Adds a function to a registry that is changed in place. What is left of the registry is given
also when the name is taken. -/
def registerInPlace (registry : Registry) (f : FunctionRef) : Except EvalError Unit × Registry :=
  if registry.contains f.name then (.error (.duplicateFunction f.name), registry)
  else (.ok (), ⟨Keyed.insert f.name f registry.entries⟩)

/-- Adds in place those of some functions whose names are still free, up to the first failure. -/
def registerFreeInPlace (registry : Registry) : List FunctionRef → Except EvalError Unit × Registry
  | [] => (.ok (), registry)
  | f :: rest =>
    if registry.contains f.name then registry.registerFreeInPlace rest
    else
      match registry.registerInPlace f with
      | (.error e, left) => (.error e, left)
      | (.ok (), left) => left.registerFreeInPlace rest

def registerBuiltinsInPlace (registry : Registry) : Except EvalError Unit × Registry :=
  registry.registerFreeInPlace builtins

end Registry

end Rulebook
