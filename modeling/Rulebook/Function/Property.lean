import Rulebook.Datum.Json

/-! # The property reader

The built-in function reads one field out of an object. Its parameter is a map with the object
under `object` and the name of the field under `field`. A record, a map and a raw JSON object are
all read alike, the raw field being converted on its way out; a field that is not there is a
failure.
-/

set_option autoImplicit false

namespace Rulebook.Property

def functionName : String := "get_property"

/-- The field of an object: `none` if the object has no such field. -/
def field? (object : Datum) (name : String) : Except FunctionError (Option Datum) :=
  match object with
  | .record _ fields => .ok (fields.lookup name)
  | .map entries => .ok (entries.lookup name)
  | .json (.obj fields) =>
    match fields.lookup name with
    | none => .ok none
    | some value =>
      match Datum.ofJson value with
      | .ok d => .ok (some d)
      | .error e => .error (.failed e.message)
  | _ => .error (.invalidArgument s!"cannot read field '{name}' from {object.dataType}")

def read (parameter : Datum) : Except FunctionError Datum :=
  match parameter with
  | .map arguments =>
    match (arguments.lookup "field").bind Datum.asText? with
    | none => .error (.invalidArgument "missing text 'field'")
    | some name =>
      match arguments.lookup "object" with
      | none => .error (.invalidArgument "missing 'object'")
      | some object => do
        match ← field? object name with
        | some d => .ok d
        | none => .error (.failed s!"no field '{name}'")
  | _ => .error (.invalidArgument s!"expected Mapping, got {parameter.dataType}")

end Rulebook.Property
