import Rulebook.DataType
import Rulebook.Json.Basic
import Rulebook.Number.Decimal

/-! # Data

A `Datum` is a value that flows through an evaluation: what the context holds, what functions
receive and return, and what a rule answers. Every datum has one data type, `Datum.dataType`; no
datum has the open type.

`Datum.equal` is equality of values. It reads decimals by value, so `18` equals `18.0`, and raw JSON
by `Json.equal`; everything else is compared part by part.
-/

set_option autoImplicit false

namespace Rulebook

/-- A run-time value. Maps and records hold their entries in ascending key order. -/
inductive Datum where
  | text (value : String)
  | bool (value : Bool)
  | number (value : Decimal)
  | list (items : List Datum)
  | map (entries : List (String × Datum))
  | record (typeName : String) (fields : List (String × Datum))
  /-- JSON kept as it came. -/
  | json (value : Json)

namespace Datum

def dataType : Datum → DataType
  | text _ => .text
  | bool _ => .boolean
  | number _ => .number
  | list _ => .collection
  | map _ => .mapping
  | record .. => .structuredObject
  | json _ => .rawObject

/-- Whether a value may be bound to a slot. -/
def fits (d : Datum) (slot : DataType) : Bool :=
  slot.accepts d.dataType

mutual

def equal : Datum → Datum → Bool
  | .text a, .text b => a == b
  | .bool a, .bool b => a == b
  | .number a, .number b => a.equal b
  | .list as, .list bs => equalItems as bs
  | .map as, .map bs => equalEntries as bs
  | .record s as, .record t bs => s == t && equalEntries as bs
  | .json a, .json b => a.equal b
  | _, _ => false

def equalItems : List Datum → List Datum → Bool
  | [], [] => true
  | a :: as, b :: bs => a.equal b && equalItems as bs
  | _, _ => false

def equalEntries : List (String × Datum) → List (String × Datum) → Bool
  | [], [] => true
  | a :: as, b :: bs => a.1 == b.1 && a.2.equal b.2 && equalEntries as bs
  | _, _ => false

end

instance : BEq Datum := ⟨equal⟩

end Datum

end Rulebook
