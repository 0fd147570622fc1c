import Rulebook.Datum.Basic
import Rulebook.Json.Printer
import Rulebook.Number.Numeral

/-! # Data and JSON

* `Datum.ofJson`: objects become maps, arrays lists, numbers decimals. `null` has no counterpart
  and stays raw. The first number without a decimal form, in depth-first order, is the error.
* `Datum.recordOfJson`: an object as a record of a given type.
* `Datum.toJson`: the other direction. A decimal becomes an integer where it is one of 64 signed
  bits, and a double otherwise.
* `Datum.asNumber?`, `Datum.asText?`: the views under which raw JSON scalars count as native ones.
-/

set_option autoImplicit false

namespace Rulebook

theorem natAbs_lt_of_inRange {value : Int}
    (h : -0x8000000000000000 ≤ value ∧ value < 0x10000000000000000) :
    value.natAbs < 0x1000000000000000000000000 := by
  omega

/-- The decimal of a JSON number. An integer is taken exactly; a double goes by its text. -/
def JsonNumber.toDecimal : JsonNumber → Except EvalError Decimal
  | .integer value inRange => .ok (.ofInt value (natAbs_lt_of_inRange inRange))
  | .float value =>
    match Decimal.ofString value.text with
    | .ok d => .ok d
    | .error cause => .error (.typeError (.unrepresentable value.text cause))

def Decimal.toJson (d : Decimal) : Json :=
  let asDouble : Json :=
    match d.toDouble? with
    | some value => .num (.float value)
    | none => .str d.text
  match d.toInt? with
  | some n => if h : IsInt64 n then .num (.integer n (inRange_of_isInt64 h)) else asDouble
  | none => asDouble

namespace Datum

/-- The numeric view: decimals, and raw JSON numbers that have a decimal form. -/
def asNumber? : Datum → Option Decimal
  | .number d => some d
  | .json (.num n) => n.toDecimal.toOption
  | _ => none

/-- The text view: texts and raw JSON texts. -/
def asText? : Datum → Option String
  | .text s => some s
  | .json (.str s) => some s
  | _ => none

mutual

def ofJson : Json → Except EvalError Datum
  | .null => .ok (.json .null)
  | .bool b => .ok (.bool b)
  | .num n => n.toDecimal.map .number
  | .str s => .ok (.text s)
  | .arr items => (itemsOfJson items).map .list
  | .obj fields => (entriesOfJson fields).map .map

def itemsOfJson : List Json → Except EvalError (List Datum)
  | [] => .ok []
  | a :: rest => do
    let d ← ofJson a
    let ds ← itemsOfJson rest
    return d :: ds

def entriesOfJson : List (String × Json) → Except EvalError (List (String × Datum))
  | [] => .ok []
  | a :: rest => do
    let d ← ofJson a.2
    let ds ← entriesOfJson rest
    return (a.1, d) :: ds

end

/-- The entries of a JSON object; `subject` names the value in the error. -/
def entriesOfObject (subject : String) : Json → Except EvalError (List (String × Datum))
  | .obj fields => entriesOfJson fields
  | _ => .error (.typeError (.notObject subject))

def recordOfJson (typeName : String) (value : Json) : Except EvalError Datum :=
  (entriesOfObject typeName value).map (.record typeName)

mutual

/-- The JSON value of a datum; the type name of a record is left out. -/
def toJson : Datum → Json
  | .text s => .str s
  | .bool b => .bool b
  | .number d => d.toJson
  | .list items => .arr (itemsToJson items)
  | .map entries => .obj (entriesToJson entries)
  | .record _ fields => .obj (entriesToJson fields)
  | .json value => value

def itemsToJson : List Datum → List Json
  | [] => []
  | a :: rest => a.toJson :: itemsToJson rest

def entriesToJson : List (String × Datum) → List (String × Json)
  | [] => []
  | a :: rest => (a.1, a.2.toJson) :: entriesToJson rest

end

end Datum

end Rulebook
