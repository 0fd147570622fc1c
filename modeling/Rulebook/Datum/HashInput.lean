import Rulebook.Datum.Basic

/-! # What a datum feeds to a hash

`Datum.hashInput` lists the words by which a hash table tells data apart. Equal data have equal
lists: decimals go by their normal form, and the two zeros of the doubles by one of them.

`Datum.countDistinct` counts the data of a list up to equality.
-/

set_option autoImplicit false

namespace Rulebook

/-- One word of a hash input. -/
inductive HashWord where
  /-- Which of several cases follows. -/
  | case (index : Nat)
  /-- How many parts follow. -/
  | size (count : Nat)
  | text (value : String)
  | bool (value : Bool)
  | number (value : Int)
deriving DecidableEq, Repr

/-- The hash input of a decimal: its normal form. -/
def Decimal.hashInput (d : Decimal) : List HashWord :=
  [.number d.normalForm.1, .number d.normalForm.2]

/-- The hash input of a double: one zero stands for both. -/
def Double.hashInput (x : Double) : List HashWord :=
  if x.isZero then [.bool false, .number 0, .number (-1074)]
  else [.bool x.negative, .number x.mantissa, .number x.exponent]

def JsonNumber.hashInput : JsonNumber → List HashWord
  | .integer value _ => [.case 0, .number value]
  | .float value => .case 1 :: value.hashInput

def DataType.hashInput (t : DataType) : List HashWord :=
  [.case t.rank]

namespace Json

mutual

def hashInput : Json → List HashWord
  | .null => [.case 0]
  | .bool b => [.case 1, .bool b]
  | .num n => .case 2 :: n.hashInput
  | .str s => [.case 3, .text s]
  | .arr items => .case 4 :: .size items.length :: hashItems items
  | .obj fields => .case 5 :: .size fields.length :: hashFields fields

def hashItems : List Json → List HashWord
  | [] => []
  | a :: rest => a.hashInput ++ hashItems rest

def hashFields : List (String × Json) → List HashWord
  | [] => []
  | a :: rest => .text a.1 :: a.2.hashInput ++ hashFields rest

end

end Json

namespace Datum

mutual

def hashInput : Datum → List HashWord
  | .text s => [.case 0, .text s]
  | .bool b => [.case 1, .bool b]
  | .number d => .case 2 :: d.hashInput
  | .list items => .case 3 :: .size items.length :: hashItems items
  | .map entries => .case 4 :: .size entries.length :: hashEntries entries
  | .record typeName fields =>
    .case 5 :: .text typeName :: .size fields.length :: hashEntries fields
  | .json value => .case 6 :: value.hashInput

def hashItems : List Datum → List HashWord
  | [] => []
  | a :: rest => a.hashInput ++ hashItems rest

def hashEntries : List (String × Datum) → List HashWord
  | [] => []
  | a :: rest => .text a.1 :: a.2.hashInput ++ hashEntries rest

end

/-- How many data of a list are left when of equal ones only one is kept. -/
def countDistinct : List Datum → Nat
  | [] => 0
  | d :: rest => if rest.any d.equal then countDistinct rest else countDistinct rest + 1

end Datum

end Rulebook
