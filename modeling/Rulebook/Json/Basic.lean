import Rulebook.Number.Double

/-! # JSON values

A JSON number is an integer of at most 64 bits, signed or unsigned, or a finite double; the two
kinds are never equal. Object fields are kept as `Keyed` entries.

`Json.equal` is equality of values: it differs from identity in the two zeros alone.
-/

set_option autoImplicit false

namespace Rulebook

inductive JsonNumber where
  | integer (value : Int) (inRange : -0x8000000000000000 ≤ value ∧ value < 0x10000000000000000)
  | float (value : Double)
deriving DecidableEq

/-- Equality of numbers of one kind. -/
def JsonNumber.equal : JsonNumber → JsonNumber → Bool
  | .integer m _, .integer n _ => m == n
  | .float x, .float y => x.equal y
  | _, _ => false

def IsInt64 (n : Int) : Prop :=
  -0x8000000000000000 ≤ n ∧ n < 0x8000000000000000

instance (n : Int) : Decidable (IsInt64 n) :=
  inferInstanceAs (Decidable (_ ∧ _))

theorem inRange_of_isInt64 {n : Int} (h : IsInt64 n) :
    -0x8000000000000000 ≤ n ∧ n < 0x10000000000000000 :=
  ⟨h.1, Int.lt_trans h.2 (by decide)⟩

/-- The integer, if it has at most 64 bits. -/
def JsonNumber.ofInt? (value : Int) : Option JsonNumber :=
  if h : -0x8000000000000000 ≤ value ∧ value < 0x10000000000000000 then some (.integer value h)
  else none

/-- A JSON value. The fields of an object stand in ascending key order. -/
inductive Json where
  | null
  | bool (value : Bool)
  | num (value : JsonNumber)
  | str (value : String)
  | arr (items : List Json)
  | obj (fields : List (String × Json))

namespace Json

mutual

def equal : Json → Json → Bool
  | .null, .null => true
  | .bool a, .bool b => a == b
  | .num a, .num b => a.equal b
  | .str a, .str b => a == b
  | .arr as, .arr bs => equalItems as bs
  | .obj as, .obj bs => equalFields as bs
  | _, _ => false

def equalItems : List Json → List Json → Bool
  | [], [] => true
  | a :: as, b :: bs => a.equal b && equalItems as bs
  | _, _ => false

def equalFields : List (String × Json) → List (String × Json) → Bool
  | [], [] => true
  | a :: as, b :: bs => a.1 == b.1 && a.2.equal b.2 && equalFields as bs
  | _, _ => false

end

instance : BEq Json := ⟨equal⟩

end Json

end Rulebook
