/-! # Comparison operators

The ten operators that a condition can apply to its two operands, and their spelling.
-/

set_option autoImplicit false

namespace Rulebook

inductive Operator where
  | eq
  | ne
  | lt
  | le
  | gt
  | ge
  | contains
  | notContains
  | startsWith
  | endsWith
deriving DecidableEq, Repr

namespace Operator

/-- Every operator: equality, ordering, then the tests on content. -/
def all : List Operator :=
  [eq, ne, lt, le, gt, ge, contains, notContains, startsWith, endsWith]

def symbol : Operator → String
  | eq => "="
  | ne => "!="
  | lt => "<"
  | le => "<="
  | gt => ">"
  | ge => ">="
  | contains => "contains"
  | notContains => "not_contains"
  | startsWith => "starts_with"
  | endsWith => "ends_with"

def ofSymbol? (text : String) : Option Operator :=
  all.find? fun op => op.symbol == text

instance : ToString Operator := ⟨symbol⟩

theorem ofSymbol?_symbol (op : Operator) : ofSymbol? op.symbol = some op := by
  cases op <;> decide

end Operator

end Rulebook
