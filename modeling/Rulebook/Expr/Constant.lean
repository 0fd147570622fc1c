import Rulebook.Datum.Display

/-! # Constants

A constant is a literal with a data type that it fits. The type is the literal's own or the open
type.
-/

set_option autoImplicit false

namespace Rulebook

/-- A literal of a data type. -/
structure Constant where
  dataType : DataType
  value : Datum
  value_fits : value.fits dataType = true

namespace Constant

def make (dataType : DataType) (value : Datum) : Except EvalError Constant :=
  if h : value.fits dataType = true then .ok ⟨dataType, value, h⟩
  else .error (.constantType dataType value.dataType)

/-- The constant of the literal's own type. -/
def ofDatum (value : Datum) : Constant :=
  ⟨value.dataType, value, by simp [Datum.fits]⟩

/-- The constant of the open type. -/
def generic (value : Datum) : Constant :=
  ⟨.genericObject, value, by simp [Datum.fits]⟩

def display (c : Constant) : String :=
  s!"{c.dataType} : " ++ c.value.display

def equal (a b : Constant) : Bool :=
  a.dataType == b.dataType && a.value.equal b.value

instance : BEq Constant := ⟨equal⟩

end Constant

end Rulebook
