import Rulebook.Expr.Constant
import Rulebook.Expr.Element
import Rulebook.Function.Host

/-! # Expressions and parameters

An expression is a constant, an element, or the application of a function to a parameter. A
parameter is a graph of mappings, sequences and records, in which further expressions may stand at
any depth. Trees never change once they are built.

* `Expr.resultType`, `Param.staticType`: the type that a tree is declared to produce.
* `Expr.elements`, `Param.elements`: the elements in a tree, in evaluation order.
* `Expr.references`, `Param.references`: the same as a set.
* `Expr.weight`: how dear a node is to evaluate.
-/

set_option autoImplicit false

namespace Rulebook

/-- What a record field accepts. -/
inductive Slot where
  | untyped
  | typed (dataType : DataType)
deriving DecidableEq, Repr

structure Field (P : Type) where
  name : String
  slot : Slot
  node : P

structure Application (P : Type) where
  function : FunctionRef
  parameter : P
  /-- The type that the result is narrowed to. -/
  expected : Option DataType

mutual

inductive Expr where
  | constant (literal : Constant)
  | element (reference : Element)
  | application (call : Application Param)

/-- A parameter of a function. The entries of a mapping stand in ascending key order; the fields of
a record stand in the order of their declaration, and a name may occur twice. -/
inductive Param where
  | scalar (value : Datum)
  | value (node : Expr)
  | mapping (entries : List (String × Param))
  | sequence (items : List Param)
  | record (typeName : String) (fields : List (Field Param))

end

namespace Slot

def accepts : Slot → DataType → Bool
  | untyped, _ => true
  | typed t, given => t.accepts given

end Slot

abbrev Call := Application Param

/-- The type that an application is declared to produce. -/
def Application.resultType {P : Type} (decl : Declarations) (call : Application P) : DataType :=
  call.expected.getD (decl.signature call.function).resultType

def Application.display {P : Type} (decl : Declarations) (call : Application P) : String :=
  s!"{call.resultType decl} : " ++ call.function.name ++ "(..)"

namespace Expr

/-- The type that a node is declared to produce. -/
def resultType (decl : Declarations) : Expr → DataType
  | constant literal => literal.dataType
  | element reference => reference.dataType
  | application call => call.resultType decl

/-- The cost of a node: nothing for a constant, a look-up for an element, and for an application
whatever the function does. -/
def weight : Expr → Nat
  | constant _ => 0
  | element _ => 1
  | application _ => 2

def display (decl : Declarations) : Expr → String
  | constant literal => literal.display
  | element reference => reference.display
  | application call => call.display decl

end Expr

namespace Param

/-- The mapping without entries, for functions that need no input. -/
def empty : Param := mapping []

/-- The type that a parameter is known to have before evaluation. -/
def staticType (decl : Declarations) : Param → DataType
  | .scalar d => d.dataType
  | .value node => node.resultType decl
  | .mapping _ => .mapping
  | .sequence _ => .collection
  | .record .. => .structuredObject

end Param

mutual

/-- The elements in an expression, in evaluation order. -/
def Expr.elements : Expr → List Element
  | .constant _ => []
  | .element reference => [reference]
  | .application call => call.parameter.elements

def Param.elements : Param → List Element
  | .scalar _ => []
  | .value node => node.elements
  | .mapping entries => Param.entryElements entries
  | .sequence items => Param.itemElements items
  | .record _ fields => Param.fieldElements fields

def Param.entryElements : List (String × Param) → List Element
  | [] => []
  | e :: rest => e.2.elements ++ Param.entryElements rest

def Param.itemElements : List Param → List Element
  | [] => []
  | p :: rest => p.elements ++ Param.itemElements rest

def Param.fieldElements : List (Field Param) → List Element
  | [] => []
  | f :: rest => f.node.elements ++ Param.fieldElements rest

end

def Expr.references (v : Expr) : List Element :=
  Element.set v.elements

def Param.references (p : Param) : List Element :=
  Element.set p.elements

end Rulebook
