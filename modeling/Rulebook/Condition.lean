import Rulebook.Expr.Equality
import Rulebook.Expr.Evaluate
import Rulebook.Operator.Apply

/-! # Conditions

A condition applies an operator to two expressions. Both are always evaluated, the left one first.
-/

set_option autoImplicit false

namespace Rulebook

def Operator.parse (text : String) : Except EvalError Operator :=
  match ofSymbol? text with
  | some op => .ok op
  | none => .error (.config (.unknownOperator text))

/-- A comparison of two expressions. -/
structure Condition where
  left : Expr
  op : Operator
  right : Expr

namespace Condition

def evaluate {World : Type} (host : Host World) (ctx : Context) (c : Condition) :
    Eval World Bool := do
  let left ← c.left.evaluate host ctx
  let right ← c.right.evaluate host ctx
  Eval.ofExcept (c.op.apply left right)

def elements (c : Condition) : List Element :=
  c.left.elements ++ c.right.elements

def references (c : Condition) : List Element :=
  Element.set c.elements

/-- The cost of the dearer operand. -/
def weight (c : Condition) : Nat :=
  max c.left.weight c.right.weight

def display (decl : Declarations) (c : Condition) : String :=
  "(" ++ c.left.display decl ++ ") " ++ c.op.symbol ++ " (" ++ c.right.display decl ++ ")"

def equal (a b : Condition) : Bool :=
  a.left.equal b.left && a.op == b.op && a.right.equal b.right

instance : BEq Condition := ⟨equal⟩

def hashInput (c : Condition) : List HashWord :=
  c.left.hashInput ++ .text c.op.symbol :: c.right.hashInput

end Condition

end Rulebook
