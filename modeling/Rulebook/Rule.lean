import Rulebook.Condition

/-! # Rules

A rule guards an action by a condition and stands under an id with a weight. A fallback has no
condition; its weight is the greatest there is.
-/

set_option autoImplicit false

namespace Rulebook

/-- A guarded action under an id. -/
structure Rule where
  id : String
  condition : Option Condition
  action : Expr
  weight : Int32

namespace Rule

def fallbackWeight : Int32 := Int32.maxValue

def conditioned (id : String) (condition : Condition) (action : Expr) (weight : Int32) : Rule :=
  { id, condition := some condition, action, weight }

/-- The unconditional rule of an id. -/
def fallback (id : String) (action : Expr) : Rule :=
  { id, condition := none, action, weight := fallbackWeight }

def isFallback (r : Rule) : Bool :=
  r.condition.isNone

/-- The elements of condition and action, in evaluation order. -/
def elements (r : Rule) : List Element :=
  (r.condition.map Condition.elements).getD [] ++ r.action.elements

def references (r : Rule) : List Element :=
  Element.set r.elements

/-- The value of the action, if the condition holds. -/
def apply {World : Type} (host : Host World) (ctx : Context) (r : Rule) :
    Eval World (Option Datum) := do
  let holds ←
    match r.condition with
    | some c => c.evaluate host ctx
    | none => pure true
  if holds then
    let value ← r.action.evaluate host ctx
    return some value
  else return none

def equal (a b : Rule) : Bool :=
  let sameCondition :=
    match a.condition, b.condition with
    | some c, some d => c.equal d
    | none, none => true
    | _, _ => false
  a.id == b.id && sameCondition && a.action.equal b.action && a.weight == b.weight

instance : BEq Rule := ⟨equal⟩

end Rule

end Rulebook
