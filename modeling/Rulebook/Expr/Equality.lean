import Rulebook.Datum.HashInput
import Rulebook.Expr.Basic

/-! # Equality of trees

Trees are equal when they have the same shape, equal literals, the same elements and applications
of functions of the same name, narrowed alike. `hashInput` lists what a tree feeds to a hash; equal
trees have equal lists.
-/

set_option autoImplicit false

namespace Rulebook

mutual

def Expr.equal : Expr → Expr → Bool
  | .constant a, .constant b => a.equal b
  | .element a, .element b => a == b
  | .application a, .application b =>
    a.function.name == b.function.name && a.expected == b.expected &&
      a.parameter.equal b.parameter
  | _, _ => false
termination_by structural a => a

def Param.equal : Param → Param → Bool
  | .scalar a, .scalar b => a.equal b
  | .value a, .value b => a.equal b
  | .mapping as, .mapping bs => Param.equalEntries as bs
  | .sequence as, .sequence bs => Param.equalItems as bs
  | .record s as, .record t bs => s == t && Param.equalFields as bs
  | _, _ => false
termination_by structural a => a

def Param.equalEntries : List (String × Param) → List (String × Param) → Bool
  | [], [] => true
  | a :: as, b :: bs => a.1 == b.1 && a.2.equal b.2 && Param.equalEntries as bs
  | _, _ => false
termination_by structural a => a

def Param.equalItems : List Param → List Param → Bool
  | [], [] => true
  | a :: as, b :: bs => a.equal b && Param.equalItems as bs
  | _, _ => false
termination_by structural a => a

def Param.equalFields : List (Field Param) → List (Field Param) → Bool
  | [], [] => true
  | a :: as, b :: bs =>
    a.name == b.name && a.slot == b.slot && a.node.equal b.node && Param.equalFields as bs
  | _, _ => false
termination_by structural a => a

end

/-- Equality of applications. Of the function only the name counts. -/
def Application.equal (a b : Call) : Bool :=
  a.function.name == b.function.name && a.expected == b.expected && a.parameter.equal b.parameter

theorem Expr.equal_application (a b : Call) :
    (Expr.application a).equal (.application b) = a.equal b :=
  rfl

instance : BEq Expr := ⟨Expr.equal⟩

instance : BEq Param := ⟨Param.equal⟩

def Slot.hashInput : Slot → List HashWord
  | .untyped => [.case 0]
  | .typed t => .case 1 :: t.hashInput

def Element.hashInput (e : Element) : List HashWord :=
  .text e.code :: e.dataType.hashInput

def Constant.hashInput (c : Constant) : List HashWord :=
  c.dataType.hashInput ++ c.value.hashInput

/-- The hash input of the type that an application is narrowed to. -/
def Application.expectedInput {P : Type} (call : Application P) : List HashWord :=
  match call.expected with
  | none => [.case 0]
  | some t => .case 1 :: t.hashInput

mutual

def Expr.hashInput : Expr → List HashWord
  | .constant literal => .case 0 :: literal.hashInput
  | .element reference => .case 1 :: reference.hashInput
  | .application call =>
    .case 2 :: .text call.function.name :: call.expectedInput ++ call.parameter.hashInput

def Param.hashInput : Param → List HashWord
  | .scalar d => .case 0 :: d.hashInput
  | .value node => .case 1 :: node.hashInput
  | .mapping entries => .case 2 :: .size entries.length :: Param.hashEntries entries
  | .sequence items => .case 3 :: .size items.length :: Param.hashItems items
  | .record typeName fields =>
    .case 4 :: .text typeName :: .size fields.length :: Param.hashFields fields

def Param.hashEntries : List (String × Param) → List HashWord
  | [] => []
  | e :: rest => .text e.1 :: e.2.hashInput ++ Param.hashEntries rest

def Param.hashItems : List Param → List HashWord
  | [] => []
  | p :: rest => p.hashInput ++ Param.hashItems rest

def Param.hashFields : List (Field Param) → List HashWord
  | [] => []
  | f :: rest =>
    .text f.name :: f.slot.hashInput ++ f.node.hashInput ++ Param.hashFields rest

end

def Application.hashInput (call : Call) : List HashWord :=
  .text call.function.name :: call.expectedInput ++ call.parameter.hashInput

theorem Expr.hashInput_application (call : Call) :
    (Expr.application call).hashInput = .case 2 :: call.hashInput :=
  rfl

end Rulebook
