import Rulebook.Expr.Basic
import Rulebook.Function.Registry

/-! # Building applications

An application is checked once, when it is built: its function has to be registered, the typed
slots of its parameter have to be met, and the parameter's type has to be accepted by the
function.

* `Param.validate`: a slot is refused when its content can never fit. An expression of the open
  type may turn out to fit, so it is let through and checked when it is evaluated.
* `Application.make`: looks the function up and checks the parameter.
* `Application.expecting`: narrows the result, unless the function can never produce the type.
-/

set_option autoImplicit false

namespace Rulebook

/-- Whether the content is an expression of the open type, about whose value nothing is known. -/
def Param.isOpen (decl : Declarations) : Param → Bool
  | .value node => node.resultType decl == .genericObject
  | _ => false

def Field.check (decl : Declarations) (record : String) (f : Field Param) : Except EvalError Unit :=
  match f.slot with
  | .untyped => .ok ()
  | .typed expected =>
    let got := f.node.staticType decl
    if expected.accepts got || f.node.isOpen decl then .ok ()
    else .error (.fieldType record f.name expected got)

mutual

/-- Checks every typed slot of a parameter, in evaluation order. Parameters of nested applications
were checked when those were built. -/
def Param.validate (decl : Declarations) : Param → Except EvalError Unit
  | .scalar _ => .ok ()
  | .value _ => .ok ()
  | .mapping entries => Param.validateEntries decl entries
  | .sequence items => Param.validateItems decl items
  | .record typeName fields => Param.validateFields decl typeName fields

def Param.validateEntries (decl : Declarations) : List (String × Param) → Except EvalError Unit
  | [] => .ok ()
  | e :: rest => do
    e.2.validate decl
    Param.validateEntries decl rest

def Param.validateItems (decl : Declarations) : List Param → Except EvalError Unit
  | [] => .ok ()
  | p :: rest => do
    p.validate decl
    Param.validateItems decl rest

/-- Checks the fields of a record, each content before its slot. -/
def Param.validateFields (decl : Declarations) (record : String) :
    List (Field Param) → Except EvalError Unit
  | [] => .ok ()
  | f :: rest => do
    f.node.validate decl
    f.check decl record
    Param.validateFields decl record rest

end

namespace Application

/-- Applies the function registered under `name` to a parameter. -/
def make (decl : Declarations) (registry : Registry) (name : String) (parameter : Param) :
    Except EvalError Call := do
  let function ← registry.get name
  parameter.validate decl
  let declared := (decl.signature function).parameterType
  let got := parameter.staticType decl
  if declared.accepts got then
    return { function, parameter, expected := none }
  else
    throw (.parameterType name declared got)

/-- Narrows the result to a type. The function has to produce that type or a wider one, or the type
has to be wider than what it produces. -/
def expecting (decl : Declarations) (call : Call) (dataType : DataType) : Except EvalError Call :=
  let produced := (decl.signature call.function).resultType
  if produced.accepts dataType || dataType.accepts produced then
    .ok { call with expected := some dataType }
  else .error (.resultType call.function.name dataType produced)

end Application

end Rulebook
