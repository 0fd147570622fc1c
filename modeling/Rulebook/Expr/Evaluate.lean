import Rulebook.Expr.Basic
import Rulebook.Expr.Run

/-! # Evaluation

`Expr.evaluate` computes the value of an expression against a context, and `Param.materialize`
resolves every expression in a parameter, so that a function receives plain data. Both go depth
first: a parameter before its function, entries in key order, items and fields as they are listed.

Every application checks the types that the host declares at that time: of the argument before the
function runs, of the result after.
-/

set_option autoImplicit false

namespace Rulebook

variable {World : Type}

namespace Application

variable {P : Type}

/-- Checks a result against the declared type and the type the call is narrowed to. -/
def checkResult (decl : Declarations) (call : Application P) (result : Datum) :
    Except EvalError Datum :=
  let declared := (decl.signature call.function).resultType
  let mismatch (expected : DataType) : EvalError :=
    .resultMismatch call.function.name expected result.dataType
  if !result.fits declared then .error (mismatch declared)
  else
    match call.expected with
    | some expected => if result.fits expected then .ok result else .error (mismatch expected)
    | none => .ok result

/-- Runs the function of an application over a materialized argument. -/
def run (host : Host World) (call : Application P) (argument : Datum) : Eval World Datum :=
  let expected := (host.signature call.function).parameterType
  if argument.fits expected then do
    let result ← Eval.invoke host call.function argument
    Eval.ofExcept (call.checkResult host.toDeclarations result)
  else
    Eval.ofExcept (.error (.parameterMismatch call.function.name expected argument.dataType))

end Application

/-- The entry that a field contributes, if its content fits the slot. -/
def Field.entry {P : Type} (record : String) (f : Field P) (content : Datum) :
    Except EvalError (String × Datum) :=
  match f.slot with
  | .untyped => .ok (f.name, content)
  | .typed expected =>
    if content.fits expected then .ok (f.name, content)
    else .error (.fieldMismatch record f.name expected content.dataType)

mutual

def Expr.evaluate (host : Host World) (ctx : Context) : Expr → Eval World Datum
  | .constant literal => pure literal.value
  | .element reference => Eval.ofExcept (reference.evaluate ctx)
  | .application call => do
    let argument ← call.parameter.materialize host ctx
    call.run host argument

/-- The datum that a parameter stands for. Of several fields under one name the last one counts. -/
def Param.materialize (host : Host World) (ctx : Context) : Param → Eval World Datum
  | .scalar d => pure d
  | .value node => node.evaluate host ctx
  | .mapping entries => do
    let entries ← Param.materializeEntries host ctx entries
    return .map entries
  | .sequence items => do
    let items ← Param.materializeItems host ctx items
    return .list items
  | .record typeName fields => do
    let entries ← Param.materializeFields host ctx typeName fields
    return .record typeName (Keyed.ofList entries)

def Param.materializeEntries (host : Host World) (ctx : Context) :
    List (String × Param) → Eval World (List (String × Datum))
  | [] => pure []
  | e :: rest => do
    let d ← e.2.materialize host ctx
    let ds ← Param.materializeEntries host ctx rest
    return (e.1, d) :: ds

def Param.materializeItems (host : Host World) (ctx : Context) :
    List Param → Eval World (List Datum)
  | [] => pure []
  | p :: rest => do
    let d ← p.materialize host ctx
    let ds ← Param.materializeItems host ctx rest
    return d :: ds

/-- The fields of a record, each checked against its slot as soon as it is resolved. -/
def Param.materializeFields (host : Host World) (ctx : Context) (record : String) :
    List (Field Param) → Eval World (List (String × Datum))
  | [] => pure []
  | f :: rest => do
    let content ← f.node.materialize host ctx
    let entry ← Eval.ofExcept (f.entry record content)
    let entries ← Param.materializeFields host ctx record rest
    return entry :: entries

end

end Rulebook
