import Rulebook.DataType
import Rulebook.Operator.Basic

/-! # Causes of failure

Failures fall into two classes. Configuration errors arise while nodes are built, functions are
registered and rules are added; evaluation errors arise while a tree runs against a context.
`EvalError.isConfiguration` tells them apart, and `EvalError.message` holds every wording.

That no rule matched is not among them: it is a result.
-/

set_option autoImplicit false

namespace Rulebook

/-- The failure that a function reports for one call. -/
inductive FunctionError where
  /-- The argument has the right type, but its content is of no use. -/
  | invalidArgument (reason : String)
  /-- The work of the function itself failed. -/
  | failed (reason : String)
deriving DecidableEq, Repr

def FunctionError.message : FunctionError → String
  | invalidArgument reason => s!"invalid argument: {reason}"
  | failed reason => reason

/-- Why a text or a number has no decimal form. -/
inductive DecimalError where
  | malformed
  | exceedsMaximum
  /-- A power of ten beyond the greatest scale is asked for. -/
  | scaleExceeds (scale : Nat)
deriving DecidableEq, Repr

def DecimalError.message : DecimalError → String
  | malformed => "Failed to parse"
  | exceedsMaximum => "Number exceeds maximum value that can be represented."
  | scaleExceeds scale => s!"Scale exceeds the maximum precision allowed: {scale} > 28"

/-- What an operation was asked to do with a value of the wrong kind. -/
inductive TypeFault where
  /-- The JSON value for `subject` is no object. -/
  | notObject (subject : String)
  /-- A JSON number, written `number`, has no decimal form. -/
  | unrepresentable (number : String) (cause : DecimalError)
  /-- A test on text was given something else. -/
  | textRequired (op : Operator) (left right : DataType)
  /-- An ordering was given an operand without a numeric view. -/
  | numberRequired (op : Operator) (given : DataType)
  /-- A search in something that holds nothing. -/
  | notSearchable (op : Operator) (given : DataType)
  | notNumeric (op : Operator)
deriving DecidableEq, Repr

def TypeFault.message : TypeFault → String
  | notObject subject => s!"{subject} must be a JSON object"
  | unrepresentable number cause =>
    s!"number {number} is not representable as Decimal: " ++ cause.message
  | textRequired op left right => s!"operator '{op}' requires text, got {left} and {right}"
  | numberRequired op given => s!"operator '{op}' requires numbers, got {given}"
  | notSearchable op given => s!"operator '{op}' not defined for {given}"
  | notNumeric op => s!"operator '{op}' is not a numeric comparison"

inductive ConfigFault where
  | unknownOperator (text : String)
  | unreadable (path reason : String)
  | malformed
  /-- A function that fetches over HTTP is configured where there is no support for it. -/
  | httpDisabled (function : String)
deriving DecidableEq, Repr

def ConfigFault.message : ConfigFault → String
  | unknownOperator text => s!"unknown operator: {text}"
  | unreadable path reason => s!"cannot read {path}: {reason}"
  | malformed => "malformed document"
  | httpDisabled function =>
    s!"http function '{function}' configured but http support is disabled"

/-- The failures of the engine and of everything it is built from. -/
inductive EvalError where
  | unknownFunction (name : String)
  | duplicateFunction (name : String)
  /-- The parameter of an application can not be bound to the function's parameter type. -/
  | parameterType (function : String) (expected got : DataType)
  | constantType (expected got : DataType)
  /-- The content of a record field can never fit its slot. -/
  | fieldType (record field : String) (expected got : DataType)
  /-- A function can never produce the type that an application is narrowed to. -/
  | resultType (function : String) (expected got : DataType)
  | invalidElement
  /-- No rule was ever added under this id. -/
  | unknownRule (id : String)
  | duplicateFallback (id : String)
  | config (fault : ConfigFault)
  | missingReference (code : String)
  | typeMismatch (code : String) (expected got : DataType)
  | typeError (fault : TypeFault)
  | function (name : String) (source : FunctionError)
  /-- A function returned a value outside its declared or narrowed result type. -/
  | resultMismatch (function : String) (expected got : DataType)
  /-- A materialized parameter does not fit the function's parameter type. -/
  | parameterMismatch (function : String) (expected got : DataType)
  /-- A materialized record field does not fit its slot. -/
  | fieldMismatch (record field : String) (expected got : DataType)
deriving DecidableEq, Repr

namespace EvalError

/-- Whether the failure arises while building or registering, not while evaluating. -/
def isConfiguration : EvalError → Bool
  | unknownFunction _ | duplicateFunction _ | parameterType .. | constantType .. | fieldType ..
  | resultType .. | invalidElement | unknownRule _ | duplicateFallback _ | config _ => true
  | missingReference _ | typeMismatch .. | typeError _ | function _ _ | resultMismatch ..
  | parameterMismatch .. | fieldMismatch .. => false

def message : EvalError → String
  | unknownFunction name => s!"function not registered: {name}"
  | duplicateFunction name => s!"function already registered: {name}"
  | parameterType name expected got =>
    s!"function '{name}' parameter {got} is not assignable to {expected}"
  | constantType expected got => s!"constant {got} is not assignable to {expected}"
  | fieldType record field expected got =>
    s!"field '{record}.{field}' holds {got}, slot is {expected}"
  | resultType name expected got =>
    s!"function '{name}' returns {got}, which can never produce {expected}"
  | invalidElement => "invalid element: element code must not be blank"
  | unknownRule id => s!"unknown rule: {id}"
  | duplicateFallback id => s!"rule '{id}' already has an unconditional fallback"
  | config fault => "configuration error: " ++ fault.message
  | missingReference code => s!"missing context value: {code}"
  | typeMismatch code expected got =>
    s!"type mismatch for '{code}': expected {expected}, got {got}"
  | typeError fault => "type error: " ++ fault.message
  | function name source => s!"function '{name}' failed: " ++ source.message
  | resultMismatch name expected got =>
    s!"function '{name}' returned {got}, expected {expected}"
  | parameterMismatch name expected got =>
    s!"function '{name}' received {got}, expected {expected}"
  | fieldMismatch record field expected got =>
    s!"field '{record}.{field}' resolved to {got}, expected {expected}"

end EvalError

end Rulebook
