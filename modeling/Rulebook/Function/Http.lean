import Rulebook.Datum.Json

/-! # Functions that fetch over HTTP

A configured function turns its Mapping parameter into query pairs, and the JSON body of the
response into a datum of its result type. The request in between is made by the host.

* `HttpFunction.queryPairs`: scalars as they are shown to people, everything else as JSON.
* `HttpFunction.decode`: raw JSON as it is, records under the configured type name, everything
  else by `Datum.ofJson`; the result always fits the result type.
-/

set_option autoImplicit false

namespace Rulebook

/-- A function that fetches JSON from a fixed address. -/
structure HttpFunction where
  name : String
  url : String
  resultType : DataType := .genericObject
  /-- The type name of decoded records; the name of the function if there is none. -/
  recordType : Option String := none
  /-- The longest time that a call may take, in milliseconds. -/
  timeoutMs : Option Nat := none
  authToken : Option String := none
deriving DecidableEq, Repr

namespace HttpFunction

def recordName (f : HttpFunction) : String :=
  f.recordType.getD f.name

def queryText (d : Datum) : String :=
  match d with
  | .text s => s
  | .number n => n.text
  | .bool b => if b then "true" else "false"
  | _ => d.toJson.compact

/-- The query pairs of a parameter, in ascending order of their keys. -/
def queryPairs (parameter : Datum) : Except FunctionError (List (String × String)) :=
  match parameter with
  | .map entries => .ok (entries.map fun e => (e.1, queryText e.2))
  | _ => .error (.invalidArgument s!"expected Mapping, got {parameter.dataType}")

def decode (f : HttpFunction) (body : Json) : Except FunctionError Datum :=
  let converted : Except EvalError Datum :=
    match f.resultType with
    | .rawObject => .ok (.json body)
    | .structuredObject => Datum.recordOfJson f.recordName body
    | _ => Datum.ofJson body
  match converted with
  | .error e => .error (.failed e.message)
  | .ok d =>
    if d.fits f.resultType then .ok d
    else .error (.failed s!"response decoded to {d.dataType}, expected {f.resultType}")

end HttpFunction

end Rulebook
