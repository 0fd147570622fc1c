import Rulebook.Config.Basic
import Rulebook.Config.Document
import Rulebook.Error

/-! # Reading engine configurations

A configuration document has the setting `builtins`, which is true if absent, and a section `http`
for each function that fetches over HTTP; the sections may also be written as one array under the
key `http`. A section names the function and its address, and may give a result type, a record type,
a time limit and a token. Any other key makes the document unusable.
-/

set_option autoImplicit false

namespace Rulebook

/-- The data type that a setting names: by its text, or as the one key of a table, over nothing. -/
def Setting.dataType? : Setting → Option DataType
  | .text name => DataType.ofSnakeName? name
  | .table _ [(name, .table _ [])] | .table _ [(name, .array [])] => DataType.ofSnakeName? name
  | _ => none

def HttpFunction.set? (f : HttpFunction) (key : String) (value : Setting) : Option HttpFunction :=
  match key, value with
  | "name", .text name => some { f with name }
  | "url", .text url => some { f with url }
  | "result_type", value => value.dataType?.map fun resultType => { f with resultType }
  | "record_type", .text name => some { f with recordType := some name }
  | "timeout_ms", .integer n => if 0 ≤ n then some { f with timeoutMs := some n.toNat } else none
  | "auth_token", .text token => some { f with authToken := some token }
  | _, _ => none

def HttpFunction.ofTable? (entries : Table) : Option HttpFunction := do
  let f ← entries.foldlM (fun f e => HttpFunction.set? f e.1 e.2) { name := "", url := "" }
  if Keyed.contains "name" entries ∧ Keyed.contains "url" entries then some f else none

/-- The settings of a function, in the order in which an array gives their values. -/
def HttpFunction.settingKeys : List String :=
  ["name", "url", "result_type", "record_type", "timeout_ms", "auth_token"]

/-- The function that a table describes, or an array of the values alone, of which the last may be
left out and any beyond the known settings are ignored. -/
def HttpFunction.ofSetting? : Setting → Option HttpFunction
  | .table _ entries => ofTable? entries
  | .array values => ofTable? (settingKeys.zip values)
  | _ => none

namespace EngineConfig

def httpOfSetting? : Setting → Option (List HttpFunction)
  | .array items => items.mapM HttpFunction.ofSetting?
  | .sections tables => tables.mapM HttpFunction.ofTable?
  | _ => none

def set? (config : EngineConfig) (key : String) (value : Setting) : Option EngineConfig :=
  match key, value with
  | "builtins", .bool builtins => some { config with builtins }
  | "http", value => (httpOfSetting? value).map fun http => { config with http }
  | _, _ => none

def ofTable? (settings : Table) : Option EngineConfig :=
  settings.foldlM (fun config e => config.set? e.1 e.2) {}

def parse (text : String) : Except EvalError EngineConfig :=
  match (Document.parse? text).bind ofTable? with
  | some config => .ok config
  | none => .error (.config .malformed)

end EngineConfig

end Rulebook
