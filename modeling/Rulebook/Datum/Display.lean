import Rulebook.Datum.Json
import Rulebook.Text.Quoted

/-! # How data are shown

Texts are quoted, decimals keep their scale, records carry their type name, and everything else is
compact JSON.
-/

set_option autoImplicit false

namespace Rulebook

/-- The form in which a datum is shown to people. -/
def Datum.display (d : Datum) : String :=
  match d with
  | .text s => Text.quoted s
  | .bool b => if b then "true" else "false"
  | .number n => n.text
  | .record typeName _ => typeName ++ " " ++ d.toJson.compact
  | _ => d.toJson.compact

end Rulebook
