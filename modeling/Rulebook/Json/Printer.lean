import Rulebook.Json.Basic
import Rulebook.Number.Shortest

/-! # JSON texts

`Json.compact` writes a value without any blanks. Quotes, backslashes and control characters are
escaped, the latter by a letter where one exists; every other character stands for itself.
-/

set_option autoImplicit false

namespace Rulebook

def JsonNumber.text : JsonNumber → String
  | .integer value _ => toString value
  | .float value => value.text

namespace Json

/-- How a character is written inside a quoted text. -/
def escape (c : Char) : List Char :=
  match c with
  | '"' => ['\\', '"']
  | '\\' => ['\\', '\\']
  | '\x08' => ['\\', 'b']
  | '\x0c' => ['\\', 'f']
  | '\n' => ['\\', 'n']
  | '\r' => ['\\', 'r']
  | '\t' => ['\\', 't']
  | _ =>
    if c.toNat < 0x20 then
      let digits := Nat.toDigits 16 c.toNat
      ['\\', 'u'] ++ List.replicate (4 - digits.length) '0' ++ digits
    else [c]

def quote (s : String) : String :=
  String.ofList ('"' :: s.toList.flatMap escape ++ ['"'])

mutual

def compact : Json → String
  | .null => "null"
  | .bool value => if value then "true" else "false"
  | .num value => value.text
  | .str value => quote value
  | .arr items => "[" ++ ",".intercalate (compactItems items) ++ "]"
  | .obj fields => "\x7b" ++ ",".intercalate (compactFields fields) ++ "\x7d"

def compactItems : List Json → List String
  | [] => []
  | a :: rest => a.compact :: compactItems rest

def compactFields : List (String × Json) → List String
  | [] => []
  | a :: rest => (quote a.1 ++ ":" ++ a.2.compact) :: compactFields rest

end

end Json

end Rulebook
