import Rulebook.Text.Invisible

/-! # Quoted texts

`Text.quoted` writes a text between quotes so that all of it can be seen: quotes, backslashes and
the usual controls are escaped by a letter, and any other character without a glyph of its own by
its code point.
-/

set_option autoImplicit false

namespace Rulebook.Text

/-- How a character is shown between quotes. -/
def showChar (c : Char) : List Char :=
  match c with
  | '"' => ['\\', '"']
  | '\\' => ['\\', '\\']
  | '\n' => ['\\', 'n']
  | '\r' => ['\\', 'r']
  | '\t' => ['\\', 't']
  | '\x00' => ['\\', '0']
  | _ =>
    if isInvisible c then ['\\', 'u', '\x7b'] ++ Nat.toDigits 16 c.toNat ++ ['\x7d'] else [c]

def quoted (s : String) : String :=
  String.ofList ('"' :: s.toList.flatMap showChar ++ ['"'])

end Rulebook.Text
