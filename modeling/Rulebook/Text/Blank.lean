/-! # Blank texts

A character is blank when it has the Unicode property White_Space, which holds of 25 code points
since Unicode 6.3. Zero-width spaces and joiners are not among them.
-/

set_option autoImplicit false

namespace Rulebook.Text

def blankRanges : List (Nat × Nat) :=
  [(0x09, 0x0d), (0x20, 0x20), (0x85, 0x85), (0xa0, 0xa0), (0x1680, 0x1680), (0x2000, 0x200a),
   (0x2028, 0x2029), (0x202f, 0x202f), (0x205f, 0x205f), (0x3000, 0x3000)]

def isBlankChar (c : Char) : Bool :=
  blankRanges.any fun r => r.1 ≤ c.toNat && c.toNat ≤ r.2

def isBlank (s : String) : Bool :=
  s.toList.all isBlankChar

end Rulebook.Text
