import Rulebook.Text.Rest

/-! # Blanks, comments and line ends

What separates the parts of a configuration document. A line ends with a line feed, perhaps after a
carriage return, which stands nowhere else. A comment runs from a hash sign to the end of its line.
-/

set_option autoImplicit false

namespace Rulebook.Line

def isSpace (c : Char) : Bool :=
  c == ' ' || c == '\t'

/-- The characters that may stand in comments and texts: all but controls, tabs excepted. -/
def isPlain (c : Char) : Bool :=
  c == '\t' || (0x20 ≤ c.toNat && c.toNat != 0x7f)

/-- Whether a line ends with `c` before the text `r`. -/
def isEnd (c : Char) (r : List Char) : Bool :=
  c == '\n' || (c == '\r' && r.head? == some '\n')

def skipSpaces (s : List Char) : List Char :=
  s.dropWhile isSpace

theorem length_lt_of_skipSpaces {s r : List Char} {c : Char} (h : skipSpaces s = c :: r) :
    r.length < s.length :=
  Text.length_lt_of_dropWhile h

def skipGap : List Char → List Char
  | [] => []
  | c :: r => if isSpace c || isEnd c r then skipGap r else c :: r

theorem length_skipGap_le (s : List Char) : (skipGap s).length ≤ s.length := by
  induction s with
  | nil => simp [skipGap]
  | cons c r ih =>
    rw [skipGap]
    split
    · exact Nat.le_succ_of_le ih
    · exact Nat.le_refl _

def skipTrivia (inComment : Bool) : List Char → List Char
  | [] => []
  | c :: r =>
    if isEnd c r then skipTrivia false r
    else if inComment then if isPlain c then skipTrivia true r else c :: r
    else if isSpace c then skipTrivia false r
    else if c = '#' then skipTrivia true r
    else c :: r

theorem length_skipTrivia_le (inComment : Bool) (s : List Char) :
    (skipTrivia inComment s).length ≤ s.length := by
  induction s generalizing inComment with
  | nil => simp [skipTrivia]
  | cons c r ih =>
    have hf := ih false
    have ht := ih true
    rw [skipTrivia]
    simp only [List.length_cons]
    split
    · omega
    · split
      · split
        · omega
        · simp
      · split
        · omega
        · split
          · omega
          · simp

theorem length_lt_of_skipTrivia {s r : List Char} {c : Char} (h : skipTrivia false s = c :: r) :
    r.length < s.length :=
  Text.length_lt_of_eq_cons h (length_skipTrivia_le false s)

/-- The text after the current line, on which nothing but a comment may be left. -/
def end? (s : List Char) : Option (List Char) :=
  let r := skipSpaces s
  match if r.head? = some '#' then (r.drop 1).dropWhile isPlain else r with
  | [] => some []
  | '\n' :: r | '\r' :: '\n' :: r => some r
  | _ => none

end Rulebook.Line
