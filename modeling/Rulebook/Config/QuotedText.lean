import Rulebook.Config.Line
import Rulebook.Json.Reader

/-! # Quoted values

Texts in configuration documents stand between double quotes, with escapes, or between single
quotes, without. With three quotes on each side a text may run over several lines; the line end
right after the opening quotes does not count, and up to two quotes may stand before the closing
ones.
-/

set_option autoImplicit false

namespace Rulebook.QuotedText

open Line (isPlain isSpace)
open Text (Rest)

def unescape? : Char → Option Char
  | '"' => some '"'
  | '\\' => some '\\'
  | 'b' => some '\x08'
  | 'f' => some '\x0c'
  | 'n' => some '\n'
  | 'r' => some '\r'
  | 't' => some '\t'
  | _ => none

def charOf? (code : Nat) : Option Char :=
  if code.isValidChar then some (Char.ofNat code) else none

def readEscape? : (s : List Char) → Option (Char × Rest s)
  | 'u' :: a :: b :: c :: d :: r => do
    let code ← Json.hexUnit? a b c d
    let letter ← charOf? code
    return (letter, .behind 'u' [a, b, c, d] r)
  | 'U' :: a :: b :: c :: d :: e :: f :: g :: h :: r => do
    let high ← Json.hexUnit? a b c d
    let low ← Json.hexUnit? e f g h
    let letter ← charOf? (high * 0x10000 + low)
    return (letter, .behind 'U' [a, b, c, d, e, f, g, h] r)
  | c :: r => do return (← unescape? c, .tail c r)
  | [] => none

def readBasic? : (s : List Char) → Option (List Char × Rest s)
  | [] => none
  | '"' :: r => some ([], .tail '"' r)
  | '\\' :: r => do
    let (c, rest) ← readEscape? r
    have := rest.shorter
    let (text, rest') ← readBasic? rest.text
    return (c :: text, (rest.andThen rest').after '\\')
  | c :: r =>
    if isPlain c then do
      let (text, rest) ← readBasic? r
      return (c :: text, rest.after c)
    else none
termination_by s => s.length

/-- The text from the next word on, if nothing but blanks stands before the end of the line. -/
def afterFold? (s : List Char) : Option (Rest s) :=
  match h : Line.skipSpaces s with
  | c :: r =>
    if Line.isEnd c r then
      some ⟨Line.skipGap r,
        Nat.lt_of_le_of_lt (Line.length_skipGap_le r) (Line.length_lt_of_skipSpaces h)⟩
    else none
  | [] => none

/-- Reads the rest of a text between three double quotes. A backslash at the end of a line joins it
to the next word. -/
def readLongBasic? : (s : List Char) → Option (List Char × Rest s)
  | [] => none
  | '"' :: '"' :: '"' :: '"' :: '"' :: r => some (['"', '"'], .behind '"' ['"', '"', '"', '"'] r)
  | '"' :: '"' :: '"' :: '"' :: r => some (['"'], .behind '"' ['"', '"', '"'] r)
  | '"' :: '"' :: '"' :: r => some ([], .behind '"' ['"', '"'] r)
  | '\\' :: r =>
    match afterFold? r with
    | some rest => do
      have := rest.shorter
      let (text, rest') ← readLongBasic? rest.text
      return (text, (rest.andThen rest').after '\\')
    | none => do
      let (c, rest) ← readEscape? r
      have := rest.shorter
      let (text, rest') ← readLongBasic? rest.text
      return (c :: text, (rest.andThen rest').after '\\')
  | '\r' :: '\n' :: r => do
    let (text, rest) ← readLongBasic? r
    return ('\n' :: text, (rest.after '\n').after '\r')
  | c :: r =>
    if isPlain c ∨ c = '\n' then do
      let (text, rest) ← readLongBasic? r
      return (c :: text, rest.after c)
    else none
termination_by s => s.length

def readLiteral? : (s : List Char) → Option (List Char × Rest s)
  | [] => none
  | '\'' :: r => some ([], .tail '\'' r)
  | c :: r =>
    if isPlain c then do
      let (text, rest) ← readLiteral? r
      return (c :: text, rest.after c)
    else none

def readLongLiteral? : (s : List Char) → Option (List Char × Rest s)
  | [] => none
  | '\'' :: '\'' :: '\'' :: '\'' :: '\'' :: r =>
    some (['\'', '\''], .behind '\'' ['\'', '\'', '\'', '\''] r)
  | '\'' :: '\'' :: '\'' :: '\'' :: r => some (['\''], .behind '\'' ['\'', '\'', '\''] r)
  | '\'' :: '\'' :: '\'' :: r => some ([], .behind '\'' ['\'', '\''] r)
  | '\r' :: '\n' :: r => do
    let (text, rest) ← readLongLiteral? r
    return ('\n' :: text, (rest.after '\n').after '\r')
  | c :: r =>
    if isPlain c ∨ c = '\n' then do
      let (text, rest) ← readLongLiteral? r
      return (c :: text, rest.after c)
    else none

/-- Reads a text of several lines by `body`, after its opening quotes `a b c`. -/
def afterLineEnd? (body : (s : List Char) → Option (List Char × Rest s)) (a b c : Char) :
    (s : List Char) → Option (List Char × Rest (a :: b :: c :: s))
  | '\r' :: '\n' :: r =>
    (body r).map fun t => (t.1, ((((t.2.after '\n').after '\r').after c).after b).after a)
  | '\n' :: r => (body r).map fun t => (t.1, (((t.2.after '\n').after c).after b).after a)
  | r => (body r).map fun t => (t.1, ((t.2.after c).after b).after a)

def readShort? : (s : List Char) → Option (List Char × Rest s)
  | '"' :: r => (readBasic? r).map fun t => (t.1, t.2.after '"')
  | '\'' :: r => (readLiteral? r).map fun t => (t.1, t.2.after '\'')
  | _ => none

def read? : (s : List Char) → Option (List Char × Rest s)
  | '"' :: '"' :: '"' :: r => afterLineEnd? readLongBasic? '"' '"' '"' r
  | '\'' :: '\'' :: '\'' :: r => afterLineEnd? readLongLiteral? '\'' '\'' '\'' r
  | s => readShort? s

end Rulebook.QuotedText
