import Rulebook.Json.Basic
import Rulebook.Keyed
import Rulebook.Text.Rest

/-! # Reading JSON texts

`Json.parse?` reads a whole text. An integer literal of at most 64 bits, other than `-0`, is an
integer; any other number is the nearest double. Of several fields under one key the last one
counts.

Each step returns what is left of its input as a `Text.Rest`, which is why the recursion ends.
-/

set_option autoImplicit false

namespace Rulebook.Json

open Text (Rest)

def skipBlanks (s : List Char) : List Char :=
  s.dropWhile fun c => c == ' ' || c == '\n' || c == '\r' || c == '\t'

theorem length_lt_of_skipBlanks {s r : List Char} {c : Char} (h : skipBlanks s = c :: r) :
    r.length < s.length :=
  Text.length_lt_of_dropWhile h

def hexDigit? (c : Char) : Option Nat :=
  if c.isDigit then some (c.toNat - '0'.toNat)
  else if 'a' ≤ c ∧ c ≤ 'f' then some (c.toNat - 'a'.toNat + 10)
  else if 'A' ≤ c ∧ c ≤ 'F' then some (c.toNat - 'A'.toNat + 10)
  else none

def hexUnit? (a b c d : Char) : Option Nat := do
  return (((← hexDigit? a) * 16 + (← hexDigit? b)) * 16 + (← hexDigit? c)) * 16 + (← hexDigit? d)

def unescape? : Char → Option Char
  | '"' => some '"'
  | '\\' => some '\\'
  | '/' => some '/'
  | 'b' => some '\x08'
  | 'f' => some '\x0c'
  | 'n' => some '\n'
  | 'r' => some '\r'
  | 't' => some '\t'
  | _ => none

/-- Reads the second escape of a character that takes two. -/
def readLowHalf? : (s : List Char) → Option (Nat × Rest s)
  | '\\' :: 'u' :: a :: b :: c :: d :: r => do
    let unit ← hexUnit? a b c d
    if 0xDC00 ≤ unit ∧ unit < 0xE000 then
      return (unit, .behind '\\' ['u', a, b, c, d] r)
    else none
  | _ => none

/-- Reads what follows a backslash. Characters beyond the basic plane take two escapes. -/
def readEscape? : (s : List Char) → Option (Char × Rest s)
  | 'u' :: a :: b :: c :: d :: r => do
    let unit ← hexUnit? a b c d
    if 0xD800 ≤ unit ∧ unit < 0xDC00 then
      let (low, rest) ← readLowHalf? r
      return (Char.ofNat (0x10000 + (unit - 0xD800) * 0x400 + (low - 0xDC00)),
        rest.within (Rest.behind 'u' [a, b, c, d] r).shorter)
    else if 0xDC00 ≤ unit ∧ unit < 0xE000 then none
    else return (Char.ofNat unit, .behind 'u' [a, b, c, d] r)
  | c :: r => do return (← unescape? c, .tail c r)
  | [] => none

def readQuoted? : (s : List Char) → Option (List Char × Rest s)
  | [] => none
  | '"' :: r => some ([], .tail '"' r)
  | '\\' :: r => do
    let (c, rest) ← readEscape? r
    have := rest.shorter
    let (text, rest') ← readQuoted? rest.text
    return (c :: text, (rest'.within rest.shorter).after '\\')
  | c :: r =>
    if c.toNat < 0x20 then none
    else do
      let (text, rest) ← readQuoted? r
      return (c :: text, rest.after c)
termination_by s => s.length

def digitsValue (digits : List Char) : Nat :=
  digits.foldl (fun n c => 10 * n + (c.toNat - '0'.toNat)) 0

/-- The number whose sign, digits before and after the point, and exponent are given; `plain` if
neither point nor exponent were written. -/
def numberOf? (negative : Bool) (whole fraction : List Char) (power : Int) (plain : Bool) :
    Option JsonNumber :=
  let digits := digitsValue (whole ++ fraction)
  let value : Int := if negative then -(digits : Int) else digits
  let rounded := Double.ofScientific? negative digits (power - fraction.length)
  if plain ∧ ¬(negative = true ∧ digits = 0) then
    match JsonNumber.ofInt? value with
    | some n => some n
    | none => rounded.map .float
  else rounded.map .float

/-- Reads the exponent of a number, if one stands here: its value and what follows it. -/
def readExponent? : List Char → Option (Option Int × List Char)
  | c :: r =>
    if c = 'e' ∨ c = 'E' then
      let negative := r.head? == some '-'
      let unsigned := if negative || r.head? == some '+' then r.drop 1 else r
      let digits := unsigned.takeWhile Char.isDigit
      if digits.isEmpty then none
      else
        let value : Int := digitsValue digits
        some (some (if negative then -value else value), unsigned.dropWhile Char.isDigit)
    else some (none, c :: r)
  | [] => some (none, [])

def readNumber? (s : List Char) : Option (JsonNumber × List Char) := do
  let negative := s.head? == some '-'
  let unsigned := if negative then s.drop 1 else s
  let whole := unsigned.takeWhile Char.isDigit
  if whole.isEmpty ∨ (whole.head? = some '0' ∧ whole.length ≠ 1) then none
  else
    let afterWhole := unsigned.dropWhile Char.isDigit
    let pointed := afterWhole.head? == some '.'
    let fraction := if pointed then (afterWhole.drop 1).takeWhile Char.isDigit else []
    if pointed ∧ fraction.isEmpty then none
    else
      let afterFraction :=
        if pointed then (afterWhole.drop 1).dropWhile Char.isDigit else afterWhole
      let (power, rest) ← readExponent? afterFraction
      let number ← numberOf? negative whole fraction (power.getD 0) (!pointed && power.isNone)
      return (number, rest)

/-- What follows `word`, if the text starts with it. -/
def after? (word s : List Char) : Option (List Char) :=
  if word.isPrefixOf s then some (s.drop word.length) else none

def readScalar? (s : List Char) : Option (Json × List Char) :=
  match s with
  | 't' :: r => (after? ['r', 'u', 'e'] r).map (.bool true, ·)
  | 'f' :: r => (after? ['a', 'l', 's', 'e'] r).map (.bool false, ·)
  | 'n' :: r => (after? ['u', 'l', 'l'] r).map (.null, ·)
  | _ => (readNumber? s).map fun n => (.num n.1, n.2)

mutual

def readValue? (s : List Char) : Option (Json × Rest s) :=
  match h : skipBlanks s with
  | [] => none
  | c :: r =>
    have hr : r.length < s.length := length_lt_of_skipBlanks h
    if c = '"' then do
      let (text, rest) ← readQuoted? r
      return (.str (String.ofList text), rest.within hr)
    else if c = '[' then
      match h' : skipBlanks r with
      | ']' :: r' => some (.arr [], ⟨r', Nat.lt_trans (length_lt_of_skipBlanks h') hr⟩)
      | _ => do
        let (items, rest) ← readItems? r
        return (.arr items, rest.within hr)
    else if c = '\x7b' then
      match h' : skipBlanks r with
      | '\x7d' :: r' => some (.obj [], ⟨r', Nat.lt_trans (length_lt_of_skipBlanks h') hr⟩)
      | _ => do
        let (fields, rest) ← readFields? r
        return (.obj (Keyed.ofList fields), rest.within hr)
    else do
      let (value, rest) ← readScalar? (c :: r)
      return (value, ← Rest.of? s rest)
termination_by (s.length, 0)

def readItems? (s : List Char) : Option (List Json × Rest s) := do
  let (value, rest) ← readValue? s
  match h : skipBlanks rest.text with
  | ']' :: r => some ([value], ⟨r, Nat.lt_trans (length_lt_of_skipBlanks h) rest.shorter⟩)
  | ',' :: r =>
    have hr : r.length < s.length := Nat.lt_trans (length_lt_of_skipBlanks h) rest.shorter
    let (values, rest') ← readItems? r
    return (value :: values, rest'.within hr)
  | _ => none
termination_by (s.length, 1)

def readFields? (s : List Char) : Option (List (String × Json) × Rest s) :=
  match h : skipBlanks s with
  | '"' :: r => do
    have hr : r.length < s.length := length_lt_of_skipBlanks h
    let (key, rest) ← readQuoted? r
    match h' : skipBlanks rest.text with
    | ':' :: r' =>
      have hr' : r'.length < s.length :=
        Nat.lt_trans (length_lt_of_skipBlanks h') (Nat.lt_trans rest.shorter hr)
      let (value, rest') ← readValue? r'
      match h'' : skipBlanks rest'.text with
      | '\x7d' :: r'' => some ([(String.ofList key, value)],
          ⟨r'', Nat.lt_trans (length_lt_of_skipBlanks h'') (Nat.lt_trans rest'.shorter hr')⟩)
      | ',' :: r'' =>
        have hr'' : r''.length < s.length :=
          Nat.lt_trans (length_lt_of_skipBlanks h'') (Nat.lt_trans rest'.shorter hr')
        let (fields, rest'') ← readFields? r''
        return ((String.ofList key, value) :: fields, rest''.within hr'')
      | _ => none
    | _ => none
  | _ => none
termination_by (s.length, 1)

end

/-- The value that a whole text stands for. -/
def parse? (text : String) : Option Json := do
  let (value, rest) ← readValue? text.toList
  if (skipBlanks rest.text).isEmpty then some value else none

end Rulebook.Json
