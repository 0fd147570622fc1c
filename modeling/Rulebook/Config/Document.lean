import Rulebook.Config.Literal
import Rulebook.Config.QuotedText

/-! # Configuration documents

A document consists of lines. A line `key = value` enters a setting into the current section, a line
`[name]` opens a section, and a line `[[name]]` opens the next of the sections under one header.
Keys and headers may be paths of names between points. Values are texts, numbers, truth values,
moments, arrays over any number of lines and tables between braces on one line.

`Document.parse?` reads a whole text. Paths and nested values are bounded by `Document.limit`.
-/

set_option autoImplicit false

namespace Rulebook.Document

open Line (skipSpaces length_lt_of_skipSpaces skipTrivia length_lt_of_skipTrivia)
open Text (Rest)

/-- Values nest less deep than this, and paths are shorter. -/
def limit : Nat := 80

/-! ## Keys -/

def isBare (c : Char) : Bool :=
  c.isAlphanum || c == '_' || c == '-'

def readName? (s : List Char) : Option (String × Rest s) :=
  match s with
  | c :: r =>
    if isBare c then
      some (String.ofList (c :: r.takeWhile isBare), (Rest.tail c r).skip isBare)
    else (QuotedText.readShort? (c :: r)).map fun t => (String.ofList t.1, t.2)
  | [] => none

def readNames? (s : List Char) : Option (List String × Rest s) :=
  match h : skipSpaces s with
  | [] => none
  | c :: r => do
    have hr : r.length < s.length := length_lt_of_skipSpaces h
    let (name, rest) ← readName? (c :: r)
    have hs : rest.text.length < s.length := Nat.lt_of_lt_of_le rest.shorter hr
    match h' : skipSpaces rest.text with
    | '.' :: r' =>
      have hr' : r'.length < s.length := Nat.lt_trans (length_lt_of_skipSpaces h') hs
      let (names, rest') ← readNames? r'
      return (name :: names, rest'.within hr')
    | _ => return ([name], Rest.skip Line.isSpace ⟨rest.text, hs⟩)
termination_by s.length

/-- Reads a path: the names before the last one, and the last one. -/
def readPath? (s : List Char) : Option ((List String × String) × Rest s) := do
  let (names, rest) ← readNames? s
  if names.length < limit then return ((names.dropLast, ← names.getLast?), rest) else none

/-! ## Values -/

def readScalar? (s : List Char) : Option (Setting × Rest s) :=
  if s.head? = some '"' ∨ s.head? = some '\'' then
    (QuotedText.read? s).map fun t => (.text (String.ofList t.1), t.2)
  else do
    let (value, rest) ← Literal.read? s
    return (value, ← Rest.of? s rest)

mutual

/-- Reads a value in which at most `room` further ones are nested. -/
def readSetting? (room : Nat) (s : List Char) : Option (Setting × Rest s) :=
  match s with
  | '[' :: r => do
    let (items, rest) ← if room = 0 then none else readItems? (room - 1) r
    return (.array items, rest.after '[')
  | '\x7b' :: r => do
    let (entries, rest) ← if room = 0 then none else readEntries? (room - 1) [] r
    return (.table .braced entries, rest.after '\x7b')
  | first => readScalar? first
termination_by 2 * s.length

/-- Reads the items of an array up to its closing bracket; a comma may follow the last one. -/
def readItems? (room : Nat) (s : List Char) : Option (List Setting × Rest s) :=
  match h : skipTrivia false s with
  | [] => none
  | c :: r =>
    have hr : r.length < s.length := length_lt_of_skipTrivia h
    if c = ']' then some ([], ⟨r, hr⟩)
    else do
      let (value, rest) ← readSetting? room (c :: r)
      have hs : rest.text.length < s.length := Nat.lt_of_lt_of_le rest.shorter hr
      match h' : skipTrivia false rest.text with
      | ']' :: r' => some ([value], ⟨r', Nat.lt_trans (length_lt_of_skipTrivia h') hs⟩)
      | ',' :: r' =>
        have hr' : r'.length < s.length := Nat.lt_trans (length_lt_of_skipTrivia h') hs
        let (values, rest') ← readItems? room r'
        return (value :: values, rest'.within hr')
      | _ => none
termination_by 2 * s.length + 1

/-- Reads the entries of a table up to its closing brace, in addition to those `before`. -/
def readEntries? (room : Nat) (before : Table) (s : List Char) : Option (Table × Rest s) :=
  match h : skipSpaces s with
  | [] => none
  | c :: r =>
    have hr : r.length < s.length := length_lt_of_skipSpaces h
    if c = '\x7d' then if before.isEmpty then some ([], ⟨r, hr⟩) else none
    else do
      let ((path, key), afterKey) ← readPath? (c :: r)
      have hk : afterKey.text.length < s.length := Nat.lt_of_lt_of_le afterKey.shorter hr
      match hv : skipSpaces afterKey.text with
      | '=' :: assigned =>
        have ha : assigned.length < s.length := Nat.lt_trans (length_lt_of_skipSpaces hv) hk
        have hw : (skipSpaces assigned).length < s.length :=
          Nat.lt_of_le_of_lt (Text.length_dropWhile_le Line.isSpace assigned) ha
        let (value, rest) ← readSetting? room (skipSpaces assigned)
        let entries ← Table.assign? path key value before
        have hs : rest.text.length < s.length := Nat.lt_trans rest.shorter hw
        match h' : skipSpaces rest.text with
        | '\x7d' :: r' => some (entries, ⟨r', Nat.lt_trans (length_lt_of_skipSpaces h') hs⟩)
        | ',' :: r' =>
          have hr' : r'.length < s.length := Nat.lt_trans (length_lt_of_skipSpaces h') hs
          let (all, rest') ← readEntries? room entries r'
          return (all, rest'.within hr')
        | _ => none
      | _ => none
termination_by 2 * s.length + 1

end

/-! ## Lines -/

def readHeader? (closing s : List Char) : Option ((List String × String) × List Char) := do
  let (path, rest) ← readPath? s
  return (path, ← Line.end? (← Json.after? closing rest.text))

def readAssignment? (s : List Char) :
    Option ((List String × String) × Setting × List Char) := do
  let (path, rest) ← readPath? s
  match rest.text with
  | '=' :: r =>
    let (value, rest') ← readSetting? (limit - 1) (skipSpaces r)
    return (path, value, ← Line.end? rest'.text)
  | _ => none

/-- Reads lines into a document; `current` is the path of the section that they belong to. -/
def readLines? (current : List String) (document : Table) (s : List Char) : Option Table :=
  match skipTrivia false s with
  | [] => some document
  | '[' :: '[' :: r => do
    let ((path, name), rest) ← readHeader? [']', ']'] r
    let document ← Table.openSection? path name document
    let rest ← Rest.of? s rest
    have := rest.shorter
    readLines? (path ++ [name]) document rest.text
  | '[' :: r => do
    let ((path, name), rest) ← readHeader? [']'] r
    let document ← Table.openTable? path name document
    let rest ← Rest.of? s rest
    have := rest.shorter
    readLines? (path ++ [name]) document rest.text
  | line => do
    let ((path, key), value, rest) ← readAssignment? line
    let document ← Table.update? .implied (Table.assign? path key value) current document
    let rest ← Rest.of? s rest
    have := rest.shorter
    readLines? current document rest.text
termination_by s.length

/-- The settings that a text describes. A byte order mark in front of it is skipped. -/
def parse? (text : String) : Option Table :=
  match text.toList with
  | '\ufeff' :: s => readLines? [] [] s
  | s => readLines? [] [] s

end Rulebook.Document
