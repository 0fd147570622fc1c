import Rulebook.Keyed

/-! # Settings

A configuration document is a table of settings. Tables are filled line by line, and how a table
came to be decides who may still add to it: a table between braces is complete, a table under its
own section header grows only there, and so on.

* `Setting`: a value.
* `Table.add?`: a new entry; no key may stand twice in one table.
* `Table.update?`: a change to the table at the end of a path, by a rule of who may pass.
* `Table.openTable?`, `Table.openSection?`, `Table.assign?`: what the three kinds of line do.
-/

set_option autoImplicit false

namespace Rulebook

/-- How a table was written. -/
inductive Origin where
  /-- Under a section header of its own. -/
  | header
  /-- Only as part of a longer section header. -/
  | implied
  /-- Only as the front of a dotted key. -/
  | dotted
  /-- Between braces. -/
  | braced
deriving DecidableEq, Repr

inductive Setting where
  | text (value : String)
  | integer (value : Int)
  | bool (value : Bool)
  /-- A number that is not written as an integer. No setting takes one, so no value is kept. -/
  | fraction
  /-- A date or a time. No setting takes one, so no value is kept. -/
  | moment
  | array (items : List Setting)
  | table (origin : Origin) (entries : List (String × Setting))
  /-- The tables of all sections under one repeatable header, in their order. -/
  | sections (tables : List (List (String × Setting)))

abbrev Table := List (String × Setting)

namespace Table

def add? (key : String) (value : Setting) (entries : Table) : Option Table :=
  if Keyed.contains key entries then none else some (Keyed.insert key value entries)

/-- Whether a path may pass through a table that was written as `origin`. The path of a header
passes through all but complete tables. A dotted key passes through tables that dotted keys made,
and through those that headers imply as long as it does not end there. -/
def passes (path origin : Origin) (ends : Bool) : Bool :=
  match path with
  | .implied => origin != .braced
  | _ => origin == .dotted || (origin == .implied && !ends)

/-- Changes the table at the end of a path. Tables that are missing on the way are made in the
manner of the path; of repeated sections the last one counts. -/
def update? (manner : Origin) (change : Table → Option Table) : List String → Table → Option Table
  | [], entries => change entries
  | name :: path, entries =>
    match entries.lookup name with
    | none => do
      let inner ← update? manner change path []
      return Keyed.insert name (.table manner inner) entries
    | some (.table origin inner) =>
      if passes manner origin path.isEmpty then do
        let inner ← update? manner change path inner
        return Keyed.insert name (.table origin inner) entries
      else none
    | some (.sections tables) =>
      if manner = .dotted ∧ path.isEmpty then none
      else do
        let inner ← update? manner change path (← tables.getLast?)
        return Keyed.insert name (.sections (tables.dropLast ++ [inner])) entries
    | some _ => none

def assign? (path : List String) (key : String) (value : Setting) (entries : Table) :
    Option Table :=
  update? .dotted (add? key value) path entries

/-- Opens a section that stands once, after sections that it contains or before. -/
def openTable? (path : List String) (name : String) (entries : Table) : Option Table :=
  let enter (parent : Table) : Option Table :=
    match parent.lookup name with
    | none => some (Keyed.insert name (.table .header []) parent)
    | some (.table .implied inner) => some (Keyed.insert name (.table .header inner) parent)
    | some _ => none
  update? .implied enter path entries

def openSection? (path : List String) (name : String) (entries : Table) : Option Table :=
  let enter (parent : Table) : Option Table :=
    match parent.lookup name with
    | none => some (Keyed.insert name (.sections [[]]) parent)
    | some (.sections tables) => some (Keyed.insert name (.sections (tables ++ [[]])) parent)
    | some _ => none
  update? .implied enter path entries

end Table

end Rulebook
