/-! # The catalogue of data types

`DataType` lists the kinds of value that a node of an expression can produce.

* `accepts`: the assignability rule. Seven types accept only themselves; `genericObject` is the
  open slot and accepts every type.
* `name` and `snakeName`: the two spellings, for messages and for configuration documents.
* `rank`: the position in the catalogue, which orders references under one code.
-/

set_option autoImplicit false

namespace Rulebook

/-- The kind of value that a node of an expression can produce. -/
inductive DataType where
  | text
  | boolean
  | number
  | collection
  | structuredObject
  | rawObject
  | mapping
  | genericObject
deriving DecidableEq, Repr

namespace DataType

def all : List DataType :=
  [text, boolean, number, collection, structuredObject, rawObject, mapping, genericObject]

theorem mem_all (t : DataType) : t ∈ all := by
  cases t <;> decide

def rank : DataType → Nat
  | text => 0
  | boolean => 1
  | number => 2
  | collection => 3
  | structuredObject => 4
  | rawObject => 5
  | mapping => 6
  | genericObject => 7

theorem rank_inj {s t : DataType} : s.rank = t.rank ↔ s = t := by
  cases s <;> cases t <;> decide

/-- Whether a value known to have type `given` may be bound to a slot of type `slot`. -/
def accepts (slot given : DataType) : Bool :=
  slot == genericObject || slot == given

theorem accepts_iff {slot given : DataType} :
    slot.accepts given = true ↔ slot = genericObject ∨ slot = given := by
  simp [accepts]

@[simp] theorem accepts_self (t : DataType) : t.accepts t = true := by
  simp [accepts]

@[simp] theorem genericObject_accepts (t : DataType) : genericObject.accepts t = true := by
  simp [accepts]

/-- The spelling used in messages. -/
def name : DataType → String
  | text => "Text"
  | boolean => "Boolean"
  | number => "Number"
  | collection => "Collection"
  | structuredObject => "StructuredObject"
  | rawObject => "RawObject"
  | mapping => "Mapping"
  | genericObject => "GenericObject"

/-- The spelling used in configuration documents. -/
def snakeName : DataType → String
  | text => "text"
  | boolean => "boolean"
  | number => "number"
  | collection => "collection"
  | structuredObject => "structured_object"
  | rawObject => "raw_object"
  | mapping => "mapping"
  | genericObject => "generic_object"

/-- The data type whose name is `text` up to the case of ASCII letters. -/
def ofName? (text : String) : Option DataType :=
  all.find? fun t => t.name.toLower == text.toLower

def ofSnakeName? (text : String) : Option DataType :=
  all.find? fun t => t.snakeName == text

def unknownName (text : String) : String :=
  s!"unknown data type: {text}"

instance : ToString DataType := ⟨name⟩

end DataType

end Rulebook
