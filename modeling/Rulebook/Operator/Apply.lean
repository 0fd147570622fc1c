import Rulebook.Datum.Json
import Rulebook.Keyed

/-! # Applying operators

`Operator.apply` compares two data. Raw JSON scalars count as native ones through the numeric and
the text view.

* Equality is defined for all data: by value for two numbers, by content for two texts, by JSON
  value where raw JSON takes part otherwise, and as data in every other case.
* The orderings need two numbers.
* `contains` looks for an item of a list, a key of a map or record, or a part of a text.
* `startsWith` and `endsWith` need two texts.
-/

set_option autoImplicit false

namespace Rulebook

/-- Equality as operators see it. -/
def Datum.matches (left right : Datum) : Bool :=
  match left.asNumber?, right.asNumber? with
  | some l, some r => l.equal r
  | _, _ =>
    match left.asText?, right.asText? with
    | some l, some r => l == r
    | _, _ =>
      match left, right with
      | .json _, _ | _, .json _ => left.toJson.equal right.toJson
      | _, _ => left.equal right

def Text.isPartOf (part : List Char) : List Char → Bool
  | [] => part.isEmpty
  | c :: rest => part.isPrefixOf (c :: rest) || isPartOf part rest

theorem Text.isPartOf_iff {part whole : List Char} :
    isPartOf part whole = true ↔ part <:+: whole := by
  induction whole with
  | nil => simp [isPartOf]
  | cons c rest ih => simp [isPartOf, ih, List.infix_cons_iff]

namespace Operator

def operand (op : Operator) (d : Datum) : Except EvalError Decimal :=
  match d.asNumber? with
  | some n => .ok n
  | none => .error (.typeError (.numberRequired op d.dataType))

def compareDecimals (op : Operator) (l r : Decimal) : Except EvalError Bool :=
  match op with
  | eq => .ok (l.equal r)
  | ne => .ok (!l.equal r)
  | lt => .ok (l.lt r)
  | le => .ok (l.le r)
  | gt => .ok (r.lt l)
  | ge => .ok (r.le l)
  | _ => .error (.typeError (.notNumeric op))

def compareNumbers (op : Operator) (left right : Datum) : Except EvalError Bool := do
  let l ← op.operand left
  let r ← op.operand right
  op.compareDecimals l r

/-- Whether `needle` is found in `haystack`; `op` is the operator that asks. -/
def search (op : Operator) (haystack needle : Datum) : Except EvalError Bool :=
  let isKey {α : Type} (entries : List (String × α)) : Bool :=
    match needle.asText? with
    | some key => Keyed.contains key entries
    | none => false
  let isPart (whole : String) : Bool :=
    match needle.asText? with
    | some part => Text.isPartOf part.toList whole.toList
    | none => false
  match haystack with
  | .list items => .ok (items.any fun item => item.matches needle)
  | .map entries => .ok (isKey entries)
  | .record _ fields => .ok (isKey fields)
  | .text whole | .json (.str whole) => .ok (isPart whole)
  | .json (.arr items) => .ok (items.any fun item => (Datum.json item).matches needle)
  | .json (.obj fields) => .ok (isKey fields)
  | _ => .error (.typeError (.notSearchable op haystack.dataType))

def texts (op : Operator) (left right : Datum) : Except EvalError (String × String) :=
  match left.asText?, right.asText? with
  | some l, some r => .ok (l, r)
  | _, _ => .error (.typeError (.textRequired op left.dataType right.dataType))

def apply (op : Operator) (left right : Datum) : Except EvalError Bool :=
  match op with
  | eq => .ok (left.matches right)
  | ne => .ok (!left.matches right)
  | lt | le | gt | ge => op.compareNumbers left right
  | contains => op.search left right
  | notContains => (op.search left right).map (!·)
  | startsWith => (op.texts left right).map fun (l, r) => r.toList.isPrefixOf l.toList
  | endsWith => (op.texts left right).map fun (l, r) => r.toList.isSuffixOf l.toList

end Operator

end Rulebook
