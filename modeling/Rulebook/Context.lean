import Rulebook.Datum.Json
import Rulebook.Keyed

/-! # Contexts

A context holds the values that a caller supplies for one evaluation, each under a reference code.
Evaluation only reads it. The codes are kept in ascending order.
-/

set_option autoImplicit false

namespace Rulebook

/-- The values supplied for one evaluation, by code. -/
structure Context where
  entries : List (String × Datum) := []

namespace Context

instance : EmptyCollection Context := ⟨{}⟩

def WellFormed (ctx : Context) : Prop :=
  Keyed.Ordered ctx.entries

def get? (ctx : Context) (code : String) : Option Datum :=
  ctx.entries.lookup code

def insert (ctx : Context) (code : String) (value : Datum) : Context :=
  ⟨Keyed.insert code value ctx.entries⟩

def contains (ctx : Context) (code : String) : Bool :=
  (ctx.get? code).isSome

def size (ctx : Context) : Nat :=
  ctx.entries.length

def codes (ctx : Context) : List String :=
  Keyed.keys ctx.entries

/-- The context with one value for each field of a JSON object. -/
def ofJson (value : Json) : Except EvalError Context :=
  (Datum.entriesOfObject "context" value).map .mk

def equal (a b : Context) : Bool :=
  Datum.equalEntries a.entries b.entries

instance : BEq Context := ⟨equal⟩

@[simp] theorem get?_insert_self (ctx : Context) (code : String) (value : Datum) :
    (ctx.insert code value).get? code = some value := by
  simp [insert, get?]

theorem get?_insert_of_ne (ctx : Context) {code other : String} (h : other ≠ code)
    (value : Datum) : (ctx.insert code value).get? other = ctx.get? other :=
  Keyed.lookup_insert_of_ne h value ctx.entries

end Context

end Rulebook
