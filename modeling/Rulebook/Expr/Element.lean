import Rulebook.Context
import Rulebook.Text.Blank

/-! # Elements

An element refers to the context entry under its code and declares the type of the value there.
Code and type together are its identity: one code under two types is two elements.

* `Element.make`: refuses blank codes.
* `Element.before`: the order of references, by code and then by type.
* `Element.set`: the references of a list, each once and in that order.
-/

set_option autoImplicit false

namespace Rulebook

/-- A typed reference into the context. -/
structure Element where
  code : String
  dataType : DataType
  not_blank : Text.isBlank code = false
deriving DecidableEq

namespace Element

def make (dataType : DataType) (code : String) : Except EvalError Element :=
  if h : Text.isBlank code = false then .ok ⟨code, dataType, h⟩ else .error .invalidElement

def evaluate (e : Element) (ctx : Context) : Except EvalError Datum :=
  match ctx.get? e.code with
  | none => .error (.missingReference e.code)
  | some d =>
    if d.fits e.dataType then .ok d
    else .error (.typeMismatch e.code e.dataType d.dataType)

def display (e : Element) : String :=
  s!"{e.dataType} : $" ++ e.code

/-- Whether one element comes before another: by code, then by the rank of the type. -/
def before (a b : Element) : Bool :=
  a.code < b.code || (a.code == b.code && a.dataType.rank < b.dataType.rank)

def insert (e : Element) : List Element → List Element
  | [] => [e]
  | a :: rest =>
    if e.before a then e :: a :: rest
    else if e = a then a :: rest
    else a :: insert e rest

/-- The elements of a list, each once, in ascending order. -/
def set (elements : List Element) : List Element :=
  elements.foldl (fun acc e => insert e acc) []

end Element

end Rulebook
