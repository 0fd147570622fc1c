import Rulebook.Function.Http
import Rulebook.Function.Property

/-! # Functions and their host

Trees and registries hold functions by reference. A `FunctionRef` is the property reader, a
configured fetch, or the place of a function that the host supplies.

* `Declarations`: the types that the host declares for its functions at one time. A host may
  declare others later, also for functions that trees already refer to.
* `Host`: declarations together with behaviour. Functions may have state, so running one takes a
  `World` to a new one.
-/

set_option autoImplicit false

namespace Rulebook

structure Signature where
  parameterType : DataType
  resultType : DataType
deriving DecidableEq, Repr

/-- One logical input of a function, for people who look it up. -/
structure Parameter where
  name : String
  dataType : DataType
deriving DecidableEq, Repr

/-- A function, by what it refers to. -/
inductive FunctionRef where
  | property
  | http (function : HttpFunction)
  /-- The host's function number `index`. -/
  | hosted (name : String) (index : Nat)
deriving DecidableEq, Repr

def FunctionRef.name : FunctionRef → String
  | property => Property.functionName
  | http function => function.name
  | hosted name _ => name

/-- What the host says of its functions, by number. -/
structure Declarations where
  hostedSignature : Nat → Signature
  hostedParameters : Nat → List Parameter := fun _ => []

namespace Declarations

def signature (decl : Declarations) : FunctionRef → Signature
  | .property => ⟨.mapping, .genericObject⟩
  | .http function => ⟨.mapping, function.resultType⟩
  | .hosted _ index => decl.hostedSignature index

def parameters (decl : Declarations) : FunctionRef → List Parameter
  | .property => [⟨"object", .genericObject⟩, ⟨"field", .text⟩]
  | .http _ => [⟨"query", .mapping⟩]
  | .hosted _ index => decl.hostedParameters index

end Declarations

/-- The party that supplies functions and makes requests. -/
structure Host (World : Type) extends Declarations where
  /-- Runs the function with this number. -/
  run : Nat → Datum → World → Except FunctionError Datum × World
  /-- Makes a request with these query pairs: the JSON body of the response, or why there is
  none. -/
  fetch : HttpFunction → List (String × String) → World → Except String Json × World

def Host.execute {World : Type} (host : Host World) (function : FunctionRef) (parameter : Datum)
    (world : World) : Except FunctionError Datum × World :=
  match function with
  | .property => (Property.read parameter, world)
  | .hosted _ index => host.run index parameter world
  | .http source =>
    match HttpFunction.queryPairs parameter with
    | .error e => (.error e, world)
    | .ok pairs =>
      match host.fetch source pairs world with
      | (.error reason, world) => (.error (.failed reason), world)
      | (.ok body, world) => (source.decode body, world)

end Rulebook
