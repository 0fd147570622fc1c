import Rulebook.Function.Http

/-! # Engine configurations

A configuration says whether an engine starts with the built-in functions, and which functions
that fetch over HTTP it has.
-/

set_option autoImplicit false

namespace Rulebook

/-- What an engine is set up with. -/
structure EngineConfig where
  builtins : Bool := true
  http : List HttpFunction := []
deriving DecidableEq, Repr

namespace EngineConfig

def isDefault (config : EngineConfig) : Bool :=
  config == {}

def unreadable (path reason : String) : EvalError :=
  .config (.unreadable path reason)

end EngineConfig

end Rulebook
