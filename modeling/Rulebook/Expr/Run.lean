import Rulebook.Function.Host

/-! # Runs

Evaluation calls functions, and functions may have state. A `Run` is what an evaluation leaves:
its result, the calls it made in order, and the world after them. Calls made before a failure are
part of it.

`Eval` is the type of evaluations, and its monad strings them together: the second one starts in
the world that the first one leaves, and only if that succeeded.
-/

set_option autoImplicit false

namespace Rulebook

/-- One run of a function's body, with the parameter it received. -/
structure Invocation where
  function : FunctionRef
  argument : Datum

/-- What an evaluation leaves. -/
structure Run (World α : Type) where
  result : Except EvalError α
  invocations : List Invocation
  world : World

def Eval (World α : Type) : Type :=
  World → Run World α

namespace Eval

variable {World α β : Type}

protected def pure (a : α) : Eval World α :=
  fun world => ⟨.ok a, [], world⟩

def ofExcept (r : Except EvalError α) : Eval World α :=
  fun world => ⟨r, [], world⟩

protected def bind (m : Eval World α) (f : α → Eval World β) : Eval World β :=
  fun world =>
    let first := m world
    match first.result with
    | .error e => ⟨.error e, first.invocations, first.world⟩
    | .ok a =>
      let second := f a first.world
      ⟨second.result, first.invocations ++ second.invocations, second.world⟩

instance : Monad (Eval World) where
  pure := Eval.pure
  bind := Eval.bind

/-- Runs the body of a function over an argument. A failure is reported under its name. -/
def invoke (host : Host World) (function : FunctionRef) (argument : Datum) : Eval World Datum :=
  fun world =>
    let outcome := host.execute function argument world
    ⟨outcome.1.mapError (.function function.name), [⟨function, argument⟩], outcome.2⟩

end Eval

end Rulebook
