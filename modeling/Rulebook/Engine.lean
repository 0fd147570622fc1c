import Rulebook.Config.Basic
import Rulebook.Expr.Build
import Rulebook.RuleSet

/-! # The engine

An engine joins a registry of functions with rules grouped by id. Rules are numbered across all ids
in the order in which they are accepted.

* `addRule`: puts a rule among the candidates of its id. `addRuleInPlace` does so step by step on an
  engine that is changed in place.
* `execute`: tries the candidates of an id against a context.
* `dependencies`, `missingReferences`: what the candidates of an id need from a context.
-/

set_option autoImplicit false

namespace Rulebook

inductive Outcome where
  /-- The value of the first rule whose condition held. -/
  | matched (value : Datum)
  /-- Every condition was false and there is no fallback. -/
  | noMatch

namespace Outcome

def isMatch : Outcome → Bool
  | matched _ => true
  | noMatch => false

def value? : Outcome → Option Datum
  | matched d => some d
  | noMatch => none

def ofOption : Option Datum → Outcome
  | some d => matched d
  | none => noMatch

end Outcome

/-- Functions, and rules by id. -/
structure Engine where
  registry : Registry := Registry.withBuiltins
  rules : List (String × RuleSet) := []
  nextSequence : Nat := 0

namespace Engine

/-- The engine that a configuration describes: the built-in functions first, then the configured
ones in their order. -/
def ofConfig (config : EngineConfig) : Except EvalError Engine := do
  let builtins := if config.builtins then Registry.withBuiltins else ∅
  let registry ← config.http.foldlM (fun r f => r.register (.http f)) builtins
  return { registry }

/-- The same where there is no support for HTTP: the first configured function is refused. -/
def ofConfigWithoutHttp (config : EngineConfig) : Except EvalError Engine :=
  match config.http with
  | [] => .ok { registry := if config.builtins then Registry.withBuiltins else ∅ }
  | f :: _ => .error (.config (.httpDisabled f.name))

def registerFunction (engine : Engine) (f : FunctionRef) : Except EvalError Engine := do
  let registry ← engine.registry.register f
  return { engine with registry }

def ruleSet (engine : Engine) (id : String) : Except EvalError RuleSet :=
  match engine.rules.lookup id with
  | some set => .ok set
  | none => .error (.unknownRule id)

def addRule (engine : Engine) (rule : Rule) : Except EvalError Engine := do
  let set ← ((engine.rules.lookup rule.id).getD ∅).insert engine.nextSequence rule
  return { engine with
    rules := Keyed.insert rule.id set engine.rules
    nextSequence := engine.nextSequence + 1 }

/-- Adds a rule to an engine that is changed in place: the entry of the id is opened, the rule is
inserted there, and the counter goes up last. What is left of the engine is given also when the
insertion fails. -/
def addRuleInPlace (engine : Engine) (rule : Rule) : Except EvalError Unit × Engine :=
  let set := (engine.rules.lookup rule.id).getD ∅
  let opened : Engine := { engine with rules := Keyed.insert rule.id set engine.rules }
  match set.insert engine.nextSequence rule with
  | .error e => (.error e, opened)
  | .ok set =>
    (.ok (), { opened with
      rules := Keyed.insert rule.id set opened.rules
      nextSequence := engine.nextSequence + 1 })

def execute {World : Type} (host : Host World) (ctx : Context) (engine : Engine) (id : String) :
    Eval World Outcome := do
  let set ← Eval.ofExcept (engine.ruleSet id)
  let value ← set.resolve host ctx
  return .ofOption value

def dependencies (engine : Engine) (id : String) : Except EvalError (List Element) := do
  let set ← engine.ruleSet id
  return set.references

/-- Of these, the ones whose codes the context does not supply. -/
def missingReferences (engine : Engine) (id : String) (ctx : Context) :
    Except EvalError (List Element) := do
  let elements ← engine.dependencies id
  return elements.filter fun e => !ctx.contains e.code

def candidates (engine : Engine) (id : String) : Except EvalError (List Rule) := do
  let set ← engine.ruleSet id
  return set.rules

def ruleIds (engine : Engine) : List String :=
  Keyed.keys engine.rules

end Engine

end Rulebook
