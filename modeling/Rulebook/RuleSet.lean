import Rulebook.Rule

/-! # Rule sets

A rule set holds the rules under one id, in the order in which they are tried: by ascending
weight, a fallback after all rules of its weight, and otherwise as they were registered. The first
rule whose condition holds supplies the result.
-/

set_option autoImplicit false

namespace Rulebook

/-- A rule with the number of its registration. -/
structure Candidate where
  sequence : Nat
  rule : Rule

/-- Whether candidate `a` may stand before `b`: by weight, conditions before fallbacks, then by
sequence. -/
def Candidate.le (a b : Candidate) : Bool :=
  a.rule.weight < b.rule.weight ||
    (a.rule.weight == b.rule.weight &&
      (a.rule.isFallback < b.rule.isFallback ||
        (a.rule.isFallback == b.rule.isFallback && a.sequence ≤ b.sequence)))

structure RuleSet where
  candidates : List Candidate := []

namespace RuleSet

instance : EmptyCollection RuleSet := ⟨{}⟩

def rules (set : RuleSet) : List Rule :=
  set.candidates.map (·.rule)

def size (set : RuleSet) : Nat :=
  set.candidates.length

def hasFallback (set : RuleSet) : Bool :=
  set.rules.any Rule.isFallback

/-- Adds a rule after all candidates that may stand before it. A second fallback is refused. -/
def insert (set : RuleSet) (sequence : Nat) (rule : Rule) : Except EvalError RuleSet :=
  if rule.isFallback && set.hasFallback then .error (.duplicateFallback rule.id)
  else
    let new : Candidate := ⟨sequence, rule⟩
    let earlier (c : Candidate) : Bool := c.le new
    .ok ⟨set.candidates.takeWhile earlier ++ new :: set.candidates.dropWhile earlier⟩

def firstMatch {World : Type} (host : Host World) (ctx : Context) :
    List Rule → Eval World (Option Datum)
  | [] => pure none
  | r :: rest => do
    match ← r.apply host ctx with
    | some value => return some value
    | none => firstMatch host ctx rest

def resolve {World : Type} (host : Host World) (ctx : Context) (set : RuleSet) :
    Eval World (Option Datum) :=
  firstMatch host ctx set.rules

def references (set : RuleSet) : List Element :=
  Element.set (set.rules.flatMap Rule.elements)

end RuleSet

end Rulebook
