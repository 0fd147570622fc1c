import Rulebook.Engine
import Rulebook.Proofs.Evaluation.Run

/-! # Equations for rules and engines

How the application of a rule and the execution of an id are put together: a rule without a
condition is its action, a rule with one runs the action only if the condition holds, and an id
with candidates is resolved through them.
-/

set_option autoImplicit false

namespace Rulebook

variable {World : Type} {host : Host World} {ctx : Context}

namespace Rule

theorem apply_of_none {r : Rule} (h : r.condition = none) :
    r.apply host ctx = r.action.evaluate host ctx >>= fun d => pure (some d) := by
  simp only [apply, h]
  rfl

theorem apply_of_some {r : Rule} {c : Condition} (h : r.condition = some c) :
    r.apply host ctx = c.evaluate host ctx >>= fun holds =>
      if holds then r.action.evaluate host ctx >>= fun d => pure (some d) else pure none := by
  simp only [apply, h]

/-- A rule passes because its condition was evaluated, to false, and does nothing else then. -/
theorem condition_of_pass {r : Rule} {w : World} (h : (r.apply host ctx w).result = .ok none) :
    ∃ c, r.condition = some c ∧ (c.evaluate host ctx w).result = .ok false ∧
      (r.apply host ctx w).invocations = (c.evaluate host ctx w).invocations ∧
        (r.apply host ctx w).world = (c.evaluate host ctx w).world := by
  cases hc : r.condition with
  | none =>
    rw [apply_of_none hc] at h
    obtain ⟨d, -, hd⟩ := Eval.bind_result_ok h
    cases hd
  | some c =>
    rw [apply_of_some hc] at h ⊢
    obtain ⟨holds, hholds, hnone⟩ := Eval.bind_result_ok h
    cases holds with
    | true =>
      obtain ⟨d, -, hd⟩ := Eval.bind_result_ok hnone
      cases hd
    | false =>
      refine ⟨c, rfl, hholds, ?_, ?_⟩
      · rw [Eval.bind_ok hholds]
        exact List.append_nil _
      · rw [Eval.bind_ok hholds]
        rfl

/-- A rule that does not pass goes on to its action, unless its condition fails. -/
theorem apply_of_ne_none {r : Rule} {c : Condition} (hc : r.condition = some c) {w : World}
    (h : (r.apply host ctx w).result ≠ .ok none) :
    r.apply host ctx w = (c.evaluate host ctx >>= fun _ =>
      r.action.evaluate host ctx >>= fun d => pure (some d)) w := by
  rw [apply_of_some hc] at h ⊢
  cases hholds : (c.evaluate host ctx w).result with
  | error e => rw [Eval.bind_error hholds, Eval.bind_error hholds]
  | ok holds =>
    cases holds with
    | true =>
      rw [Eval.bind_ok hholds, Eval.bind_ok hholds]
      rfl
    | false =>
      rw [Eval.bind_ok hholds] at h
      exact absurd rfl h

end Rule

namespace Engine

variable {engine : Engine} {id : String}

theorem execute_of_error {e : EvalError} (h : engine.ruleSet id = .error e) :
    engine.execute host ctx id = Eval.ofExcept (.error e) := by
  rw [execute, h]
  rfl

theorem execute_of_ok {set : RuleSet} (h : engine.ruleSet id = .ok set) :
    engine.execute host ctx id =
      set.resolve host ctx >>= fun value => pure (Outcome.ofOption value) := by
  rw [execute, h]
  rfl

theorem dependencies_of_ok {set : RuleSet} (h : engine.ruleSet id = .ok set) :
    engine.dependencies id = .ok set.references := by
  rw [dependencies, h]
  rfl

theorem candidates_of_ok {set : RuleSet} (h : engine.ruleSet id = .ok set) :
    engine.candidates id = .ok set.rules := by
  rw [candidates, h]
  rfl

theorem ruleSet_of_candidates {rules : List Rule} (h : engine.candidates id = .ok rules) :
    ∃ set, engine.ruleSet id = .ok set ∧ set.rules = rules := by
  cases hs : engine.ruleSet id with
  | error e =>
    rw [candidates, hs] at h
    cases h
  | ok set =>
    rw [candidates_of_ok hs] at h
    exact ⟨set, rfl, Except.ok.inj h⟩

theorem candidates_of_error {e : EvalError} (h : engine.ruleSet id = .error e) :
    engine.candidates id = .error e := by
  rw [candidates, h]
  rfl

end Engine

end Rulebook
