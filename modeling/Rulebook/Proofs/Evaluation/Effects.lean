import Rulebook.Proofs.Evaluation.Checks
import Rulebook.Proofs.Evaluation.Steps

/-! # The effects of an evaluation

`Step.FailsWith` and `Step.Invokes` say once what each step can fail with and which invocation it
can make. Every failure and every invocation of an evaluation is that of one of its steps:
`Eval.Follows steps m`. Whatever is to be known about failures and invocations of trees, conditions,
rules and rule sets is then a case analysis on a single step.
-/

set_option autoImplicit false

namespace Rulebook

variable {World α : Type}

/-! ## Effects of one step -/

namespace Step

/-- The failures of a step. A check or a call meets data that the tree below it can yield. -/
inductive FailsWith (host : Host World) (ctx : Context) : Step → EvalError → Prop where
  | missingReference {reference : Element} :
      ctx.get? reference.code = none →
      FailsWith host ctx (.lookup reference) (.missingReference reference.code)
  | typeMismatch {reference : Element} {d : Datum} :
      ctx.get? reference.code = some d → d.fits reference.dataType = false →
      FailsWith host ctx (.lookup reference)
        (.typeMismatch reference.code reference.dataType d.dataType)
  | fieldMismatch {record : String} {f : Field Param} {content : Datum} {expected : DataType} :
      (f.node.materialize host ctx).Yields content → f.slot = .typed expected →
      content.fits expected = false →
      FailsWith host ctx (.check record f)
        (.fieldMismatch record f.name expected content.dataType)
  | parameterMismatch {call : Call} {argument : Datum} :
      (call.parameter.materialize host ctx).Yields argument →
      argument.fits (host.signature call.function).parameterType = false →
      FailsWith host ctx (.run call)
        (.parameterMismatch call.function.name (host.signature call.function).parameterType
          argument.dataType)
  | function {call : Call} {argument : Datum} {source : FunctionError} {w : World} :
      (call.parameter.materialize host ctx).Yields argument →
      (host.execute call.function argument w).1 = .error source →
      FailsWith host ctx (.run call) (.function call.function.name source)
  | resultMismatch {call : Call} {argument result : Datum} {t : DataType} {w : World} :
      (call.parameter.materialize host ctx).Yields argument →
      (host.execute call.function argument w).1 = .ok result →
      call.Promises host.toDeclarations t → result.fits t = false →
      FailsWith host ctx (.run call) (.resultMismatch call.function.name t result.dataType)
  | typeError {op : Operator} {left right : Datum} {fault : TypeFault} :
      op.apply left right = .error (.typeError fault) →
      FailsWith host ctx (.compare op) (.typeError fault)

/-- The invocations of a step: the function of a call runs over an argument of its parameter
type. -/
inductive Invokes (host : Host World) (ctx : Context) : Step → Invocation → Prop where
  | run {call : Call} {argument : Datum} :
      (call.parameter.materialize host ctx).Yields argument →
      argument.fits (host.signature call.function).parameterType = true →
      Invokes host ctx (.run call) ⟨call.function, argument⟩

theorem confined_self (host : Host World) (ctx : Context) (s : Step) :
    s.Confined host ctx (s.FailsWith host ctx) (s.Invokes host ctx) := by
  cases s with
  | lookup reference =>
    intro e he
    rcases Element.evaluate_eq_error.mp he with ⟨hnone, rfl⟩ | ⟨d, hsome, hfits, rfl⟩
    · exact .missingReference hnone
    · exact .typeMismatch hsome hfits
  | check record f =>
    intro content hcontent e he
    obtain ⟨expected, hslot, hfits, rfl⟩ := Field.entry_eq_error.mp he
    exact .fieldMismatch hcontent hslot hfits
  | run call =>
    intro argument hargument
    refine ⟨fun {w e} he => ?_, fun {w i} hi => ?_⟩
    · rcases Application.run_eq_error he with ⟨hfits, rfl⟩ | ⟨source, hsource, rfl⟩ |
        ⟨result, t, hresult, ht, hfits, rfl⟩
      · exact .parameterMismatch hargument hfits
      · exact .function hargument hsource
      · exact .resultMismatch hargument hresult ht hfits
    · rw [Application.run_invocations] at hi
      split at hi
      · next hfits =>
        cases List.mem_singleton.mp hi
        exact .run hargument hfits
      · cases hi
  | compare op =>
    intro left right e he
    obtain ⟨fault, rfl⟩ := Operator.apply_eq_error he
    exact .typeError he

end Step

/-! ## Effects of an evaluation -/

/-- Every failure and every invocation of the evaluation is that of one of these steps. -/
def Eval.Follows (host : Host World) (ctx : Context) (steps : List Step) (m : Eval World α) :
    Prop :=
  m.Confined (fun e => ∃ s ∈ steps, s.FailsWith host ctx e)
    (fun i => ∃ s ∈ steps, s.Invokes host ctx i)

variable {host : Host World} {ctx : Context}

theorem Step.confined_of_mem {steps : List Step} {s : Step} (hs : s ∈ steps) :
    s.Confined host ctx (fun e => ∃ s ∈ steps, s.FailsWith host ctx e)
      (fun i => ∃ s ∈ steps, s.Invokes host ctx i) :=
  (s.confined_self host ctx).mono (fun _ he => ⟨s, hs, he⟩) (fun _ hi => ⟨s, hs, hi⟩)

theorem Expr.evaluate_follows (v : Expr) : Eval.Follows host ctx v.steps (v.evaluate host ctx) :=
  evaluate_confined fun _ => Step.confined_of_mem

theorem Param.materialize_follows (p : Param) :
    Eval.Follows host ctx p.steps (p.materialize host ctx) :=
  materialize_confined fun _ => Step.confined_of_mem

theorem Condition.evaluate_follows (c : Condition) :
    Eval.Follows host ctx c.steps (c.evaluate host ctx) :=
  evaluate_confined fun _ => Step.confined_of_mem

theorem Rule.apply_follows (r : Rule) : Eval.Follows host ctx r.steps (r.apply host ctx) :=
  apply_confined fun _ => Step.confined_of_mem

theorem RuleSet.firstMatch_follows (rules : List Rule) :
    Eval.Follows host ctx (rules.flatMap Rule.steps) (firstMatch host ctx rules) :=
  firstMatch_confined fun _ hr _ hs => Step.confined_of_mem (List.mem_flatMap_of_mem hr hs)

theorem Engine.execute_follows {engine : Engine} {id : String} {set : RuleSet}
    (h : engine.ruleSet id = .ok set) :
    Eval.Follows host ctx (set.rules.flatMap Rule.steps) (engine.execute host ctx id) := by
  rw [execute_of_ok h]
  exact (RuleSet.firstMatch_follows set.rules).bind fun _ _ => .pure _

/-! ## Failures are evaluation failures -/

theorem Step.FailsWith.isConfiguration_eq_false {s : Step} {e : EvalError}
    (h : s.FailsWith host ctx e) : e.isConfiguration = false := by
  cases h with
  | missingReference => rfl
  | typeMismatch => rfl
  | fieldMismatch => rfl
  | parameterMismatch => rfl
  | function => rfl
  | resultMismatch => rfl
  | typeError => rfl

theorem Eval.Follows.isConfiguration_eq_false {steps : List Step} {m : Eval World α}
    (h : Follows host ctx steps m) {w : World} {e : EvalError} (he : (m w).result = .error e) :
    e.isConfiguration = false := by
  obtain ⟨s, -, hs⟩ := h.failure he
  exact hs.isConfiguration_eq_false

/-! ## Functions of calls -/

/-- The calls in a rule, in evaluation order. -/
def Rule.calls (r : Rule) : List Call :=
  r.steps.filterMap Step.call?

/-- The function that ran is that of one of the calls. -/
def Invocation.Among (calls : List Call) (i : Invocation) : Prop :=
  ∃ call ∈ calls, call.function = i.function

theorem Invocation.Among.mono {calls calls' : List Call} {i : Invocation} (h : i.Among calls)
    (hsub : calls ⊆ calls') : i.Among calls' := by
  obtain ⟨call, hc, hf⟩ := h
  exact ⟨call, hsub hc, hf⟩

theorem Eval.Follows.among {steps : List Step} {m : Eval World α} (h : Follows host ctx steps m)
    {w : World} {i : Invocation} (hi : i ∈ (m w).invocations) :
    i.Among (steps.filterMap Step.call?) := by
  obtain ⟨s, hs, hinvokes⟩ := h.invocation hi
  cases hinvokes with
  | @run call => exact ⟨call, Step.run_mem_iff.mp hs, rfl⟩

end Rulebook
