import Rulebook.Proofs.Evaluation.CallOrder

/-! # How a failure of a function is reported

Evaluations are put together from values, from failures that no function raised and from runs of
functions, by binds alone (`Eval.Composed`). Nothing in that list catches a failure. So the first
function that raises one is the last to run, and what it raised is the result, under its name and
otherwise unaltered; and no failure is ascribed to a function that did not raise it
(`Run.Reports`). How deep in a tree the call stands makes no difference.
-/

set_option autoImplicit false

namespace Rulebook

variable {World α β : Type}

/-! ## What evaluations are put together from -/

/-- Built from values, failures that no function raised and runs of functions, by binds. -/
inductive Eval.Composed (host : Host World) : {α : Type} → Eval World α → Prop where
  | pure {α : Type} (a : α) : Composed host (pure a)
  | fail {α : Type} {e : EvalError} :
      (∀ name source, e ≠ .function name source) →
      Composed host (ofExcept (.error e) : Eval World α)
  | invoke (function : FunctionRef) (argument : Datum) :
      Composed host (Eval.invoke host function argument)
  | bind {α β : Type} {m : Eval World α} {f : α → Eval World β} :
      Composed host m → (∀ a, Composed host (f a)) → Composed host (m >>= f)

variable {host : Host World} {ctx : Context}

namespace Eval.Composed

theorem ofExcept {r : Except EvalError α}
    (h : ∀ e, r = .error e → ∀ name source, e ≠ .function name source) :
    Composed host (Eval.ofExcept r) := by
  cases r with
  | error e => exact .fail (h e rfl)
  | ok a => exact .pure a

protected theorem mapM {f : α → Eval World β} {l : List α} (h : ∀ a ∈ l, Composed host (f a)) :
    Composed host (l.mapM f) := by
  induction l with
  | nil => exact .pure []
  | cons a l ih =>
    obtain ⟨ha, hl⟩ := List.forall_mem_cons.mp h
    rw [List.mapM_cons]
    exact ha.bind fun b => (ih hl).bind fun bs => .pure (b :: bs)

end Eval.Composed

theorem Element.evaluate_composed (e : Element) :
    (Eval.ofExcept (e.evaluate ctx)).Composed host := by
  refine .ofExcept fun err h name source => ?_
  rcases evaluate_eq_error.mp h with ⟨-, rfl⟩ | ⟨d, -, -, rfl⟩ <;> exact nofun

theorem Field.entry_composed {P : Type} (record : String) (f : Field P) (content : Datum) :
    (Eval.ofExcept (f.entry record content)).Composed host := by
  refine .ofExcept fun err h name source => ?_
  obtain ⟨t, -, -, rfl⟩ := entry_eq_error.mp h
  exact nofun

theorem Application.run_composed {P : Type} (call : Application P) (argument : Datum) :
    (call.run host argument).Composed host := by
  simp only [run]
  split
  · refine .bind (.invoke call.function argument) fun result => .ofExcept fun err h name source => ?_
    obtain ⟨t, -, -, rfl⟩ := checkResult_eq_error h
    exact nofun
  · exact .fail fun _ _ => nofun

theorem Tree.composed :
    (∀ v : Expr, (v.evaluate host ctx).Composed host) ∧
      ∀ p : Param, (p.materialize host ctx).Composed host := by
  apply Tree.induction
  case constant => exact fun literal => .pure literal.value
  case element => exact fun reference => reference.evaluate_composed
  case application => exact fun call ih => ih.bind call.run_composed
  case scalar => exact fun d => .pure d
  case value => exact fun _ ih => ih
  case mapping =>
    intro entries ih
    rw [Param.materialize, Param.materializeEntries_eq]
    refine .bind (.mapM fun e he => ?_) fun ds => .pure (Datum.map ds)
    exact (ih e he).bind fun d => .pure (e.1, d)
  case sequence =>
    intro items ih
    rw [Param.materialize, Param.materializeItems_eq]
    exact .bind (.mapM ih) fun ds => .pure (Datum.list ds)
  case record =>
    intro typeName fields ih
    rw [Param.materialize, Param.materializeFields_eq]
    refine .bind (.mapM fun f hf => ?_) fun ds => .pure (Datum.record typeName (Keyed.ofList ds))
    exact (ih f hf).bind (f.entry_composed typeName)

theorem Condition.evaluate_composed (c : Condition) : (c.evaluate host ctx).Composed host := by
  refine (Tree.composed.1 c.left).bind fun left => (Tree.composed.1 c.right).bind fun right => ?_
  refine .ofExcept fun err h name source => ?_
  obtain ⟨fault, rfl⟩ := Operator.apply_eq_error h
  exact nofun

theorem Rule.apply_composed (r : Rule) : (r.apply host ctx).Composed host := by
  have haction : (r.action.evaluate host ctx >>= fun d => pure (some d)).Composed host :=
    (Tree.composed.1 r.action).bind fun d => .pure (some d)
  cases hc : r.condition with
  | none =>
    rw [apply_of_none hc]
    exact haction
  | some c =>
    rw [apply_of_some hc]
    refine c.evaluate_composed.bind fun holds => ?_
    cases holds with
    | true => exact haction
    | false => exact .pure none

theorem RuleSet.firstMatch_composed (rules : List Rule) :
    (firstMatch host ctx rules).Composed host := by
  induction rules with
  | nil => exact .pure none
  | cons r rest ih =>
    refine r.apply_composed.bind fun value => ?_
    cases value with
    | some d => exact .pure (some d)
    | none => exact ih

theorem Engine.execute_composed (engine : Engine) (id : String) :
    (engine.execute host ctx id).Composed host := by
  cases hs : engine.ruleSet id with
  | error e =>
    rw [execute_of_error hs]
    unfold ruleSet at hs
    split at hs
    · cases hs
    · cases hs
      exact .fail fun _ _ => nofun
  | ok set =>
    rw [execute_of_ok hs]
    exact (RuleSet.firstMatch_composed set.rules).bind fun value => .pure (Outcome.ofOption value)

/-! ## Reports -/

/-- In world `w` the function fails with `source` over the argument of the invocation. -/
def Invocation.Raises (host : Host World) (w : World) (i : Invocation) (source : FunctionError) :
    Prop :=
  (host.execute i.function i.argument w).1 = .error source

/-- A run from world `w` reports what its functions raise, and nothing else in their name: an
invocation that raises a failure is the last one, and the result is that failure under the name of
the function; a failure with the name of a function was raised by the last invocation. Each function
runs in the world that the invocations before it have left. -/
structure Run.Reports (host : Host World) (w : World) (run : Run World α) : Prop where
  world_eq : run.world = host.replay w run.invocations
  of_raises : ∀ {before after : List Invocation} {i : Invocation} {source : FunctionError},
    run.invocations = before ++ i :: after → i.Raises host (host.replay w before) source →
      after = [] ∧ run.result = .error (.function i.function.name source)
  raised : ∀ {name : String} {source : FunctionError},
    run.result = .error (.function name source) →
      ∃ before i, run.invocations = before ++ [i] ∧ i.function.name = name ∧
        i.Raises host (host.replay w before) source

namespace Run.Reports

variable {w : World}

/-- Without invocations there is nothing to report. -/
theorem silent {r : Except EvalError α}
    (h : ∀ e, r = .error e → ∀ name source, e ≠ .function name source) :
    (⟨r, [], w⟩ : Run World α).Reports host w where
  world_eq := rfl
  of_raises hsplit := absurd hsplit.symm (List.append_ne_nil_of_right_ne_nil _ nofun)
  raised hr := absurd rfl (h _ hr _ _)

theorem invoke (function : FunctionRef) (argument : Datum) :
    (Eval.invoke host function argument w).Reports host w where
  world_eq := rfl
  of_raises {before after i source} hsplit hraises := by
    have hone : [⟨function, argument⟩] = before ++ i :: after := hsplit
    cases before with
    | nil =>
      cases hone
      exact ⟨rfl, Eval.invoke_of_error hraises⟩
    | cons b before =>
      have hnil := (List.cons.inj hone).2
      exact absurd hnil.symm (List.append_ne_nil_of_right_ne_nil _ nofun)
  raised {name source} hr := by
    refine ⟨[], ⟨function, argument⟩, rfl, ?_⟩
    cases hx : (host.execute function argument w).1 with
    | ok d =>
      rw [Eval.invoke_of_ok hx] at hr
      cases hr
    | error source' =>
      rw [Eval.invoke_of_error hx] at hr
      cases hr
      exact ⟨rfl, hx⟩

/-- A failure ends a run, whatever was to come after it. -/
theorem error {run : Run World α} {e : EvalError} (h : run.Reports host w)
    (he : run.result = .error e) :
    (⟨.error e, run.invocations, run.world⟩ : Run World β).Reports host w where
  world_eq := h.world_eq
  of_raises hsplit hraises := by
    obtain ⟨hlast, hresult⟩ := h.of_raises hsplit hraises
    rw [he] at hresult
    cases hresult
    exact ⟨hlast, rfl⟩
  raised hr := by
    cases hr
    exact h.raised he

/-- Invocations that all went well, and then a run that reports. -/
theorem preceded {first : Run World α} {run : Run World β} {a : α} (h : first.Reports host w)
    (ha : first.result = .ok a) (hrun : run.Reports host first.world) :
    (run.preceded first.invocations).Reports host w where
  world_eq := by
    rw [preceded_invocations, Host.replay_append, ← h.world_eq]
    exact hrun.world_eq
  of_raises {before after i source} hsplit hraises := by
    have hno {rest : List Invocation} (hfirst : first.invocations = before ++ i :: rest) : False := by
      have hresult := (h.of_raises hfirst hraises).2
      rw [ha] at hresult
      cases hresult
    rw [preceded_invocations, List.append_eq_append_iff] at hsplit
    rcases hsplit with ⟨middle, rfl, hsecond⟩ | ⟨rest, hfirst, hrest⟩
    · rw [Host.replay_append, ← h.world_eq] at hraises
      exact hrun.of_raises hsecond hraises
    · cases rest with
      | nil =>
        rw [List.append_nil] at hfirst
        have hsecond : run.invocations = [] ++ i :: after := hrest.symm
        rw [← hfirst, ← h.world_eq] at hraises
        exact hrun.of_raises hsecond hraises
      | cons j rest =>
        obtain ⟨rfl, -⟩ := List.cons.inj hrest
        exact (hno hfirst).elim
  raised hr := by
    obtain ⟨before, i, hsplit, hname, hraises⟩ := hrun.raised hr
    refine ⟨first.invocations ++ before, i, ?_, hname, ?_⟩
    · rw [preceded_invocations, hsplit, List.append_assoc]
    · rw [Host.replay_append, ← h.world_eq]
      exact hraises

end Run.Reports

theorem Eval.Composed.reports {m : Eval World α} (h : m.Composed host) (w : World) :
    (m w).Reports host w := by
  induction h generalizing w with
  | pure a => exact .silent nofun
  | fail he => exact .silent fun e h => by cases h; exact he
  | invoke function argument => exact .invoke function argument
  | @bind _ _ m f _ _ ihm ihf =>
    cases hm : (m w).result with
    | error e =>
      rw [bind_error hm]
      exact (ihm w).error hm
    | ok a =>
      rw [bind_ok hm]
      exact (ihm w).preceded hm (ihf a (m w).world)

end Rulebook
