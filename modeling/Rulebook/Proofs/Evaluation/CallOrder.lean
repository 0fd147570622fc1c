import Rulebook.Proofs.Evaluation.Effects

/-! # The order of calls

The calls in a tree are listed in evaluation order, each after the calls in its parameter
(`Expr.calls`). `Served` tells, call by call, which invocations serve a list of calls: one for each
call, over the argument that the parameter of the call materialized to in the world that the
invocations before it have left. `Eval.Serves` is what an evaluation does with its calls: it serves
all of them if it succeeds and the first ones if it fails. Binding evaluations appends their lists
of calls, so the induction over trees has only a call itself to look at.
-/

set_option autoImplicit false

namespace Rulebook

variable {World α β : Type}

/-! ## Served calls -/

/-- The world after some invocations, made one after the other. -/
def Host.replay (host : Host World) (w : World) (is : List Invocation) : World :=
  is.foldl (fun w i => (host.execute i.function i.argument w).2) w

theorem Host.replay_append (host : Host World) (w : World) (is is' : List Invocation) :
    host.replay w (is ++ is') = host.replay (host.replay w is) is' :=
  List.foldl_append ..

/-- From world `w`, the invocations serve the calls: the last call materializes its parameter, by
the invocations `own`, in the world that the invocations `is` before have left, and then runs its
function over the datum. -/
inductive Served (host : Host World) (ctx : Context) (w : World) :
    List Call → List Invocation → Prop where
  | nil : Served host ctx w [] []
  | snoc {calls : List Call} {call : Call} {is own : List Invocation} {argument : Datum} :
      Served host ctx w calls (is ++ own) →
      (call.parameter.materialize host ctx (host.replay w is)).result = .ok argument →
      (call.parameter.materialize host ctx (host.replay w is)).invocations = own →
      Served host ctx w (calls ++ [call]) (is ++ own ++ [⟨call.function, argument⟩])

variable {host : Host World} {ctx : Context}

namespace Served

variable {w : World} {calls calls' : List Call} {is is' : List Invocation}

theorem append (h : Served host ctx w calls is) (h' : Served host ctx (host.replay w is) calls' is') :
    Served host ctx w (calls ++ calls') (is ++ is') := by
  induction h' with
  | nil =>
    rw [List.append_nil, List.append_nil]
    exact h
  | @snoc calls₀ call is₀ own argument _ hresult hown ih =>
    rw [← Host.replay_append] at hresult hown
    rw [← List.append_assoc] at ih
    rw [← List.append_assoc, ← List.append_assoc, ← List.append_assoc]
    exact ih.snoc hresult hown

/-- A call is served by the invocations of its parameter and one more. -/
theorem call {call : Call} {argument : Datum}
    (h : Served host ctx w calls (call.parameter.materialize host ctx w).invocations)
    (ha : (call.parameter.materialize host ctx w).result = .ok argument) :
    Served host ctx w (calls ++ [call])
      ((call.parameter.materialize host ctx w).invocations ++ [⟨call.function, argument⟩]) := by
  rw [← List.nil_append (call.parameter.materialize host ctx w).invocations] at h ⊢
  exact h.snoc ha rfl

/-- There is one invocation for each call, and it runs the function of the call. -/
theorem functions_eq (h : Served host ctx w calls is) :
    is.map (·.function) = calls.map (·.function) := by
  induction h with
  | nil => rfl
  | snoc _ _ _ ih => rw [List.map_append, ih, List.map_append]; rfl

end Served

/-! ## Runs and evaluations that serve calls -/

/-- A run from world `w` serves these calls in order: all of them if it succeeds, and some first
ones if it fails. It changes the world by its invocations only. -/
structure Run.Serves (host : Host World) (ctx : Context) (w : World) (calls : List Call)
    (run : Run World α) : Prop where
  world_eq : run.world = host.replay w run.invocations
  of_ok : ∀ {a}, run.result = .ok a → Served host ctx w calls run.invocations
  of_error : ∀ {e}, run.result = .error e →
    ∃ done, done <+: calls ∧ Served host ctx w done run.invocations

namespace Run.Serves

variable {w : World} {calls calls' : List Call} {run : Run World α}

protected theorem map (h : run.Serves host ctx w calls) (f : α → β) :
    (run.map f).Serves host ctx w calls where
  world_eq := h.world_eq
  of_ok hb := by
    cases hr : run.result with
    | ok a => exact h.of_ok hr
    | error e =>
      rw [map_result, hr] at hb
      cases hb
  of_error he := by
    cases hr : run.result with
    | ok a =>
      rw [map_result, hr] at he
      cases he
    | error e => exact h.of_error hr

/-- A run goes on with its calls where the invocations before it have served theirs. -/
protected theorem preceded {is : List Invocation} (hserved : Served host ctx w calls is)
    (h : run.Serves host ctx (host.replay w is) calls') :
    (run.preceded is).Serves host ctx w (calls ++ calls') where
  world_eq := by
    rw [preceded_invocations, Host.replay_append]
    exact h.world_eq
  of_ok ha := hserved.append (h.of_ok ha)
  of_error he := by
    obtain ⟨done, hprefix, hdone⟩ := h.of_error he
    exact ⟨calls ++ done, (List.prefix_append_right_inj calls).mpr hprefix, hserved.append hdone⟩

/-- After a failure no more calls are served. -/
protected theorem error {e : EvalError} (h : run.Serves host ctx w calls)
    (he : run.result = .error e) :
    (⟨.error e, run.invocations, run.world⟩ : Run World β).Serves host ctx w
      (calls ++ calls') where
  world_eq := h.world_eq
  of_ok := nofun
  of_error _ := by
    obtain ⟨done, hprefix, hserved⟩ := h.of_error he
    exact ⟨done, hprefix.trans (List.prefix_append ..), hserved⟩

end Run.Serves

def Eval.Serves (host : Host World) (ctx : Context) (calls : List Call) (m : Eval World α) : Prop :=
  ∀ w, (m w).Serves host ctx w calls

namespace Eval.Serves

variable {calls calls' : List Call}

protected theorem ofExcept (r : Except EvalError α) :
    Serves host ctx [] (ofExcept r : Eval World α) := fun _ =>
  ⟨rfl, fun _ => .nil, fun _ => ⟨[], List.prefix_rfl, .nil⟩⟩

protected theorem pure (a : α) : Serves host ctx [] (pure a : Eval World α) :=
  .ofExcept (.ok a)

protected theorem bind {m : Eval World α} {f : α → Eval World β} (hm : Serves host ctx calls m)
    (hf : ∀ a, Serves host ctx calls' (f a)) : Serves host ctx (calls ++ calls') (m >>= f) := by
  intro w
  cases h : (m w).result with
  | error e =>
    rw [bind_error h]
    exact (hm w).error h
  | ok a =>
    have hsecond := hf a (m w).world
    rw [(hm w).world_eq] at hsecond
    rw [bind_ok h, (hm w).world_eq]
    exact hsecond.preceded ((hm w).of_ok h)

theorem bind_ofExcept {m : Eval World α} (hm : Serves host ctx calls m)
    (f : α → Except EvalError β) : Serves host ctx calls (m >>= fun a => ofExcept (f a)) := by
  have h : Serves host ctx (calls ++ []) (m >>= fun a => ofExcept (f a)) :=
    hm.bind fun a => .ofExcept (f a)
  rwa [List.append_nil] at h

protected theorem map {m : Eval World α} (hm : Serves host ctx calls m) (f : α → β) :
    Serves host ctx calls (m >>= fun a => pure (f a)) :=
  hm.bind_ofExcept fun a => .ok (f a)

protected theorem mapM {f : α → Eval World β} {g : α → List Call} {l : List α}
    (h : ∀ a ∈ l, Serves host ctx (g a) (f a)) :
    Serves host ctx (l.flatMap g) (l.mapM f) := by
  induction l with
  | nil => exact .pure []
  | cons a l ih =>
    obtain ⟨ha, hl⟩ := List.forall_mem_cons.mp h
    rw [List.mapM_cons, List.flatMap_cons]
    exact ha.bind fun b => (ih hl).map (b :: ·)

end Eval.Serves

/-! ## Trees -/

theorem Application.run_world {P : Type} (call : Application P) (argument : Datum) (w : World) :
    (call.run host argument w).world =
      host.replay w (call.run host argument w).invocations := by
  unfold run
  cases argument.fits (host.signature call.function).parameterType with
  | false => rfl
  | true =>
    simp only [if_true]
    cases h : (Eval.invoke host call.function argument w).result with
    | error e =>
      rw [Eval.bind_error h]
      rfl
    | ok result =>
      rw [Eval.bind_ok h]
      rfl

/-- A call comes after the calls in its parameter. -/
theorem Application.evaluate_serves {call : Call} {calls : List Call}
    (h : (call.parameter.materialize host ctx).Serves host ctx calls) :
    ((Expr.application call).evaluate host ctx).Serves host ctx (calls ++ [call]) := by
  intro w
  rw [Expr.evaluate]
  cases ha : (call.parameter.materialize host ctx w).result with
  | error e =>
    rw [Eval.bind_error ha]
    exact (h w).error ha
  | ok argument =>
    have hserved := (h w).of_ok ha
    rw [Eval.bind_ok ha]
    refine ⟨?_, fun hd => ?_, fun _ => ?_⟩
    · rw [Host.replay_append, ← (h w).world_eq]
      exact call.run_world argument _
    · rw [run_invocations, if_pos (run_eq_ok.mp hd).1]
      exact hserved.call ha
    · -- The function has run unless the argument was rejected, whatever came of it.
      rw [run_invocations]
      split
      · exact ⟨calls ++ [call], List.prefix_rfl, hserved.call ha⟩
      · rw [List.append_nil]
        exact ⟨calls, List.prefix_append .., hserved⟩

theorem Tree.serves :
    (∀ v : Expr, (v.evaluate host ctx).Serves host ctx v.calls) ∧
      ∀ p : Param, (p.materialize host ctx).Serves host ctx p.calls := by
  apply Tree.induction
  case constant => exact fun literal => .pure literal.value
  case element => exact fun reference => .ofExcept (reference.evaluate ctx)
  case application =>
    intro call ih
    rw [Expr.calls_application]
    exact Application.evaluate_serves ih
  case scalar => exact fun d => .pure d
  case value => exact fun _ ih => ih
  case mapping =>
    intro entries ih
    rw [Param.calls_mapping, Param.materialize, Param.materializeEntries_eq]
    exact .map (.mapM fun e he => (ih e he).map fun d => (e.1, d)) Datum.map
  case sequence =>
    intro items ih
    rw [Param.calls_sequence, Param.materialize, Param.materializeItems_eq]
    exact .map (.mapM ih) Datum.list
  case record =>
    intro typeName fields ih
    rw [Param.calls_record, Param.materialize, Param.materializeFields_eq]
    exact .map (.mapM fun f hf => (ih f hf).bind_ofExcept (f.entry typeName)) fun ds =>
      Datum.record typeName (Keyed.ofList ds)

/-! ## Conditions and rules -/

/-- The calls in a condition, in evaluation order. -/
def Condition.calls (c : Condition) : List Call :=
  c.left.calls ++ c.right.calls

/-- The calls in the condition of a rule. -/
def Rule.guardCalls (r : Rule) : List Call :=
  (r.condition.map Condition.calls).getD []

theorem Condition.calls_eq_steps (c : Condition) : c.calls = c.steps.filterMap Step.call? := by
  rw [steps, List.filterMap_append, List.filterMap_append]
  exact (List.append_nil _).symm

theorem Rule.calls_eq (r : Rule) : r.calls = r.guardCalls ++ r.action.calls := by
  rw [calls, steps, List.filterMap_append, guardCalls, Expr.calls]
  cases r.condition with
  | none => rfl
  | some c =>
    rw [Option.map_some, Option.map_some, Option.getD_some, Option.getD_some, c.calls_eq_steps]

theorem Condition.serves (c : Condition) : (c.evaluate host ctx).Serves host ctx c.calls :=
  (Tree.serves.1 c.left).bind fun left =>
    (Tree.serves.1 c.right).bind_ofExcept fun right => c.op.apply left right

namespace Rule

variable {r : Rule} {w : World}

/-- A rule that does not pass serves the calls in its condition and then those in its action. -/
theorem apply_serves (h : (r.apply host ctx w).result ≠ .ok none) :
    (r.apply host ctx w).Serves host ctx w r.calls := by
  have haction : (r.action.evaluate host ctx >>= fun d => pure (some d)).Serves host ctx
      r.action.calls := (Tree.serves.1 r.action).map some
  rw [calls_eq, guardCalls]
  cases hc : r.condition with
  | none =>
    rw [apply_of_none hc]
    exact haction w
  | some c =>
    rw [apply_of_ne_none hc h]
    exact c.serves.bind (fun _ => haction) w

/-- A rule that passes has served the calls in its condition. -/
theorem served_of_pass (h : (r.apply host ctx w).result = .ok none) :
    Served host ctx w r.guardCalls (r.apply host ctx w).invocations ∧
      (r.apply host ctx w).world = host.replay w (r.apply host ctx w).invocations := by
  obtain ⟨c, hc, hholds, hinvocations, hworld⟩ := condition_of_pass h
  rw [guardCalls, hc, hinvocations, hworld]
  exact ⟨(c.serves w).of_ok hholds, (c.serves w).world_eq⟩

end Rule

end Rulebook
