import Rulebook.Proofs.Evaluation.CallOrder
import Rulebook.Proofs.Resolution.Decision

/-! # The calls of an execution

An execution tries the candidates of an id in order. The ones that pass serve the calls in their
conditions, each in the world that the ones before it have left; the one that decides serves all of
its calls if it yields a value and some first ones if it fails; the ones behind it serve none.
-/

set_option autoImplicit false

namespace Rulebook

variable {World α : Type} {host : Host World} {ctx : Context} {w w' : World}

/-! ## Candidates -/

section Candidates

variable {rules before after : List Rule} {r : Rule} {is : List Invocation}

theorem Passed.served (h : Passed host ctx rules w is w') :
    Served host ctx w (rules.flatMap Rule.guardCalls) is ∧ w' = host.replay w is := by
  induction h with
  | nil => exact ⟨.nil, rfl⟩
  | cons hhead _ ih =>
    obtain ⟨hserved, hworld⟩ := Rule.served_of_pass hhead
    rw [hworld, ← Host.replay_append] at ih
    exact ⟨hserved.append ih.1, ih.2⟩

theorem Passed.firstMatch_serves (h : Passed host ctx rules w is w') :
    (RuleSet.firstMatch host ctx rules w).Serves host ctx w (rules.flatMap Rule.guardCalls) := by
  rw [RuleSet.firstMatch_of_passed h]
  exact ⟨h.served.2, fun _ => h.served.1, nofun⟩

theorem Decided.firstMatch_serves (h : Decided host ctx before r w is w') :
    (RuleSet.firstMatch host ctx (before ++ r :: after) w).Serves host ctx w
      (before.flatMap Rule.guardCalls ++ r.calls) := by
  obtain ⟨hserved, rfl⟩ := h.passed.served
  rw [RuleSet.firstMatch_of_decided h]
  exact (Rule.apply_serves h.decides).preceded hserved

end Candidates

/-! ## Main statement -/

/-- The run serves the calls in order; so its functions are those of the calls, one by one, and some
first ones of them if it fails. -/
structure Run.InOrder (host : Host World) (ctx : Context) (w : World) (calls : List Call)
    (run : Run World α) : Prop extends run.Serves host ctx w calls where
  functions_eq : ∀ {a}, run.result = .ok a →
    run.invocations.map (·.function) = calls.map (·.function)
  names_initial : ∀ {e}, run.result = .error e →
    run.invocations.map (·.function.name) <+: calls.map (·.function.name)

theorem Run.Serves.inOrder {calls : List Call} {run : Run World α}
    (h : run.Serves host ctx w calls) : run.InOrder host ctx w calls where
  toServes := h
  functions_eq ha := (h.of_ok ha).functions_eq
  names_initial he := by
    obtain ⟨done, hprefix, hserved⟩ := h.of_error he
    have hnames := congrArg (List.map FunctionRef.name) hserved.functions_eq
    rw [List.map_map, List.map_map] at hnames
    exact hnames ▸ hprefix.map _

/-- Whatever its functions do, an evaluation serves the calls of its tree in order, where the entries
of a mapping stand in the order of their keys. An execution serves the calls of the candidates that
it tries: of those that pass only the ones in their conditions. For an unknown id it serves none. -/
theorem calls_in_order (host : Host World) (ctx : Context) (w : World) :
    (∀ v : Expr, (v.evaluate host ctx w).InOrder host ctx w v.calls) ∧
    (∀ p : Param, (p.materialize host ctx w).InOrder host ctx w p.calls) ∧
    (∀ c : Condition, (c.evaluate host ctx w).InOrder host ctx w c.calls) ∧
    (∀ pairs : List (String × Param), Keyed.Ordered (Keyed.ofList pairs) ∧
      (Param.mapping (Keyed.ofList pairs)).calls =
        (Keyed.ofList pairs).flatMap fun e => e.2.calls) ∧
    ∀ (engine : Engine) (id : String),
      let run := engine.execute host ctx id w
      (∀ e, engine.candidates id = .error e → run.invocations = []) ∧
      ∀ rules, engine.candidates id = .ok rules →
        ((∃ is w', Passed host ctx rules w is w') ∨ ∃ before r after is w',
          rules = before ++ r :: after ∧ Decided host ctx before r w is w') ∧
        (∀ is w', Passed host ctx rules w is w' →
          run.invocations = is ∧ run.InOrder host ctx w (rules.flatMap Rule.guardCalls)) ∧
        ∀ before r after is w', rules = before ++ r :: after → Decided host ctx before r w is w' →
          Served host ctx w (before.flatMap Rule.guardCalls) is ∧
          run.invocations = is ++ (r.apply host ctx w').invocations ∧
          run.InOrder host ctx w (before.flatMap Rule.guardCalls ++ r.calls) := by
  refine ⟨fun v => (Tree.serves.1 v w).inOrder, fun p => (Tree.serves.2 p w).inOrder,
    fun c => (c.serves w).inOrder,
    fun pairs => ⟨Keyed.ordered_ofList pairs, Param.calls_mapping _⟩, fun engine id => ?_⟩
  intro run
  refine ⟨fun e he => ?_, fun rules hrules => ?_⟩
  · cases hs : engine.ruleSet id with
    | error e' =>
      have hrun : run = Eval.ofExcept (.error e') w := congrFun (Engine.execute_of_error hs) w
      rw [hrun]
      rfl
    | ok set =>
      rw [Engine.candidates_of_ok hs] at he
      cases he
  · obtain ⟨set, hs, rfl⟩ := Engine.ruleSet_of_candidates hrules
    have hrun : run = (RuleSet.firstMatch host ctx set.rules w).map Outcome.ofOption := by
      rw [← Eval.bind_pure_apply]
      exact congrFun (Engine.execute_of_ok hs) w
    refine ⟨passed_or_decided host ctx set.rules w, fun is w' h => ⟨?_, ?_⟩,
      fun before r after is w' hsplit h => ⟨h.passed.served.1, ?_, ?_⟩⟩
    · rw [hrun, Run.map_invocations, RuleSet.firstMatch_of_passed h]
    · rw [hrun]
      exact (h.firstMatch_serves.map Outcome.ofOption).inOrder
    · rw [hrun, Run.map_invocations, hsplit, RuleSet.firstMatch_of_decided h,
        Run.preceded_invocations]
    · rw [hrun, hsplit]
      exact (h.firstMatch_serves.map Outcome.ofOption).inOrder

/-- A switch that tells its state and turns over with each call: a parameter comes before its call,
a failing call is the last one, and a candidate that passes adds the call in its condition. -/
theorem calls_in_order_switch :
    let host : Host Bool :=
      { hostedSignature := fun _ => ⟨.genericObject, .genericObject⟩
        run := fun index _ on =>
          (if index = 0 then .ok (.bool on) else .error (.failed "stuck"), !on)
        fetch := fun _ _ on => (.error "no network", on) }
    let flip : FunctionRef := .hosted "flip" 0
    let broken : FunctionRef := .hosted "broken" 1
    let once : Expr := .application ⟨flip, .empty, none⟩
    let twice : Expr := .application ⟨flip, .value once, none⟩
    let failing : Expr := .application ⟨broken, .value once, none⟩
    let all : Param := .sequence [.value twice, .value failing, .value once]
    let gate := Rule.conditioned "door" ⟨once, .eq, .constant (.ofDatum (.bool true))⟩ once 1
    let wall := Rule.fallback "door" twice
    let engine : Engine := { rules := [("door", ⟨[⟨1, gate⟩, ⟨0, wall⟩]⟩)], nextSequence := 2 }
    ((twice.evaluate host ⟨[]⟩ true).invocations.map (·.function) = [flip, flip] ∧
      Served host ⟨[]⟩ true twice.calls (twice.evaluate host ⟨[]⟩ true).invocations) ∧
    (all.materialize host ⟨[]⟩ true).invocations.map (·.function.name) <+:
      ["flip", "flip", "flip", "broken", "flip"] ∧
    engine.candidates "door" = .ok [gate, wall] ∧
    (engine.execute host ⟨[]⟩ "door" false).invocations.map (·.function) = [flip, flip, flip] := by
  intro host flip broken once twice failing all gate wall engine
  have htwice : (twice.evaluate host ⟨[]⟩ true).result = .ok (.bool false) := rfl
  have hall : (all.materialize host ⟨[]⟩ true).result =
      .error (.function "broken" (.failed "stuck")) := rfl
  have hcandidates : engine.candidates "door" = .ok [gate, wall] := rfl
  have hpass : (gate.apply host ⟨[]⟩ false).result = .ok none := rfl
  have hdecided : Decided host ⟨[]⟩ [gate] wall false _ _ :=
    ⟨.cons hpass .nil, Rule.apply_ne_none rfl _⟩
  have hmatched : (engine.execute host ⟨[]⟩ "door" false).result =
      .ok (.matched (.bool false)) := rfl
  obtain ⟨hexpr, hparam, -⟩ := calls_in_order host ⟨[]⟩ true
  obtain ⟨-, -, -, -, hengine⟩ := calls_in_order host ⟨[]⟩ false
  obtain ⟨-, -, hdecides⟩ := (hengine engine "door").2 [gate, wall] hcandidates
  obtain ⟨-, -, hrun⟩ := hdecides [gate] wall [] _ _ rfl hdecided
  exact ⟨⟨(hexpr twice).functions_eq htwice, (hexpr twice).of_ok htwice⟩,
    (hparam all).names_initial hall, hcandidates, hrun.functions_eq hmatched⟩

end Rulebook
