import Rulebook.Proofs.Engine.Execution
import Rulebook.Proofs.Evaluation.Rejection
import Rulebook.Proofs.Evaluation.Reporting

/-! # The two classes of failures

What builds trees, registers functions, reads configurations and adds rules fails only with
configuration errors, and what evaluates trees never does. An execution is between the two: it looks
its id up first, and an unknown id is a configuration error, the only one that it can fail with.
-/

set_option autoImplicit false

namespace Rulebook

variable {World α β : Type} {host : Host World} {ctx : Context}

/-! ## Building -/

/-- Every failure is a configuration error. -/
def FailsConfiguring (r : Except EvalError α) : Prop :=
  ∀ e, r = .error e → e.isConfiguration = true

namespace FailsConfiguring

theorem ok (a : α) : FailsConfiguring (pure a : Except EvalError α) :=
  nofun

theorem error {e : EvalError} (h : e.isConfiguration = true) :
    FailsConfiguring (.error e : Except EvalError α) := by
  rintro _ ⟨⟩
  exact h

theorem bind {r : Except EvalError α} {f : α → Except EvalError β} (hr : FailsConfiguring r)
    (hf : ∀ a, FailsConfiguring (f a)) : FailsConfiguring (r >>= f) := by
  cases r with
  | error e => exact error (hr e rfl)
  | ok a => exact hf a

theorem foldlM {f : β → α → Except EvalError β} (hf : ∀ b a, FailsConfiguring (f b a)) (l : List α)
    (b : β) : FailsConfiguring (l.foldlM f b) := by
  induction l generalizing b with
  | nil => exact ok b
  | cons a l ih =>
    rw [List.foldlM_cons]
    exact bind (hf b a) ih

theorem makeElement (dataType : DataType) (code : String) :
    FailsConfiguring (Element.make dataType code) := by
  unfold Element.make
  split
  · exact ok _
  · exact error rfl

theorem makeConstant (dataType : DataType) (value : Datum) :
    FailsConfiguring (Constant.make dataType value) := by
  unfold Constant.make
  split
  · exact ok _
  · exact error rfl

theorem parseOperator (text : String) : FailsConfiguring (Operator.parse text) := by
  unfold Operator.parse
  split
  · exact ok _
  · exact error rfl

theorem get (registry : Registry) (name : String) : FailsConfiguring (registry.get name) := by
  unfold Registry.get
  split
  · exact ok _
  · exact error rfl

theorem register (registry : Registry) (f : FunctionRef) :
    FailsConfiguring (registry.register f) := by
  unfold Registry.register
  split
  · exact error rfl
  · exact ok _

variable (decl : Declarations)

theorem validate (p : Param) : FailsConfiguring (p.validate decl) := by
  intro e h
  obtain ⟨record, f, -, hcheck⟩ := Param.validate_eq_error h
  obtain ⟨t, -, -, -, rfl⟩ := Field.check_eq_error.mp hcheck
  rfl

theorem make (registry : Registry) (name : String) (p : Param) :
    FailsConfiguring (Application.make decl registry name p) := by
  refine bind (get registry name) fun function => bind (validate decl p) fun _ => ?_
  dsimp only
  split
  · exact ok _
  · exact error rfl

theorem expecting (call : Call) (dataType : DataType) :
    FailsConfiguring (call.expecting decl dataType) := by
  intro e h
  obtain ⟨-, -, rfl⟩ := Application.expecting_eq_error.mp h
  rfl

theorem ofConfig (config : EngineConfig) : FailsConfiguring (Engine.ofConfig config) :=
  bind (foldlM (fun registry f => register registry (.http f)) config.http _) fun _ => ok _

theorem ofConfigWithoutHttp (config : EngineConfig) :
    FailsConfiguring (Engine.ofConfigWithoutHttp config) := by
  unfold Engine.ofConfigWithoutHttp
  split
  · exact ok _
  · exact error rfl

theorem registerFunction (engine : Engine) (f : FunctionRef) :
    FailsConfiguring (engine.registerFunction f) :=
  bind (register engine.registry f) fun _ => ok _

theorem addRuleInPlace (engine : Engine) (rule : Rule) :
    FailsConfiguring (engine.addRuleInPlace rule).1 := by
  unfold Engine.addRuleInPlace
  dsimp only
  split
  · next e hset =>
    rw [(RuleSet.insert_eq_error.mp hset).2]
    exact error rfl
  · exact ok ()

end FailsConfiguring

/-! ## Evaluating -/

/-- No failure is a configuration error. -/
def Eval.FailsEvaluating (m : Eval World α) : Prop :=
  ∀ w e, (m w).result = .error e → e.isConfiguration = false

theorem Eval.Follows.failsEvaluating {steps : List Step} {m : Eval World α}
    (h : Follows host ctx steps m) : m.FailsEvaluating :=
  fun _ _ he => h.isConfiguration_eq_false he

/-! ## Executing -/

namespace Engine

variable {engine : Engine} {id : String}

theorem ruleSet_eq_error {e : EvalError} (h : engine.ruleSet id = .error e) :
    e = .unknownRule id := by
  unfold ruleSet at h
  split at h
  · cases h
  · cases h
    rfl

/-- The only configuration error of an execution is that its id is unknown. -/
theorem execute_configuration_iff {w : World} {e : EvalError} :
    (engine.execute host ctx id w).result = .error e ∧ e.isConfiguration = true ↔
      e = .unknownRule id ∧ engine.candidates id = .error (.unknownRule id) := by
  cases hs : engine.ruleSet id with
  | error e' =>
    obtain rfl := ruleSet_eq_error hs
    rw [execute_of_error hs, candidates_of_error hs]
    constructor
    · rintro ⟨⟨⟩, -⟩
      exact ⟨rfl, rfl⟩
    · rintro ⟨rfl, -⟩
      exact ⟨rfl, rfl⟩
  | ok set =>
    rw [candidates_of_ok hs]
    refine ⟨fun ⟨he, hclass⟩ => ?_, nofun⟩
    rw [(execute_follows hs).failsEvaluating w e he] at hclass
    cases hclass

theorem Holds.candidates_eq_error_iff {rules : List Rule} (h : engine.Holds rules) :
    engine.candidates id = .error (.unknownRule id) ↔
      ∀ r rest, engine.candidates id ≠ .ok (r :: rest) := by
  rw [h.candidates_eq]
  cases Rule.inOrder id rules with
  | nil => exact iff_of_true rfl fun _ _ => nofun
  | cons r rest => exact iff_of_false nofun fun hne => hne r rest rfl

end Engine

/-! ## Main statement -/

/-- Evaluating trees, conditions, rules and rule sets never fails with a configuration error;
building, registering, configuring and adding rules fails with nothing else. After every history, an
execution fails with a configuration error exactly if its id has no candidates, and then with the
one that the id is unknown. Whatever a function raises during an execution is the result of it, and
what is reported in the name of a function was raised by it. -/
theorem error_classes_never_mix (host : Host World) (ctx : Context) :
    ((∀ v : Expr, (v.evaluate host ctx).FailsEvaluating) ∧
      (∀ p : Param, (p.materialize host ctx).FailsEvaluating) ∧
      (∀ c : Condition, (c.evaluate host ctx).FailsEvaluating) ∧
      (∀ r : Rule, (r.apply host ctx).FailsEvaluating) ∧
      ∀ set : RuleSet, (set.resolve host ctx).FailsEvaluating) ∧
    ((∀ decl registry name p, FailsConfiguring (Application.make decl registry name p)) ∧
      (∀ decl (call : Call) t, FailsConfiguring (call.expecting decl t)) ∧
      (∀ t d, FailsConfiguring (Constant.make t d)) ∧
      (∀ t code, FailsConfiguring (Element.make t code)) ∧
      (∀ decl (p : Param), FailsConfiguring (p.validate decl)) ∧
      (∀ (registry : Registry) f, FailsConfiguring (registry.register f)) ∧
      (∀ (registry : Registry) name, FailsConfiguring (registry.get name)) ∧
      (∀ text, FailsConfiguring (Operator.parse text)) ∧
      (∀ config, FailsConfiguring (Engine.ofConfig config)) ∧
      (∀ config, FailsConfiguring (Engine.ofConfigWithoutHttp config)) ∧
      (∀ (engine : Engine) f, FailsConfiguring (engine.registerFunction f)) ∧
      ∀ (engine : Engine) rule, FailsConfiguring (engine.addRuleInPlace rule).1) ∧
    (∀ (registry : Registry) (world : World) (history : List (Request World)) (id : String)
      (w : World),
      let engine := ((Session.start registry world).afterInPlace history).engine
      let run := engine.execute host ctx id w
      ((∃ e, run.result = .error e ∧ e.isConfiguration = true) ↔
        ∀ r rest, engine.candidates id ≠ .ok (r :: rest)) ∧
      ∀ e, run.result = .error e → e.isConfiguration = true → e = .unknownRule id) ∧
    ∀ (engine : Engine) (id : String) (w : World),
      (engine.execute host ctx id w).Reports host w := by
  refine ⟨⟨fun v => v.evaluate_follows.failsEvaluating, fun p => p.materialize_follows.failsEvaluating,
    fun c => c.evaluate_follows.failsEvaluating, fun r => r.apply_follows.failsEvaluating,
    fun set => (RuleSet.firstMatch_follows set.rules).failsEvaluating⟩, ?_, ?_,
    fun engine id w => (engine.execute_composed id).reports w⟩
  · exact ⟨.make, .expecting, .makeConstant, .makeElement, .validate, .register, .get,
      .parseOperator, .ofConfig, .ofConfigWithoutHttp, .registerFunction, .addRuleInPlace⟩
  · intro registry world history id w engine run
    have hstart : (Session.start registry world).engine.Consistent := .start registry
    have h : engine.Holds _ := Session.holds_afterInPlace hstart (.start registry) history
    refine ⟨⟨fun ⟨e, he, hclass⟩ => ?_, fun hnone => ?_⟩, fun e he hclass => ?_⟩
    · exact h.candidates_eq_error_iff.mp (Engine.execute_configuration_iff.mp ⟨he, hclass⟩).2
    · have hcandidates := h.candidates_eq_error_iff.mpr hnone
      exact ⟨_, Engine.execute_configuration_iff.mpr ⟨rfl, hcandidates⟩⟩
    · exact (Engine.execute_configuration_iff.mp ⟨he, hclass⟩).1

/-- A failing function in a record in the parameter of another one, which never runs; an id without
rules; and a call of a function that is not registered. -/
theorem error_classes_never_mix_nested :
    let host : Host Unit :=
      { hostedSignature := fun _ => ⟨.genericObject, .genericObject⟩
        run := fun index d _ => (if index = 0 then .ok d else .error (.failed "stuck"), ())
        fetch := fun _ _ _ => (.error "no network", ()) }
    let broken : Call := ⟨.hosted "broken" 1, .empty, none⟩
    let inner : Param := .record "Query" [⟨"limit", .untyped, .value (.application broken)⟩]
    let action : Expr := .application ⟨.hosted "echo" 0, .sequence [inner], none⟩
    let history : List (Request Unit) := [.addRule (.fallback "door" action)]
    let engine := ((Session.start ∅ ()).afterInPlace history).engine
    let run := engine.execute host ⟨[]⟩ "door" ()
    run.invocations = [⟨broken.function, .map []⟩] ∧
      run.result = .error (.function "broken" (.failed "stuck")) ∧
      (engine.execute host ⟨[]⟩ "gate" ()).result = .error (.unknownRule "gate") ∧
      (∀ r rest, engine.candidates "gate" ≠ .ok (r :: rest)) ∧
      Application.make host.toDeclarations ∅ "find" inner = .error (.unknownFunction "find") ∧
      (EvalError.unknownFunction "find").isConfiguration = true ∧
      (EvalError.function "broken" (.failed "stuck")).isConfiguration = false := by
  intro host broken inner action history engine run
  have hstart : (Session.start ∅ ()).engine.Consistent := .start ∅
  have hengine : engine = ((Session.start ∅ ()).after history).engine :=
    congrArg Session.engine (Session.afterInPlace_eq hstart history)
  have hinvocations : run.invocations = [] ++ ⟨broken.function, .map []⟩ :: [] := by
    show (engine.execute host ⟨[]⟩ "door" ()).invocations = _
    rw [hengine]
    rfl
  have hraises : Invocation.Raises host () ⟨broken.function, .map []⟩ (.failed "stuck") := rfl
  have hgate : (engine.execute host ⟨[]⟩ "gate" ()).result = .error (.unknownRule "gate") := by
    rw [hengine]
    rfl
  have hmake : Application.make host.toDeclarations ∅ "find" inner =
      .error (.unknownFunction "find") := rfl
  obtain ⟨⟨hexpr, -⟩, ⟨hbuilt, -⟩, hexecution, hreports⟩ := error_classes_never_mix host ⟨[]⟩
  obtain ⟨hunknown, -⟩ := hexecution ∅ () history "gate" ()
  refine ⟨hinvocations, ?_, hgate, hunknown.mp ⟨_, hgate, rfl⟩, hmake, hbuilt _ _ _ _ _ hmake, ?_⟩
  · exact ((hreports engine "door" ()).of_raises hinvocations hraises).2
  · exact hexpr (.application broken) () _ rfl

end Rulebook
