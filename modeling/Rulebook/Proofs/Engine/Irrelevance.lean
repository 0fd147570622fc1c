import Rulebook.Proofs.Engine.Addition
import Rulebook.Proofs.Evaluation.Reporting

/-! # Rules that make no difference

The result of a function is steady if it depends on the argument alone; the function may still
count its calls, or write them down. Where all functions are steady, so are evaluations: the world
that other rules leave behind cannot be told from the one they found (`Eval.Composed.steady`). Then
a rule whose condition is false has no part in a resolution, wherever it stands. A rule behind the
deciding candidate is never looked at, whatever the functions are.
-/

set_option autoImplicit false

namespace Rulebook

variable {World α : Type}

/-! ## Steady functions -/

/-- Whatever the world, the function has the same result over the same argument. -/
def Host.Steady (host : Host World) (function : FunctionRef) : Prop :=
  ∀ argument v w, (host.execute function argument v).1 = (host.execute function argument w).1

/-- Whatever the world, the evaluation has the same result and makes the same calls. -/
def Eval.Steady (m : Eval World α) : Prop :=
  ∀ v w, (m v).result = (m w).result ∧ (m v).invocations = (m w).invocations

variable {host : Host World} {ctx : Context}

/-- A run all of whose functions are steady is the same in another world. -/
theorem Eval.Composed.eq_of_steady {m : Eval World α} (h : m.Composed host) :
    ∀ v w, (∀ i ∈ (m v).invocations, host.Steady i.function) →
      (m v).result = (m w).result ∧ (m v).invocations = (m w).invocations := by
  induction h with
  | pure a => exact fun _ _ _ => ⟨rfl, rfl⟩
  | fail _ => exact fun _ _ _ => ⟨rfl, rfl⟩
  | invoke function argument =>
    intro v w hsteady
    have hfunction : host.Steady function := hsteady ⟨function, argument⟩ List.mem_cons_self
    exact ⟨congrArg (·.mapError (EvalError.function function.name)) (hfunction argument v w), rfl⟩
  | @bind _ _ m f _ _ ihm ihf =>
    intro v w hsteady
    cases hm : (m v).result with
    | error e =>
      rw [bind_error hm] at hsteady
      obtain ⟨hresult, hinvocations⟩ := ihm v w hsteady
      rw [bind_error hm, bind_error (hresult ▸ hm), hinvocations]
      exact ⟨rfl, rfl⟩
    | ok a =>
      simp only [bind_ok hm, List.forall_mem_append] at hsteady
      obtain ⟨hresult, hinvocations⟩ := ihm v w hsteady.1
      obtain ⟨hresult', hinvocations'⟩ := ihf a (m v).world (m w).world hsteady.2
      rw [bind_ok hm, bind_ok (hresult ▸ hm), hinvocations, hresult', hinvocations']
      exact ⟨rfl, rfl⟩

theorem Eval.Composed.steady {steps : List Step} {m : Eval World α} (h : m.Composed host)
    (hfollows : m.Follows host ctx steps)
    (hsteady : ∀ call ∈ steps.filterMap Step.call?, host.Steady call.function) : m.Steady := by
  refine fun v w => h.eq_of_steady v w fun i hi => ?_
  obtain ⟨call, hcall, hfunction⟩ := hfollows.among hi
  rw [← hfunction]
  exact hsteady call hcall

theorem Rule.apply_steady {r : Rule} (h : ∀ call ∈ r.calls, host.Steady call.function) :
    (r.apply host ctx).Steady :=
  r.apply_composed.steady r.apply_follows h

theorem RuleSet.firstMatch_steady {rules : List Rule}
    (h : ∀ r ∈ rules, ∀ call ∈ r.calls, host.Steady call.function) :
    (firstMatch host ctx rules).Steady := by
  refine (firstMatch_composed rules).steady (firstMatch_follows rules) fun call hcall => ?_
  rw [List.filterMap_flatMap, List.mem_flatMap] at hcall
  obtain ⟨r, hr, hcall⟩ := hcall
  exact h r hr call hcall

/-! ## Rules that pass, and rules that come too late -/

/-- Why a rule makes no difference to a resolution of these candidates. -/
inductive Rule.Irrelevant (host : Host World) (ctx : Context) (candidates : List Rule)
    (rule : Rule) : Prop where
  /-- Its condition is false. -/
  | unmet {c : Condition} {w : World} :
      rule.condition = some c → (c.evaluate host ctx w).result = .ok false →
      Irrelevant host ctx candidates rule
  /-- A candidate that may be tried before it decides. -/
  | late {before after : List Rule} {decisive : Rule} {w w' : World} {is : List Invocation} :
      candidates = before ++ decisive :: after → Decided host ctx before decisive w is w' →
      decisive.le rule = true → Irrelevant host ctx candidates rule

theorem Rule.apply_of_unmet {r : Rule} {c : Condition} {w : World} (hc : r.condition = some c)
    (h : (c.evaluate host ctx w).result = .ok false) : (r.apply host ctx w).result = .ok none := by
  rw [apply_of_some hc, Eval.bind_ok h]
  rfl

namespace RuleSet

variable {before after : List Rule} {rule : Rule}

/-- A rule that passes in every world may be left out. -/
theorem firstMatch_insert_of_pass (hpass : ∀ w, (rule.apply host ctx w).result = .ok none)
    (hafter : (firstMatch host ctx after).Steady) (w : World) :
    (firstMatch host ctx (before ++ rule :: after) w).result =
      (firstMatch host ctx (before ++ after) w).result := by
  induction before generalizing w with
  | nil =>
    rw [List.nil_append, List.nil_append, firstMatch_cons_of_pass (hpass w), Run.preceded_result]
    exact (hafter _ w).1
  | cons r before ih =>
    rw [List.cons_append, List.cons_append]
    by_cases hr : (r.apply host ctx w).result = .ok none
    · rw [firstMatch_cons_of_pass hr, firstMatch_cons_of_pass hr, Run.preceded_result,
        Run.preceded_result, ih]
    · rw [firstMatch_cons_of_ne hr, firstMatch_cons_of_ne hr]

/-- A rule behind the deciding one leaves the whole run as it is. -/
theorem firstMatch_insert_of_decided {first last earlier later : List Rule} {decisive : Rule}
    {w w' : World} {is : List Invocation} (hd : Decided host ctx first decisive w is w')
    (hsplit : earlier ++ later = first ++ decisive :: last) (hlater : decisive ∉ later) :
    firstMatch host ctx (earlier ++ rule :: later) w =
      firstMatch host ctx (first ++ decisive :: last) w := by
  rcases List.append_eq_append_iff.mp hsplit with ⟨middle, rfl, rfl⟩ | ⟨middle, rfl, hlast⟩
  · exact absurd (List.mem_append_right middle List.mem_cons_self) hlater
  · cases middle with
    | nil =>
      rw [List.nil_append] at hlast
      exact absurd (hlast ▸ List.mem_cons_self) hlater
    | cons r middle =>
      obtain ⟨rfl, -⟩ := List.cons.inj hlast
      rw [List.append_assoc, List.cons_append, firstMatch_of_decided hd, firstMatch_of_decided hd]

end RuleSet

/-! ## Additions -/

namespace Engine

variable {engine left : Engine} {rules previous : List Rule} {rule : Rule} {id : String}

theorem execute_of_candidates (h : engine.candidates id = .ok previous) (w : World) :
    engine.execute host ctx id w =
      (RuleSet.firstMatch host ctx previous w).map Outcome.ofOption := by
  obtain ⟨set, hset, rfl⟩ := ruleSet_of_candidates h
  rw [execute_of_ok hset, Eval.bind_pure_apply, RuleSet.resolve]

theorem execute_steady (h : engine.candidates id = .ok previous)
    (hsteady : ∀ r ∈ previous, ∀ call ∈ r.calls, host.Steady call.function) :
    (engine.execute host ctx id).Steady := by
  intro v w
  have hmatch : (RuleSet.firstMatch host ctx previous).Steady := RuleSet.firstMatch_steady hsteady
  obtain ⟨hresult, hinvocations⟩ := hmatch v w
  rw [execute_of_candidates h, execute_of_candidates h, Run.map_result, Run.map_result, hresult]
  exact ⟨rfl, hinvocations⟩

/-- An accepted rule goes behind exactly those candidates that may be tried before it. -/
theorem Holds.addRule_place (h : engine.Holds rules)
    (hprevious : engine.candidates rule.id = .ok previous)
    (hadd : engine.addRule rule = .ok left) :
    ∃ earlier later, previous = earlier ++ later ∧
      left.candidates rule.id = .ok (earlier ++ rule :: later) ∧
      (∀ r ∈ earlier, r.le rule = true) ∧ ∀ r ∈ later, r.le rule = false := by
  have hstored : (engine.stored rule.id).rules = previous := by
    rw [← candidates_getD, hprevious]
    rfl
  have hsorted : previous.Pairwise (Rule.le · · = true) := by
    rw [← hstored, h.stored_rules]
    exact List.pairwise_mergeSort Rule.le_trans Rule.le_total _
  have hcandidates := h.candidates_addRule hadd
  rw [hstored] at hcandidates
  exact ⟨_, _, List.takeWhile_append_dropWhile.symm, hcandidates,
    fun r hr => List.mem_takeWhile_imp (p := (Rule.le · rule)) hr,
    not_le_of_mem_dropWhile Rule.le_trans hsorted⟩

section Placed

variable {earlier later : List Rule} (hprevious : engine.candidates id = .ok (earlier ++ later))
  (hcandidates : left.candidates id = .ok (earlier ++ rule :: later))
  (hlater : ∀ r ∈ later, r.le rule = false)

include hprevious hcandidates hlater

theorem execute_added_of_decided {before after : List Rule} {decisive : Rule} {w w' : World}
    {is : List Invocation} (hsplit : earlier ++ later = before ++ decisive :: after)
    (hd : Decided host ctx before decisive w is w') (hle : decisive.le rule = true) :
    left.execute host ctx id w = engine.execute host ctx id w := by
  have hnot : decisive ∉ later := by
    intro hmem
    rw [hlater decisive hmem] at hle
    cases hle
  rw [execute_of_candidates hcandidates, execute_of_candidates hprevious, hsplit,
    RuleSet.firstMatch_insert_of_decided hd hsplit hnot]

theorem execute_added_of_irrelevant
    (hsteady : ∀ r ∈ rule :: (earlier ++ later), ∀ call ∈ r.calls, host.Steady call.function)
    (hrule : rule.Irrelevant host ctx (earlier ++ later)) (v w : World) :
    (left.execute host ctx id v).result = (engine.execute host ctx id w).result := by
  obtain ⟨hself, hothers⟩ := List.forall_mem_cons.mp hsteady
  -- It is enough to compare the two executions in one world.
  have hengine : (engine.execute host ctx id).Steady := execute_steady hprevious hothers
  have hleft : (left.execute host ctx id).Steady :=
    execute_steady hcandidates fun r hr => hsteady r (List.perm_middle.mem_iff.mp hr)
  cases hrule with
  | @unmet c w' hc hfalse =>
    have hpass (w : World) : (rule.apply host ctx w).result = .ok none := by
      rw [(Rule.apply_steady hself w w').1, Rule.apply_of_unmet hc hfalse]
    have hafter : (RuleSet.firstMatch host ctx later).Steady :=
      RuleSet.firstMatch_steady fun r hr => hothers r (List.mem_append_right earlier hr)
    rw [(hleft v w).1, execute_of_candidates hcandidates, execute_of_candidates hprevious,
      Run.map_result, Run.map_result, RuleSet.firstMatch_insert_of_pass hpass hafter]
  | @late before after decisive w' w'' is hsplit hd hle =>
    rw [(hleft v w').1, execute_added_of_decided hprevious hcandidates hlater hsplit hd hle,
      (hengine w' w).1]

end Placed

end Engine

/-! ## Main statement -/

/-- After every history, let a rule be accepted under an id that has candidates. It goes behind the
candidates that may be tried before it and before the others. If one of the former decides an
execution, the run stays as it is. If that is so or the condition of the rule is false, and if the
functions that the candidates and the rule call are steady, the result stays the same, whatever the
worlds of the two executions. -/
theorem irrelevant_rules_are_invisible (registry : Registry) (world : World)
    (history : List (Request World)) (rule : Rule) {previous : List Rule} :
    let engine := ((Session.start registry world).afterInPlace history).engine
    let added := engine.addRuleInPlace rule
    engine.candidates rule.id = .ok previous → added.1 = .ok () →
    (∃ earlier later, previous = earlier ++ later ∧
      added.2.candidates rule.id = .ok (earlier ++ rule :: later) ∧
      (∀ r ∈ earlier, r.le rule = true) ∧ ∀ r ∈ later, r.le rule = false) ∧
    ∀ (host : Host World) (ctx : Context),
      (∀ before decisive after w is w', previous = before ++ decisive :: after →
        Decided host ctx before decisive w is w' → decisive.le rule = true →
        added.2.execute host ctx rule.id w = engine.execute host ctx rule.id w) ∧
      ((∀ r ∈ rule :: previous, ∀ call ∈ r.calls, host.Steady call.function) →
        rule.Irrelevant host ctx previous →
        ∀ v w, (added.2.execute host ctx rule.id v).result =
          (engine.execute host ctx rule.id w).result) := by
  intro engine added hprevious haccepted
  have hstart : (Session.start registry world).engine.Consistent := .start registry
  have hconsistent : engine.Consistent := Session.consistent_afterInPlace hstart history
  have hholds : engine.Holds _ := Session.holds_afterInPlace hstart (.start registry) history
  have hadd : engine.addRule rule = .ok added.2 :=
    Engine.addRule_of_addRuleInPlace hconsistent.ordered haccepted
  obtain ⟨earlier, later, rfl, hcandidates, hearlier, hlater⟩ :=
    hholds.addRule_place hprevious hadd
  refine ⟨⟨earlier, later, rfl, hcandidates, hearlier, hlater⟩, fun host ctx => ⟨?_, ?_⟩⟩
  · intro before decisive after w is w' hsplit hd hle
    exact Engine.execute_added_of_decided hprevious hcandidates hlater hsplit hd hle
  · exact Engine.execute_added_of_irrelevant hprevious hcandidates hlater

/-- A function counts its calls. One rule is tried first and is not met; the other one is tied to
the rule that decides and comes behind it, and by itself it fails. -/
theorem irrelevant_rules_are_invisible_counted :
    let host : Host Nat :=
      { hostedSignature := fun _ => ⟨.boolean, .boolean⟩
        run := fun _ argument count => (.ok argument, count + 1)
        fetch := fun _ _ count => (.error "no network", count) }
    let asked : Expr :=
      .application ⟨.hosted "ask" 0, .value (.element ⟨"open", .boolean, by decide⟩), none⟩
    let key : Expr := .element ⟨"key", .text, by decide⟩
    let text (label : String) : Expr := .constant (.ofDatum (.text label))
    let isOpen (answer : Bool) : Condition := ⟨asked, .eq, .constant (.ofDatum (.bool answer))⟩
    let gate := Rule.conditioned "door" (isOpen true) (text "in") 5
    let wall := Rule.fallback "door" (text "out")
    let shut := Rule.conditioned "door" (isOpen false) key 1
    let stairs := Rule.conditioned "door" ⟨key, .eq, text "brass"⟩ (text "up") 5
    let history : List (Request Nat) := [.addRule gate, .addRule wall]
    let engine := ((Session.start ∅ 0).afterInPlace history).engine
    let ctx : Context := ⟨[("open", .bool true)]⟩
    let result (engine : Engine) (count : Nat) := (engine.execute host ctx "door" count).result
    engine.candidates "door" = .ok [gate, wall] ∧
      (stairs.apply host ctx 0).result = .error (.missingReference "key") ∧
      (engine.addRuleInPlace shut).1 = .ok () ∧ (engine.addRuleInPlace stairs).1 = .ok () ∧
      (∀ count, result (engine.addRuleInPlace shut).2 count = .ok (.matched (.text "in"))) ∧
      ∀ count, result (engine.addRuleInPlace stairs).2 count = .ok (.matched (.text "in")) := by
  intro host asked key text isOpen gate wall shut stairs history engine ctx result
  have hstart : (Session.start ∅ 0).engine.Consistent := .start ∅
  have h : engine.Holds [gate, wall] := Session.holds_afterInPlace hstart (.start ∅) history
  have hsorted : [gate, wall].Pairwise (Rule.le · · = true) := by decide
  have horder : Rule.inOrder "door" [gate, wall] = [gate, wall] :=
    List.mergeSort_of_pairwise hsorted
  have hcandidates : engine.candidates "door" = .ok [gate, wall] := by
    rw [h.candidates_eq, horder]
    rfl
  have hbefore : result engine 0 = .ok (.matched (.text "in")) := by
    show (engine.execute host ctx "door" 0).result = _
    rw [Engine.execute_of_candidates hcandidates]
    rfl
  have haccepted {rule : Rule} (hcondition : rule.isFallback = false) :
      (engine.addRuleInPlace rule).1 = .ok () := by
    cases hadd : engine.addRule rule with
    | error e =>
      rw [(Engine.addRule_eq_error_iff.mp hadd).1] at hcondition
      cases hcondition
    | ok left => rw [Engine.addRuleInPlace_of_ok hadd]
  have hask : ∀ call ∈ gate.calls, host.Steady call.function :=
    List.forall_mem_singleton.mpr fun _ _ _ => rfl
  have hnone {rule : Rule} (h : rule.calls = []) :
      ∀ call ∈ rule.calls, host.Steady call.function := h ▸ List.forall_mem_nil _
  have hcalls {rule : Rule} (h : ∀ call ∈ rule.calls, host.Steady call.function) :
      ∀ r ∈ [rule, gate, wall], ∀ call ∈ r.calls, host.Steady call.function := by
    simp only [List.forall_mem_cons]
    exact ⟨h, hask, hnone rfl, List.forall_mem_nil _⟩
  have hgate : (gate.apply host ctx 0).result = .ok (some (.text "in")) := rfl
  have hdecided : Decided host ctx [] gate 0 [] 0 := ⟨.nil, by rw [hgate]; exact nofun⟩
  have hshut : (engine.addRuleInPlace shut).1 = .ok () := haccepted rfl
  have hstairs : (engine.addRuleInPlace stairs).1 = .ok () := haccepted rfl
  obtain ⟨-, hunmet⟩ := irrelevant_rules_are_invisible ∅ 0 history shut hcandidates hshut
  obtain ⟨-, hlate⟩ := irrelevant_rules_are_invisible ∅ 0 history stairs hcandidates hstairs
  refine ⟨hcandidates, rfl, hshut, hstairs, fun count => ?_, fun count => ?_⟩
  · have hrule : shut.Irrelevant host ctx [gate, wall] := .unmet (w := 0) rfl rfl
    exact ((hunmet host ctx).2 (hcalls hask) hrule count 0).trans hbefore
  · have hsplit : [gate, wall] = [] ++ gate :: [wall] := rfl
    have hrule : stairs.Irrelevant host ctx [gate, wall] := .late hsplit hdecided rfl
    exact ((hlate host ctx).2 (hcalls (hnone rfl)) hrule count 0).trans hbefore

end Rulebook
