import Rulebook.Proofs.Evaluation.Rule
import Rulebook.Proofs.Evaluation.Tree

/-! # An evaluation depends on its references only

Two contexts agree on some elements when they hold the same under the codes of these elements,
which includes holding nothing. Two contexts that agree on the references of a tree cannot be told
apart by evaluating it: result, invocations and world are the same from every world. The same
follows for conditions, rules, rule sets and engines, whose references are those of all trees in
them.

Collecting references and evaluating are two recursions over a tree; `Tree.evaluate_congr` runs
them side by side.
-/

set_option autoImplicit false

namespace Rulebook

/-! ## Sets of elements -/

namespace Element

theorem mem_insert {a e : Element} {l : List Element} : a ∈ insert e l ↔ a = e ∨ a ∈ l := by
  induction l with
  | nil => simp [insert]
  | cons b rest ih =>
    rw [insert]
    split
    · exact List.mem_cons
    · split
      · next h => simp [h]
      · rw [List.mem_cons, ih, List.mem_cons]
        exact or_left_comm

/-- The set of a list has the members of the list. -/
theorem mem_set {a : Element} {l : List Element} : a ∈ set l ↔ a ∈ l := by
  have h (acc : List Element) :
      a ∈ l.foldl (fun acc e => insert e acc) acc ↔ a ∈ acc ∨ a ∈ l := by
    induction l generalizing acc with
    | nil => simp
    | cons e rest ih =>
      rw [List.foldl_cons, ih, mem_insert, List.mem_cons]
      exact or_assoc.trans or_left_comm
  exact (h []).trans (or_iff_right (List.not_mem_nil))

end Element

/-! ## Trees -/

/-- The contexts hold the same under the codes of all these elements. -/
def Context.AgreeOn (elements : List Element) (c₁ c₂ : Context) : Prop :=
  ∀ e ∈ elements, c₁.get? e.code = c₂.get? e.code

theorem Context.AgreeOn.append {l l' : List Element} {c₁ c₂ : Context} :
    AgreeOn (l ++ l') c₁ c₂ ↔ AgreeOn l c₁ c₂ ∧ AgreeOn l' c₁ c₂ :=
  List.forall_mem_append

theorem Context.agreeOn_set {l : List Element} {c₁ c₂ : Context} :
    AgreeOn (Element.set l) c₁ c₂ ↔ AgreeOn l c₁ c₂ := by
  simp only [AgreeOn, Element.mem_set]

theorem Context.AgreeOn.of_flatMap {α : Type} {f : α → List Element} {l : List α}
    {c₁ c₂ : Context} (h : AgreeOn (l.flatMap f) c₁ c₂) {a : α} (ha : a ∈ l) :
    AgreeOn (f a) c₁ c₂ :=
  fun e he => h e (List.mem_flatMap_of_mem ha he)

theorem Element.evaluate_congr {e : Element} {c₁ c₂ : Context}
    (h : c₁.get? e.code = c₂.get? e.code) : e.evaluate c₁ = e.evaluate c₂ := by
  rw [evaluate, evaluate, h]

theorem Eval.mapM_congr {World α β : Type} {f g : α → Eval World β} {l : List α}
    (h : ∀ a ∈ l, f a = g a) : l.mapM f = l.mapM g := by
  induction l with
  | nil => rfl
  | cons a rest ih =>
    obtain ⟨ha, hrest⟩ := List.forall_mem_cons.mp h
    rw [List.mapM_cons, List.mapM_cons, ha, ih hrest]

section Congruence

variable {World : Type} (host : Host World) {c₁ c₂ : Context}

theorem Tree.evaluate_congr :
    (∀ v : Expr, Context.AgreeOn v.elements c₁ c₂ → v.evaluate host c₁ = v.evaluate host c₂) ∧
      ∀ p : Param, Context.AgreeOn p.elements c₁ c₂ →
        p.materialize host c₁ = p.materialize host c₂ := by
  apply Tree.induction
  case constant => exact fun _ _ => rfl
  case element =>
    intro reference h
    rw [Expr.evaluate, Expr.evaluate,
      Element.evaluate_congr (h reference (List.mem_singleton_self _))]
  case application =>
    intro call ih h
    rw [Expr.evaluate, Expr.evaluate, ih h]
  case scalar => exact fun _ _ => rfl
  case value => exact fun _ ih => ih
  case mapping =>
    intro entries ih h
    rw [Param.elements, Param.entryElements_eq] at h
    simp only [Param.materialize, Param.materializeEntries_eq]
    rw [Eval.mapM_congr fun e he => by rw [ih e he (h.of_flatMap he)]]
  case sequence =>
    intro items ih h
    rw [Param.elements, Param.itemElements_eq] at h
    simp only [Param.materialize, Param.materializeItems_eq]
    rw [Eval.mapM_congr fun p hp => ih p hp (h.of_flatMap hp)]
  case record =>
    intro typeName fields ih h
    rw [Param.elements, Param.fieldElements_eq] at h
    simp only [Param.materialize, Param.materializeFields_eq]
    rw [Eval.mapM_congr fun f hf => by rw [ih f hf (h.of_flatMap hf)]]

theorem Condition.evaluate_congr {c : Condition} (h : Context.AgreeOn c.elements c₁ c₂) :
    c.evaluate host c₁ = c.evaluate host c₂ := by
  obtain ⟨hl, hr⟩ := Context.AgreeOn.append.mp h
  rw [evaluate, evaluate, (Tree.evaluate_congr host).1 _ hl, (Tree.evaluate_congr host).1 _ hr]

theorem Rule.apply_congr {r : Rule} (h : Context.AgreeOn r.elements c₁ c₂) :
    r.apply host c₁ = r.apply host c₂ := by
  obtain ⟨hc, ha⟩ := Context.AgreeOn.append.mp h
  have haction := (Tree.evaluate_congr host).1 _ ha
  cases hr : r.condition with
  | none => rw [apply_of_none hr, apply_of_none hr, haction]
  | some c =>
    rw [hr] at hc
    rw [apply_of_some hr, apply_of_some hr, haction, Condition.evaluate_congr host hc]

theorem RuleSet.firstMatch_congr {rules : List Rule}
    (h : Context.AgreeOn (rules.flatMap Rule.elements) c₁ c₂) :
    firstMatch host c₁ rules = firstMatch host c₂ rules := by
  induction rules with
  | nil => rfl
  | cons r rest ih =>
    obtain ⟨hr, hrest⟩ := Context.AgreeOn.append.mp h
    rw [firstMatch, firstMatch, Rule.apply_congr host hr, ih hrest]

theorem Engine.execute_congr {engine : Engine} {id : String}
    (h : ∀ elements, engine.dependencies id = .ok elements → Context.AgreeOn elements c₁ c₂) :
    engine.execute host c₁ id = engine.execute host c₂ id := by
  cases hs : engine.ruleSet id with
  | error e => rw [execute_of_error hs, execute_of_error hs]
  | ok set =>
    have hset : Context.AgreeOn set.references c₁ c₂ := h _ (dependencies_of_ok hs)
    have hres : set.resolve host c₁ = set.resolve host c₂ :=
      RuleSet.firstMatch_congr host (Context.agreeOn_set.mp hset)
    rw [execute_of_ok hs, execute_of_ok hs, hres]

end Congruence

/-! ## Main statement -/

/-- Contexts that agree on the references of a tree, a condition, a rule or an id are not told apart
by evaluating it: from every world the result, the invocations and the world left behind are the
same. -/
theorem evaluation_reads_references_only {World : Type} (host : Host World) (c₁ c₂ : Context) :
    (∀ v : Expr, Context.AgreeOn v.references c₁ c₂ → v.evaluate host c₁ = v.evaluate host c₂) ∧
    (∀ p : Param, Context.AgreeOn p.references c₁ c₂ →
      p.materialize host c₁ = p.materialize host c₂) ∧
    (∀ c : Condition, Context.AgreeOn c.references c₁ c₂ →
      c.evaluate host c₁ = c.evaluate host c₂) ∧
    (∀ r : Rule, Context.AgreeOn r.references c₁ c₂ → r.apply host c₁ = r.apply host c₂) ∧
    ∀ (engine : Engine) (id : String),
      (∀ elements, engine.dependencies id = .ok elements → Context.AgreeOn elements c₁ c₂) →
        engine.execute host c₁ id = engine.execute host c₂ id := by
  refine ⟨fun v h => ?_, fun p h => ?_, fun c h => ?_, fun r h => ?_, fun engine id h => ?_⟩
  · exact (Tree.evaluate_congr host).1 v (Context.agreeOn_set.mp h)
  · exact (Tree.evaluate_congr host).2 p (Context.agreeOn_set.mp h)
  · exact Condition.evaluate_congr host (Context.agreeOn_set.mp h)
  · exact Rule.apply_congr host (Context.agreeOn_set.mp h)
  · exact Engine.execute_congr host h

/-- An entry that no tree refers to makes no difference. -/
theorem evaluation_reads_references_only_greeting :
    let name : Element := ⟨"name", .text, by decide⟩
    let call : Expr := .application ⟨.hosted "echo" 0, .value (.element name), none⟩
    let known : Condition := ⟨call, .startsWith, .constant (.ofDatum (.text "A"))⟩
    let rule := Rule.conditioned "greeting" known (.constant (.ofDatum (.text "Hello"))) 1
    let engine : Engine := { rules := [("greeting", ⟨[⟨0, rule⟩]⟩)], nextSequence := 1 }
    let host := Host.echo fun _ => ⟨.text, .text⟩
    let ann : Context := ⟨[("name", .text "Ann")]⟩
    let older : Context := ⟨[("age", .text "old"), ("name", .text "Ann")]⟩
    call.evaluate host ann = call.evaluate host older ∧
      (Param.value call).materialize host ann = (Param.value call).materialize host older ∧
      known.evaluate host ann = known.evaluate host older ∧
      rule.apply host ann = rule.apply host older ∧
      engine.execute host ann "greeting" = engine.execute host older "greeting" := by
  intro name call known rule engine host ann older
  have hagree : Context.AgreeOn [name] ann older := by
    intro e he
    cases List.mem_singleton.mp he
    rfl
  obtain ⟨hexpr, hparam, hcondition, hrule, hengine⟩ :=
    evaluation_reads_references_only host ann older
  refine ⟨hexpr call hagree, hparam (.value call) hagree, hcondition known hagree,
    hrule rule hagree, hengine engine "greeting" fun elements h => ?_⟩
  cases h
  exact hagree

end Rulebook
