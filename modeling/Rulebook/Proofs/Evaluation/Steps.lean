import Mathlib.Data.List.Basic
import Rulebook.Proofs.Evaluation.Rule
import Rulebook.Proofs.Evaluation.Tree

/-! # The steps of an evaluation

All that an evaluation can do is to look up an element, to check the content of a record field
against its slot, to run the function of a call and to apply the operator of a condition.
`Expr.steps`, `Param.steps`, `Condition.steps` and `Rule.steps` list these steps in evaluation
order: a call after the steps of its parameter, a check after the steps of the field, an operator
after the steps of both operands. The elements and the calls in a tree are parts of that list.

Nothing else happens: `Expr.evaluate_confined` and its like bound the failures and the invocations
of an evaluation by those of its steps.
-/

set_option autoImplicit false

namespace Rulebook

/-- One thing that an evaluation does. -/
inductive Step where
  | lookup (reference : Element)
  /-- The content of a field of a record of type `record` is checked. -/
  | check (record : String) (field : Field Param)
  /-- The function of a call runs over the materialized parameter. -/
  | run (call : Call)
  /-- The operator of a condition is applied to the values of its operands. -/
  | compare (op : Operator)

namespace Step

def element? : Step → Option Element
  | lookup reference => some reference
  | _ => none

def call? : Step → Option Call
  | run call => some call
  | _ => none

def field? : Step → Option (String × Field Param)
  | check record f => some (record, f)
  | _ => none

end Step

/-! ## Lists of steps -/

mutual

/-- The steps of an expression, in evaluation order. -/
def Expr.steps : Expr → List Step
  | .constant _ => []
  | .element reference => [.lookup reference]
  | .application call => call.parameter.steps ++ [.run call]

def Param.steps : Param → List Step
  | .scalar _ => []
  | .value node => node.steps
  | .mapping entries => Param.entrySteps entries
  | .sequence items => Param.itemSteps items
  | .record typeName fields => Param.fieldSteps typeName fields

def Param.entrySteps : List (String × Param) → List Step
  | [] => []
  | e :: rest => e.2.steps ++ Param.entrySteps rest

def Param.itemSteps : List Param → List Step
  | [] => []
  | p :: rest => p.steps ++ Param.itemSteps rest

def Param.fieldSteps (record : String) : List (Field Param) → List Step
  | [] => []
  | f :: rest => f.node.steps ++ .check record f :: Param.fieldSteps record rest

end

/-- The steps of a condition, in evaluation order. -/
def Condition.steps (c : Condition) : List Step :=
  c.left.steps ++ c.right.steps ++ [.compare c.op]

/-- The steps of a rule whose condition holds, in evaluation order. -/
def Rule.steps (r : Rule) : List Step :=
  (r.condition.map Condition.steps).getD [] ++ r.action.steps

namespace Param

theorem entrySteps_eq (entries : List (String × Param)) :
    entrySteps entries = entries.flatMap fun e => e.2.steps := by
  induction entries with
  | nil => rfl
  | cons e rest ih => rw [entrySteps, ih, List.flatMap_cons]

theorem itemSteps_eq (items : List Param) : itemSteps items = items.flatMap steps := by
  induction items with
  | nil => rfl
  | cons p rest ih => rw [itemSteps, ih, List.flatMap_cons]

theorem fieldSteps_eq (record : String) (fields : List (Field Param)) :
    fieldSteps record fields = fields.flatMap fun f => f.node.steps ++ [.check record f] := by
  induction fields with
  | nil => rfl
  | cons f rest ih =>
    rw [fieldSteps, ih, List.flatMap_cons, List.append_assoc, List.singleton_append]

end Param

/-- The calls in an expression, each after those in its parameter. -/
def Expr.calls (v : Expr) : List Call :=
  v.steps.filterMap Step.call?

def Param.calls (p : Param) : List Call :=
  p.steps.filterMap Step.call?

/-- The record fields in an expression, each with the type name of its record. -/
def Expr.fields (v : Expr) : List (String × Field Param) :=
  v.steps.filterMap Step.field?

def Param.fields (p : Param) : List (String × Field Param) :=
  p.steps.filterMap Step.field?

/-! ## Elements, calls and fields among the steps -/

theorem Step.run_mem_iff {call : Call} {steps : List Step} :
    .run call ∈ steps ↔ call ∈ steps.filterMap Step.call? := by
  rw [List.mem_filterMap]
  constructor
  · exact fun h => ⟨_, h, rfl⟩
  · rintro ⟨step, hs, hc⟩
    cases step <;> cases hc
    exact hs

theorem Step.lookup_mem_iff {reference : Element} {steps : List Step} :
    .lookup reference ∈ steps ↔ reference ∈ steps.filterMap Step.element? := by
  rw [List.mem_filterMap]
  constructor
  · exact fun h => ⟨_, h, rfl⟩
  · rintro ⟨step, hs, hc⟩
    cases step <;> cases hc
    exact hs

theorem Step.check_mem_iff {record : String} {f : Field Param} {steps : List Step} :
    .check record f ∈ steps ↔ (record, f) ∈ steps.filterMap Step.field? := by
  rw [List.mem_filterMap]
  constructor
  · exact fun h => ⟨_, h, rfl⟩
  · rintro ⟨step, hs, hc⟩
    cases step <;> cases hc
    exact hs

/-- The elements in a tree are the ones that its steps look up. -/
theorem filterMap_element?_steps :
    (∀ v : Expr, v.steps.filterMap Step.element? = v.elements) ∧
      ∀ p : Param, p.steps.filterMap Step.element? = p.elements := by
  apply Tree.induction
  case constant => exact fun _ => rfl
  case element => exact fun _ => rfl
  case application =>
    intro call ih
    simp only [Expr.steps, Expr.elements, List.filterMap_append, ih]
    exact List.append_nil _
  case scalar => exact fun _ => rfl
  case value => exact fun _ ih => ih
  case mapping =>
    intro entries ih
    simp only [Param.steps, Param.elements, Param.entrySteps_eq, Param.entryElements_eq,
      List.filterMap_flatMap]
    exact List.flatMap_congr ih
  case sequence =>
    intro items ih
    simp only [Param.steps, Param.elements, Param.itemSteps_eq, Param.itemElements_eq,
      List.filterMap_flatMap]
    exact List.flatMap_congr ih
  case record =>
    intro typeName fields ih
    simp only [Param.steps, Param.elements, Param.fieldSteps_eq, Param.fieldElements_eq,
      List.filterMap_flatMap, List.filterMap_append]
    refine List.flatMap_congr fun f hf => ?_
    rw [ih f hf]
    exact List.append_nil _

theorem Expr.lookup_mem_steps {v : Expr} {reference : Element} :
    .lookup reference ∈ v.steps ↔ reference ∈ v.elements := by
  rw [Step.lookup_mem_iff, filterMap_element?_steps.1]

theorem Condition.lookup_mem_steps {c : Condition} {reference : Element} :
    .lookup reference ∈ c.steps ↔ reference ∈ c.elements := by
  rw [steps, elements, List.mem_append, List.mem_append, List.mem_append, List.mem_singleton,
    Expr.lookup_mem_steps, Expr.lookup_mem_steps]
  exact or_iff_left nofun

theorem Rule.lookup_mem_steps {r : Rule} {reference : Element} :
    .lookup reference ∈ r.steps ↔ reference ∈ r.elements := by
  rw [steps, elements, List.mem_append, List.mem_append, Expr.lookup_mem_steps]
  cases r.condition with
  | none => exact or_congr_left (iff_of_false List.not_mem_nil List.not_mem_nil)
  | some c => exact or_congr_left Condition.lookup_mem_steps

theorem Expr.calls_application (call : Call) :
    (application call).calls = call.parameter.calls ++ [call] := by
  rw [calls, steps, List.filterMap_append]
  rfl

theorem Expr.fields_application (call : Call) :
    (application call).fields = call.parameter.fields := by
  rw [fields, steps, List.filterMap_append]
  exact List.append_nil _

namespace Param

theorem calls_mapping (entries : List (String × Param)) :
    (mapping entries).calls = entries.flatMap fun e => e.2.calls := by
  rw [calls, steps, entrySteps_eq, List.filterMap_flatMap]
  rfl

theorem calls_sequence (items : List Param) : (sequence items).calls = items.flatMap calls := by
  rw [calls, steps, itemSteps_eq, List.filterMap_flatMap]
  rfl

theorem calls_record (typeName : String) (fields : List (Field Param)) :
    (record typeName fields).calls = fields.flatMap fun f => f.node.calls := by
  simp only [calls, steps, fieldSteps_eq, List.filterMap_flatMap, List.filterMap_append]
  exact List.flatMap_congr fun f _ => List.append_nil _

end Param

/-- The calls in the parameter of a call are calls in every tree that the call is in. -/
theorem Tree.calls_trans :
    (∀ v : Expr, ∀ call ∈ v.calls, ∀ c ∈ call.parameter.calls, c ∈ v.calls) ∧
      ∀ p : Param, ∀ call ∈ p.calls, ∀ c ∈ call.parameter.calls, c ∈ p.calls := by
  apply Tree.induction
  case constant =>
    intro literal call hcall
    cases hcall
  case element =>
    intro reference call hcall
    cases hcall
  case application =>
    intro outer ih call hcall c hc
    rw [Expr.calls_application, List.mem_append, List.mem_singleton] at hcall ⊢
    rcases hcall with hcall | rfl
    · exact .inl (ih call hcall c hc)
    · exact .inl hc
  case scalar =>
    intro d call hcall
    cases hcall
  case value => exact fun _ ih => ih
  case mapping =>
    intro entries ih call hcall c hc
    rw [Param.calls_mapping, List.mem_flatMap] at hcall ⊢
    obtain ⟨e, he, hcall⟩ := hcall
    exact ⟨e, he, ih e he call hcall c hc⟩
  case sequence =>
    intro items ih call hcall c hc
    rw [Param.calls_sequence, List.mem_flatMap] at hcall ⊢
    obtain ⟨p, hp, hcall⟩ := hcall
    exact ⟨p, hp, ih p hp call hcall c hc⟩
  case record =>
    intro typeName fields ih call hcall c hc
    rw [Param.calls_record, List.mem_flatMap] at hcall ⊢
    obtain ⟨f, hf, hcall⟩ := hcall
    exact ⟨f, hf, ih f hf call hcall c hc⟩

/-! ## An evaluation does no more than its steps -/

variable {World : Type} {host : Host World} {ctx : Context} {E : EvalError → Prop}
  {I : Invocation → Prop}

/-- A step by itself fails only with failures of `E` and makes only invocations of `I`. Checks and
calls meet only data that the tree below them can yield. -/
def Step.Confined (host : Host World) (ctx : Context) (E : EvalError → Prop)
    (I : Invocation → Prop) : Step → Prop
  | lookup reference => ∀ e, reference.evaluate ctx = .error e → E e
  | check record f => ∀ content, (f.node.materialize host ctx).Yields content →
      ∀ e, f.entry record content = .error e → E e
  | run call => ∀ argument, (call.parameter.materialize host ctx).Yields argument →
      (call.run host argument).Confined E I
  | compare op => ∀ left right e, op.apply left right = .error e → E e

theorem Step.Confined.mono {E' : EvalError → Prop} {I' : Invocation → Prop} {s : Step}
    (h : s.Confined host ctx E I) (hE : ∀ e, E e → E' e) (hI : ∀ i, I i → I' i) :
    s.Confined host ctx E' I' := by
  cases s with
  | lookup reference => exact fun e he => hE e (h e he)
  | check record f => exact fun content hcontent e he => hE e (h content hcontent e he)
  | run call => exact fun argument hargument => (h argument hargument).mono hE hI
  | compare op => exact fun left right e he => hE e (h left right e he)

theorem Tree.confined :
    (∀ v : Expr, (∀ s ∈ v.steps, s.Confined host ctx E I) → (v.evaluate host ctx).Confined E I) ∧
      ∀ p : Param, (∀ s ∈ p.steps, s.Confined host ctx E I) →
        (p.materialize host ctx).Confined E I := by
  apply Tree.induction
  case constant => exact fun literal _ => .pure literal.value
  case element =>
    intro reference h
    exact .ofExcept (h (.lookup reference) (List.mem_singleton_self _))
  case application =>
    intro call ih h
    rw [Expr.steps, List.forall_mem_append] at h
    exact (ih h.1).bind (h.2 (.run call) (List.mem_singleton_self _))
  case scalar => exact fun d _ => .pure d
  case value => exact fun _ ih => ih
  case mapping =>
    intro entries ih h
    rw [Param.steps, Param.entrySteps_eq] at h
    rw [Param.materialize, Param.materializeEntries_eq]
    refine .bind (.mapM fun e he => ?_) fun _ _ => .pure _
    refine .bind (ih e he fun s hs => ?_) fun _ _ => .pure _
    exact h s (List.mem_flatMap_of_mem he hs)
  case sequence =>
    intro items ih h
    rw [Param.steps, Param.itemSteps_eq] at h
    rw [Param.materialize, Param.materializeItems_eq]
    refine .bind (.mapM fun p hp => ih p hp fun s hs => ?_) fun _ _ => .pure _
    exact h s (List.mem_flatMap_of_mem hp hs)
  case record =>
    intro typeName fields ih h
    rw [Param.steps, Param.fieldSteps_eq] at h
    rw [Param.materialize, Param.materializeFields_eq]
    refine .bind (.mapM fun f hf => ?_) fun _ _ => .pure _
    have hf' : ∀ s ∈ f.node.steps ++ [.check typeName f], s.Confined host ctx E I :=
      fun s hs => h s (List.mem_flatMap_of_mem hf hs)
    rw [List.forall_mem_append] at hf'
    refine .bind (ih f hf hf'.1) fun content hc => .ofExcept ?_
    exact hf'.2 (.check typeName f) (List.mem_singleton_self _) content hc

theorem Expr.evaluate_confined {v : Expr} (h : ∀ s ∈ v.steps, s.Confined host ctx E I) :
    (v.evaluate host ctx).Confined E I :=
  Tree.confined.1 v h

theorem Param.materialize_confined {p : Param} (h : ∀ s ∈ p.steps, s.Confined host ctx E I) :
    (p.materialize host ctx).Confined E I :=
  Tree.confined.2 p h

theorem Condition.evaluate_confined {c : Condition} (h : ∀ s ∈ c.steps, s.Confined host ctx E I) :
    (c.evaluate host ctx).Confined E I := by
  simp only [steps, List.forall_mem_append, List.forall_mem_singleton] at h
  obtain ⟨⟨hl, hr⟩, hop⟩ := h
  exact (Expr.evaluate_confined hl).bind fun left _ =>
    (Expr.evaluate_confined hr).bind fun right _ => .ofExcept (hop left right)

theorem Rule.apply_confined {r : Rule} (h : ∀ s ∈ r.steps, s.Confined host ctx E I) :
    (r.apply host ctx).Confined E I := by
  rw [steps, List.forall_mem_append] at h
  have haction : (r.action.evaluate host ctx >>= fun d => pure (some d)).Confined E I :=
    (Expr.evaluate_confined h.2).bind fun d _ => .pure (some d)
  cases hc : r.condition with
  | none =>
    rw [apply_of_none hc]
    exact haction
  | some c =>
    rw [hc] at h
    rw [apply_of_some hc]
    refine (Condition.evaluate_confined h.1).bind fun holds _ => ?_
    cases holds with
    | true => exact haction
    | false => exact .pure none

theorem RuleSet.firstMatch_confined {rules : List Rule}
    (h : ∀ r ∈ rules, ∀ s ∈ r.steps, s.Confined host ctx E I) :
    (firstMatch host ctx rules).Confined E I := by
  induction rules with
  | nil => exact .pure none
  | cons r rest ih =>
    obtain ⟨hr, hrest⟩ := List.forall_mem_cons.mp h
    refine (Rule.apply_confined hr).bind fun value _ => ?_
    cases value with
    | some d => exact .pure (some d)
    | none => exact ih hrest

end Rulebook
