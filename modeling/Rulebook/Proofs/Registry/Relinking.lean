import Rulebook.Proofs.Registry.Growth
import Rulebook.Rule

/-! # Looking names up again

A tree holds its functions themselves; names were looked up when its calls were built. `relink`
looks each name up again, in whatever has become of the registry. In every registry that the first
one has grown into this gives the tree itself, so an evaluation that goes by names (`Expr.evaluateIn`,
`Rule.applyIn`) is the evaluation of the tree.
-/

set_option autoImplicit false

namespace Rulebook

/-! ## Trees with their names looked up again -/

mutual

/-- The expression with the function of each call looked up by its name. -/
def Expr.relink (registry : Registry) : Expr → Except EvalError Expr
  | .constant literal => .ok (.constant literal)
  | .element reference => .ok (.element reference)
  | .application call => do
    let function ← registry.get call.function.name
    let parameter ← call.parameter.relink registry
    return .application { function, parameter, expected := call.expected }

def Param.relink (registry : Registry) : Param → Except EvalError Param
  | .scalar d => .ok (.scalar d)
  | .value node => do
    let node ← node.relink registry
    return .value node
  | .mapping entries => do
    let entries ← Param.relinkEntries registry entries
    return .mapping entries
  | .sequence items => do
    let items ← Param.relinkItems registry items
    return .sequence items
  | .record typeName fields => do
    let fields ← Param.relinkFields registry fields
    return .record typeName fields

def Param.relinkEntries (registry : Registry) :
    List (String × Param) → Except EvalError (List (String × Param))
  | [] => .ok []
  | e :: rest => do
    let p ← e.2.relink registry
    let ps ← Param.relinkEntries registry rest
    return (e.1, p) :: ps

def Param.relinkItems (registry : Registry) : List Param → Except EvalError (List Param)
  | [] => .ok []
  | p :: rest => do
    let p ← p.relink registry
    let ps ← Param.relinkItems registry rest
    return p :: ps

def Param.relinkFields (registry : Registry) :
    List (Field Param) → Except EvalError (List (Field Param))
  | [] => .ok []
  | f :: rest => do
    let node ← f.node.relink registry
    let fs ← Param.relinkFields registry rest
    return { f with node } :: fs

end

def Condition.relink (registry : Registry) (c : Condition) : Except EvalError Condition := do
  let left ← c.left.relink registry
  let right ← c.right.relink registry
  return { c with left, right }

def Rule.relink (registry : Registry) (r : Rule) : Except EvalError Rule := do
  let condition ←
    match r.condition with
    | some c => some <$> c.relink registry
    | none => pure none
  let action ← r.action.relink registry
  return { r with condition, action }

/-- The evaluation that looks names up when it begins. -/
def Expr.evaluateIn {World : Type} (registry : Registry) (host : Host World) (ctx : Context)
    (v : Expr) : Eval World Datum := do
  let linked ← Eval.ofExcept (v.relink registry)
  linked.evaluate host ctx

def Rule.applyIn {World : Type} (registry : Registry) (host : Host World) (ctx : Context)
    (r : Rule) : Eval World (Option Datum) := do
  let linked ← Eval.ofExcept (r.relink registry)
  linked.apply host ctx

/-! ## Linked trees stay as they are -/

section Linked

variable {registry : Registry}

namespace Param

theorem relinkEntries_eq {entries : List (String × Param)}
    (h : ∀ e ∈ entries, e.2.relink registry = .ok e.2) :
    relinkEntries registry entries = .ok entries := by
  induction entries with
  | nil => rfl
  | cons e rest ih =>
    obtain ⟨he, hrest⟩ := List.forall_mem_cons.mp h
    rw [relinkEntries, he, ih hrest]
    rfl

theorem relinkItems_eq {items : List Param} (h : ∀ p ∈ items, p.relink registry = .ok p) :
    relinkItems registry items = .ok items := by
  induction items with
  | nil => rfl
  | cons p rest ih =>
    obtain ⟨hp, hrest⟩ := List.forall_mem_cons.mp h
    rw [relinkItems, hp, ih hrest]
    rfl

theorem relinkFields_eq {fields : List (Field Param)}
    (h : ∀ f ∈ fields, f.node.relink registry = .ok f.node) :
    relinkFields registry fields = .ok fields := by
  induction fields with
  | nil => rfl
  | cons f rest ih =>
    obtain ⟨hf, hrest⟩ := List.forall_mem_cons.mp h
    rw [relinkFields, hf, ih hrest]
    rfl

end Param

/-- A tree whose calls all hold what their names stand for is its own relinking. -/
theorem Tree.relink_eq :
    (∀ v : Expr, (∀ call ∈ v.calls, call.LinkedTo registry) → v.relink registry = .ok v) ∧
      ∀ p : Param, (∀ call ∈ p.calls, call.LinkedTo registry) → p.relink registry = .ok p := by
  apply Tree.induction
  case constant => exact fun _ _ => rfl
  case element => exact fun _ _ => rfl
  case application =>
    intro call ih h
    rw [Expr.calls_application, List.forall_mem_append, List.forall_mem_singleton] at h
    rw [Expr.relink, show registry.get call.function.name = .ok call.function from h.2, ih h.1]
    rfl
  case scalar => exact fun _ _ => rfl
  case value =>
    intro node ih h
    rw [Param.relink, ih h]
    rfl
  case mapping =>
    intro entries ih h
    rw [Param.calls_mapping] at h
    rw [Param.relink, Param.relinkEntries_eq fun e he =>
      ih e he fun call hc => h call (List.mem_flatMap_of_mem he hc)]
    rfl
  case sequence =>
    intro items ih h
    rw [Param.calls_sequence] at h
    rw [Param.relink, Param.relinkItems_eq fun p hp =>
      ih p hp fun call hc => h call (List.mem_flatMap_of_mem hp hc)]
    rfl
  case record =>
    intro typeName fields ih h
    rw [Param.calls_record] at h
    rw [Param.relink, Param.relinkFields_eq fun f hf =>
      ih f hf fun call hc => h call (List.mem_flatMap_of_mem hf hc)]
    rfl

end Linked

/-! ## Built trees in a registry that has grown -/

/-- Every call in the condition and in the action of the rule was built from the registry. -/
structure Rule.BuiltFrom (registry : Registry) (r : Rule) : Prop where
  left : ∀ c, r.condition = some c → c.left.BuiltFrom registry
  right : ∀ c, r.condition = some c → c.right.BuiltFrom registry
  action : r.action.BuiltFrom registry

section Grown

variable {registry later : Registry}

theorem Expr.BuiltFrom.relink_eq {v : Expr} (h : v.BuiltFrom registry)
    (hlater : later.WellFormed) (hgrown : registry.Extends later) : v.relink later = .ok v :=
  Tree.relink_eq.1 v fun call hc => ((h call hc).mono hgrown).linked hlater

theorem Rule.BuiltFrom.relink_eq {r : Rule} (h : r.BuiltFrom registry)
    (hlater : later.WellFormed) (hgrown : registry.Extends later) : r.relink later = .ok r := by
  have haction := h.action.relink_eq hlater hgrown
  cases hc : r.condition with
  | none =>
    rw [Rule.relink, hc, haction]
    simp only [← hc]
    rfl
  | some c =>
    rw [Rule.relink, hc, haction]
    simp only [Condition.relink, (h.left c hc).relink_eq hlater hgrown,
      (h.right c hc).relink_eq hlater hgrown]
    show Except.ok { r with condition := some c } = .ok r
    rw [← hc]

variable {World : Type} (host : Host World) (ctx : Context)

/-- Going by names, now or later, evaluates the tree that was built. -/
theorem Expr.BuiltFrom.evaluateIn_eq {v : Expr} (h : v.BuiltFrom registry)
    (hlater : later.WellFormed) (hgrown : registry.Extends later) :
    v.evaluateIn later host ctx = v.evaluate host ctx := by
  rw [evaluateIn, h.relink_eq hlater hgrown]
  rfl

theorem Rule.BuiltFrom.applyIn_eq {r : Rule} (h : r.BuiltFrom registry)
    (hlater : later.WellFormed) (hgrown : registry.Extends later) :
    r.applyIn later host ctx = r.apply host ctx := by
  rw [applyIn, h.relink_eq hlater hgrown]
  rfl

end Grown

end Rulebook
