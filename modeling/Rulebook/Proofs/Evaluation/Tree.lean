import Rulebook.Expr.Build
import Rulebook.Expr.Evaluate
import Rulebook.Proofs.Evaluation.Run

/-! # Induction over trees

Expressions and parameters contain each other, the latter also in lists of entries, items and
fields. `Tree.induction` is induction over both at once: what holds of a tree whenever it holds of
the trees directly in it holds of every tree.

The functions over trees recurse through helpers for the three kinds of lists. Each helper is a
function of the library on lists (`flatMap`, `mapM`), and is used in that form from here on.
-/

set_option autoImplicit false

namespace Rulebook

theorem Tree.induction {Q : Expr → Prop} {P : Param → Prop}
    (constant : ∀ literal, Q (.constant literal))
    (element : ∀ reference, Q (.element reference))
    (application : ∀ call : Call, P call.parameter → Q (.application call))
    (scalar : ∀ d, P (.scalar d))
    (value : ∀ node, Q node → P (.value node))
    (mapping : ∀ entries, (∀ e ∈ entries, P e.2) → P (.mapping entries))
    (sequence : ∀ items, (∀ p ∈ items, P p) → P (.sequence items))
    (record : ∀ typeName fields, (∀ f ∈ fields, P f.node) → P (.record typeName fields)) :
    (∀ v, Q v) ∧ ∀ p, P p := by
  have extend {α : Type} {R : α → Prop} (a : α) (l : List α) (ha : R a) (hl : ∀ b ∈ l, R b) :
      ∀ b ∈ a :: l, R b := List.forall_mem_cons.mpr ⟨ha, hl⟩
  -- The recursor has a motive for each type through which the two recurse.
  have params : ∀ p, P p :=
    @Param.rec Q P (fun call => P call.parameter) (fun entries => ∀ e ∈ entries, P e.2)
      (fun items => ∀ p ∈ items, P p) (fun fields => ∀ f ∈ fields, P f.node)
      (fun entry => P entry.2) (fun field => P field.node)
      constant element application scalar value mapping sequence record (fun _ _ _ h => h)
      (List.forall_mem_nil _) extend (List.forall_mem_nil _) extend (List.forall_mem_nil _) extend
      (fun _ _ h => h) (fun _ _ _ h => h)
  refine ⟨fun v => ?_, params⟩
  cases v with
  | constant literal => exact constant literal
  | element reference => exact element reference
  | application call => exact application call (params call.parameter)

namespace Param

/-! ## Elements -/

theorem entryElements_eq (entries : List (String × Param)) :
    entryElements entries = entries.flatMap fun e => e.2.elements := by
  induction entries with
  | nil => rfl
  | cons e rest ih => rw [entryElements, ih, List.flatMap_cons]

theorem itemElements_eq (items : List Param) : itemElements items = items.flatMap elements := by
  induction items with
  | nil => rfl
  | cons p rest ih => rw [itemElements, ih, List.flatMap_cons]

theorem fieldElements_eq (fields : List (Field Param)) :
    fieldElements fields = fields.flatMap fun f => f.node.elements := by
  induction fields with
  | nil => rfl
  | cons f rest ih => rw [fieldElements, ih, List.flatMap_cons]

/-! ## Materialization -/

variable {World : Type} (host : Host World) (ctx : Context)

theorem materializeEntries_eq (entries : List (String × Param)) :
    materializeEntries host ctx entries =
      entries.mapM fun e => e.2.materialize host ctx >>= fun d => pure (e.1, d) := by
  induction entries with
  | nil => rfl
  | cons e rest ih => simp [materializeEntries, ih]

theorem materializeItems_eq (items : List Param) :
    materializeItems host ctx items = items.mapM (materialize host ctx) := by
  induction items with
  | nil => rfl
  | cons p rest ih => simp [materializeItems, ih]

theorem materializeFields_eq (record : String) (fields : List (Field Param)) :
    materializeFields host ctx record fields = fields.mapM fun f =>
      f.node.materialize host ctx >>= fun content => Eval.ofExcept (f.entry record content) := by
  induction fields with
  | nil => rfl
  | cons f rest ih => simp [materializeFields, ih]

/-! ## Validation -/

variable (decl : Declarations)

theorem validateEntries_eq_ok {entries : List (String × Param)} :
    validateEntries decl entries = .ok () ↔ ∀ e ∈ entries, e.2.validate decl = .ok () := by
  induction entries with
  | nil => simp [validateEntries]
  | cons e rest ih =>
    rw [validateEntries, List.forall_mem_cons, ← ih]
    cases e.2.validate decl <;> simp [bind, Except.bind]

theorem validateItems_eq_ok {items : List Param} :
    validateItems decl items = .ok () ↔ ∀ p ∈ items, p.validate decl = .ok () := by
  induction items with
  | nil => simp [validateItems]
  | cons p rest ih =>
    rw [validateItems, List.forall_mem_cons, ← ih]
    cases p.validate decl <;> simp [bind, Except.bind]

theorem validateFields_eq_ok {record : String} {fields : List (Field Param)} :
    validateFields decl record fields = .ok () ↔
      ∀ f ∈ fields, f.node.validate decl = .ok () ∧ f.check decl record = .ok () := by
  induction fields with
  | nil => simp [validateFields]
  | cons f rest ih =>
    rw [validateFields, List.forall_mem_cons, ← ih]
    cases f.node.validate decl <;> cases f.check decl record <;> simp [bind, Except.bind]

end Param

end Rulebook
