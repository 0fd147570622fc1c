import Rulebook.Condition
import Rulebook.Proofs.Equality.Datum
import Rulebook.Proofs.Evaluation.Tree

/-! # Equality of data and trees agrees with their hash input

Data, parameters, applications, expressions and conditions are each spelled by their hash input, so
their equality is an equivalence, equals feed a hash the same words, and a hash set holds each of
them once (`hashing_agrees_with_equality`).
-/

set_option autoImplicit false

namespace Rulebook

/-! ## Leaves -/

theorem DataType.spelled (t : DataType) : Spelled (· == ·) DataType.hashInput t := by
  intro u l m
  simp [DataType.hashInput, DataType.rank_inj]

theorem Slot.spelled (s : Slot) : Spelled (· == ·) Slot.hashInput s := by
  intro t l m
  cases s with
  | untyped => cases t <;> simp [Slot.hashInput]
  | typed a =>
    cases t with
    | untyped => simp [Slot.hashInput]
    | typed b => simpa [Slot.hashInput] using a.spelled b l m

theorem Constant.spelled (c : Constant) : Spelled Constant.equal Constant.hashInput c := by
  intro e l m
  rw [Constant.hashInput, Constant.hashInput, List.append_assoc, List.append_assoc,
    c.dataType.spelled, c.value.spelled, Constant.equal, Bool.and_eq_true, and_assoc]

theorem Element.spelled (r : Element) : Spelled (· == ·) Element.hashInput r := by
  intro s l m
  have heq : r = s ↔ r.code = s.code ∧ r.dataType = s.dataType := by
    cases r
    cases s
    simp
  have htype := r.dataType.spelled s.dataType l m
  rw [beq_iff_eq] at htype
  simp [Element.hashInput, htype, heq, and_assoc]

theorem Operator.symbol_inj {a b : Operator} : a.symbol = b.symbol ↔ a = b := by
  refine ⟨fun h => ?_, congrArg _⟩
  have hread : ofSymbol? a.symbol = ofSymbol? b.symbol := by rw [h]
  rw [ofSymbol?_symbol, ofSymbol?_symbol] at hread
  exact Option.some.inj hread

/-! ## Nodes -/

theorem Field.spelled {P : Type} {same : P → P → Bool} {words : P → List HashWord} {f : Field P}
    (h : Spelled same words f.node) :
    Spelled (fun a b => a.name == b.name && a.slot == b.slot && same a.node b.node)
      (fun a => .text a.name :: a.slot.hashInput ++ words a.node) f := by
  intro g l m
  rw [List.append_assoc, List.append_assoc, List.cons_append, List.cons_append, List.cons.injEq,
    f.slot.spelled, h g.node l m]
  simp [and_assoc]

theorem Application.expectedInput_append {a b : Call} {l m : List HashWord} :
    a.expectedInput ++ l = b.expectedInput ++ m ↔ a.expected = b.expected ∧ l = m := by
  rw [Application.expectedInput, Application.expectedInput]
  cases a.expected with
  | none => cases b.expected <;> simp
  | some t =>
    cases b.expected with
    | none => simp
    | some u => simpa using t.spelled u l m

theorem Application.spelled {call : Call}
    (h : Spelled Param.equal Param.hashInput call.parameter) :
    Spelled Application.equal Application.hashInput call := by
  intro other l m
  rw [Application.hashInput, Application.hashInput, List.append_assoc, List.append_assoc,
    List.cons_append, List.cons_append, List.cons.injEq, Application.expectedInput_append,
    h other.parameter l m, Application.equal]
  simp [and_assoc]

namespace Param

theorem equalEntries_iff {as bs : List (String × Param)} :
    equalEntries as bs = true ↔
      List.Forall₂ (fun a b => (a.1 == b.1 && a.2.equal b.2) = true) as bs := by
  induction as generalizing bs with
  | nil => cases bs <;> simp [equalEntries]
  | cons a as ih => cases bs <;> simp [equalEntries, ih]

theorem equalItems_iff {as bs : List Param} :
    equalItems as bs = true ↔ List.Forall₂ (fun a b => a.equal b = true) as bs := by
  induction as generalizing bs with
  | nil => cases bs <;> simp [equalItems]
  | cons a as ih => cases bs <;> simp [equalItems, ih]

theorem equalFields_iff {as bs : List (Field Param)} :
    equalFields as bs = true ↔
      List.Forall₂ (fun a b => (a.name == b.name && a.slot == b.slot && a.node.equal b.node) = true)
        as bs := by
  induction as generalizing bs with
  | nil => cases bs <;> simp [equalFields]
  | cons a as ih => cases bs <;> simp [equalFields, ih]

theorem hashEntries_eq (entries : List (String × Param)) :
    hashEntries entries = entries.flatMap fun e => .text e.1 :: e.2.hashInput := by
  induction entries with
  | nil => rfl
  | cons e rest ih => rw [hashEntries, ih, List.flatMap_cons]

theorem hashItems_eq (items : List Param) : hashItems items = items.flatMap hashInput := by
  induction items with
  | nil => rfl
  | cons p rest ih => rw [hashItems, ih, List.flatMap_cons]

theorem hashFields_eq (fields : List (Field Param)) :
    hashFields fields =
      fields.flatMap fun f => .text f.name :: f.slot.hashInput ++ f.node.hashInput := by
  induction fields with
  | nil => rfl
  | cons f rest ih => rw [hashFields, ih, List.flatMap_cons]

end Param

theorem Tree.spelled :
    (∀ v, Spelled Expr.equal Expr.hashInput v) ∧ ∀ p, Spelled Param.equal Param.hashInput p := by
  refine Tree.induction ?constant ?element ?application ?scalar ?value ?mapping ?sequence ?record
  case constant =>
    intro literal v l m
    cases v with
    | constant literal' => simpa [Expr.hashInput, Expr.equal] using literal.spelled literal' l m
    | _ => simp [Expr.hashInput, Expr.equal]
  case element =>
    intro reference v l m
    cases v with
    | element reference' => simpa [Expr.hashInput, Expr.equal] using reference.spelled reference' l m
    | _ => simp [Expr.hashInput, Expr.equal]
  case application =>
    intro call ih v l m
    cases v with
    | application call' =>
      rw [Expr.hashInput_application, Expr.hashInput_application, Expr.equal_application,
        List.cons_append, List.cons_append, List.cons.injEq, Application.spelled ih call' l m]
      simp
    | _ => simp [Expr.hashInput, Expr.equal]
  case scalar =>
    intro d p l m
    cases p with
    | scalar e => simpa [Param.hashInput, Param.equal] using d.spelled e l m
    | _ => simp [Param.hashInput, Param.equal]
  case value =>
    intro node ih p l m
    cases p with
    | value node' => simpa [Param.hashInput, Param.equal] using ih node' l m
    | _ => simp [Param.hashInput, Param.equal]
  case mapping =>
    intro entries ih p l m
    cases p with
    | mapping entries' =>
      rw [Param.equal, Param.equalEntries_iff, ← Spelled.sized fun e he => (ih e he).entry]
      simp [Param.hashInput, Param.hashEntries_eq]
    | _ => simp [Param.hashInput, Param.equal]
  case sequence =>
    intro items ih p l m
    cases p with
    | sequence items' =>
      rw [Param.equal, Param.equalItems_iff, ← Spelled.sized ih]
      simp [Param.hashInput, Param.hashItems_eq]
    | _ => simp [Param.hashInput, Param.equal]
  case record =>
    intro typeName fields ih p l m
    cases p with
    | record typeName' fields' =>
      rw [Param.equal, Bool.and_eq_true, Param.equalFields_iff, beq_iff_eq, and_assoc,
        ← Spelled.sized fun f hf => Field.spelled (ih f hf)]
      simp [Param.hashInput, Param.hashFields_eq]
    | _ => simp [Param.hashInput, Param.equal]

theorem Condition.spelled (c : Condition) : Spelled Condition.equal Condition.hashInput c := by
  intro d l m
  rw [Condition.hashInput, Condition.hashInput, List.append_assoc, List.append_assoc,
    Tree.spelled.1 c.left, List.cons_append, List.cons_append, List.cons.injEq,
    HashWord.text.injEq, Operator.symbol_inj, Tree.spelled.1 c.right, Condition.equal]
  simp [and_assoc]

/-! ## Main statement -/

/-- Equality is an equivalence on data, parameters, applications, expressions and conditions. Two of
a kind feed a hash the same words exactly if they are equal, so under every digest a hash set holds
exactly one of those that are equal. -/
theorem hashing_agrees_with_equality :
    HashConsistent Datum.equal Datum.hashInput ∧
    HashConsistent Param.equal Param.hashInput ∧
    HashConsistent Application.equal Application.hashInput ∧
    HashConsistent Expr.equal Expr.hashInput ∧
    HashConsistent Condition.equal Condition.hashInput :=
  ⟨.of_spelled Datum.spelled, .of_spelled Tree.spelled.2,
    .of_spelled fun call => Application.spelled (Tree.spelled.2 call.parameter),
    .of_spelled Tree.spelled.1, .of_spelled Condition.spelled⟩

end Rulebook
