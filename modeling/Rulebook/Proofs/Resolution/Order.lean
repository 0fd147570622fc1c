import Rulebook.Proofs.Resolution.StableSort
import Rulebook.RuleSet

/-! # The resolution order

Rules are ordered by weight, and conditions come before a fallback of the same weight. This order is
total but not strict: rules of one weight that both have a condition are tied, and a rule set keeps
them as they were registered. Sequence numbers do this for a rule set: once every number in it is at
most the new one, `RuleSet.insert` is the stable insertion of the rule.
-/

set_option autoImplicit false

namespace Rulebook

/-- Whether rule `a` may be tried before `b`: by weight, and conditions before fallbacks. -/
def Rule.le (a b : Rule) : Bool :=
  a.weight < b.weight || (a.weight == b.weight && (!a.isFallback || b.isFallback))

namespace Rule

theorem le_iff {a b : Rule} :
    a.le b = true ↔ a.weight.toInt < b.weight.toInt ∨
      (a.weight.toInt = b.weight.toInt ∧ (a.isFallback = true → b.isFallback = true)) := by
  simp only [le, Bool.or_eq_true, Bool.and_eq_true, decide_eq_true_eq, beq_iff_eq,
    Int32.lt_iff_toInt_lt, ← Int32.toInt_inj, Bool.not_eq_true']
  cases a.isFallback <;> simp

theorem le_trans (a b c : Rule) (hab : a.le b = true) (hbc : b.le c = true) : a.le c = true := by
  rw [le_iff] at *
  rcases hab with hab | ⟨hab, fab⟩ <;> rcases hbc with hbc | ⟨hbc, fbc⟩
  · exact .inl (Int.lt_trans hab hbc)
  · exact .inl (hbc ▸ hab)
  · exact .inl (hab ▸ hbc)
  · exact .inr ⟨hab.trans hbc, fbc ∘ fab⟩

theorem le_total (a b : Rule) : (a.le b || b.le a) = true := by
  rw [Bool.or_eq_true, le_iff, le_iff]
  rcases Int.lt_trichotomy a.weight.toInt b.weight.toInt with h | h | h
  · exact .inl (.inl h)
  · cases ha : a.isFallback with
    | false => exact .inl (.inr ⟨h, nofun⟩)
    | true => exact .inr (.inr ⟨h.symm, fun _ => rfl⟩)
  · exact .inr (.inl h)

end Rule

/-! ## Rules in order -/

/-- The rules of an id in the order in which they are tried: sorted, and tied rules as they were
registered. -/
def Rule.inOrder (id : String) (rules : List Rule) : List Rule :=
  (rules.filter (·.id == id)).mergeSort Rule.le

namespace Rule

variable {id : String} {rules : List Rule} {r : Rule}

theorem mem_inOrder : r ∈ inOrder id rules ↔ r ∈ rules ∧ r.id = id := by
  rw [inOrder, List.mem_mergeSort, List.mem_filter, beq_iff_eq]

theorem inOrder_nil (id : String) : inOrder id [] = [] := by
  rw [inOrder, List.filter_nil, List.mergeSort_nil]

theorem inOrder_eq_nil_iff : inOrder id rules = [] ↔ ∀ r ∈ rules, r.id ≠ id := by
  rw [List.eq_nil_iff_forall_not_mem]
  constructor
  · exact fun h r hr hid => h r (mem_inOrder.mpr ⟨hr, hid⟩)
  · exact fun h r hr => h r (mem_inOrder.mp hr).1 (mem_inOrder.mp hr).2

/-- The rule registered last is inserted behind the rules that may be tried before it. -/
theorem inOrder_append_self (rules : List Rule) (r : Rule) :
    inOrder r.id (rules ++ [r]) = insertLast le r (inOrder r.id rules) := by
  have hr : [r].filter (·.id == r.id) = [r] := by simp
  rw [inOrder, List.filter_append, hr, inOrder, insertLast_mergeSort le_trans le_total]

theorem inOrder_append_of_ne (h : id ≠ r.id) : inOrder id (rules ++ [r]) = inOrder id rules := by
  have hr : [r].filter (·.id == id) = [] := by simp [Ne.symm h]
  rw [inOrder, List.filter_append, hr, List.append_nil, inOrder]

end Rule

/-! ## Candidates in order -/

/-- Candidates with ascending numbers stand in the order of their rules. -/
theorem Candidate.le_of_sequence {a b : Candidate} (h : a.sequence ≤ b.sequence) :
    a.le b = a.rule.le b.rule := by
  unfold Candidate.le Rule.le
  have hlt : ∀ x y : Bool, decide (x < y) = (!x && y) := by decide
  rw [hlt]
  cases a.rule.isFallback <;> cases b.rule.isFallback <;> simp [h]

namespace RuleSet

variable {set new : RuleSet} {sequence : Nat} {rule : Rule}

theorem insert_eq_ok :
    set.insert sequence rule = .ok new ↔
      (rule.isFallback && set.hasFallback) = false ∧
        new = ⟨insertLast Candidate.le ⟨sequence, rule⟩ set.candidates⟩ := by
  unfold RuleSet.insert
  cases rule.isFallback && set.hasFallback with
  | true => simp
  | false => simp [insertLast, eq_comm (a := new)]

theorem insert_eq_error {e : EvalError} :
    set.insert sequence rule = .error e ↔
      (rule.isFallback && set.hasFallback) = true ∧ e = .duplicateFallback rule.id := by
  unfold RuleSet.insert
  cases rule.isFallback && set.hasFallback with
  | true => simp [eq_comm (a := e)]
  | false => simp

/-- A rule that is registered after all others goes behind the rules that may be tried before it. -/
theorem rules_insert (h : set.insert sequence rule = .ok new)
    (hlast : ∀ c ∈ set.candidates, c.sequence ≤ sequence) :
    new.rules = insertLast Rule.le rule set.rules := by
  obtain ⟨-, rfl⟩ := insert_eq_ok.mp h
  exact map_insertLast fun c hc => Candidate.le_of_sequence (hlast c hc)

end RuleSet

end Rulebook
