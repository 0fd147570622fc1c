import Rulebook.Proofs.Operator.RawScalars

/-! # The algebra of operators

Six operators compare. On data with a numeric view they test a relation between rational numbers
(`Operator.apply_iff`), whatever the scales of the decimals and whether the numbers are native or
raw, so the laws of the order of numbers carry over. Equality goes its own way through the views; it
is an operator on all data, reflexive and symmetric.
-/

set_option autoImplicit false

namespace Rulebook

theorem toOption_eq_some_iff {ε α : Type} {r : Except ε α} {a : α} :
    r.toOption = some a ↔ r = .ok a := by
  cases r <;> simp [Except.toOption]

theorem Decimal.le_eq_not_lt (a b : Decimal) : a.le b = !b.lt a := by
  rw [Bool.eq_iff_iff, Bool.not_eq_true', ← Bool.not_eq_true, le_iff, lt_iff, not_lt]

theorem Json.equal_self (j : Json) : j.equal j = true :=
  (j.spelled.words_eq_iff j).mp rfl

namespace Datum

theorem equal_self (d : Datum) : d.equal d = true :=
  (d.spelled.words_eq_iff d).mp rfl

theorem matches_self (d : Datum) : d.matches d = true := by
  rw [matches_eq]
  cases d.asNumber? with
  | some x => exact Decimal.equal_iff.mpr rfl
  | none =>
    cases d.asText? with
    | some s => exact beq_self_eq_true s
    | none =>
      simp only
      split
      · exact d.toJson.equal_self
      · exact d.equal_self

/-- The number that operators see in a datum: a number itself, or the decimal form of a raw one. -/
inductive Numeric : Datum → Decimal → Prop where
  | number (x : Decimal) : Numeric (.number x) x
  | raw {n : JsonNumber} {x : Decimal} : n.toDecimal = .ok x → Numeric (.json (.num n)) x

variable {d : Datum} {x y : Decimal}

theorem numeric_iff : d.Numeric x ↔ d.asNumber? = some x := by
  constructor
  · rintro (x | hn)
    · rfl
    · exact toOption_eq_some_iff.mpr hn
  · intro h
    cases d with
    | number z =>
      cases h
      exact .number x
    | json j =>
      cases j with
      | num n => exact .raw (toOption_eq_some_iff.mp h)
      | _ => cases h
    | _ => cases h

end Datum

namespace Operator

/-! ## Operators in pairs -/

/-- The operator that denies what this one affirms. -/
def negation? : Operator → Option Operator
  | eq => some ne
  | ne => some eq
  | lt => some ge
  | ge => some lt
  | le => some gt
  | gt => some le
  | contains => some notContains
  | notContains => some contains
  | startsWith | endsWith => none

/-- The operator that says the same with its operands exchanged. -/
def mirror? : Operator → Option Operator
  | eq => some eq
  | ne => some ne
  | lt => some gt
  | gt => some lt
  | le => some ge
  | ge => some le
  | contains | notContains | startsWith | endsWith => none

variable {op op' : Operator} {l m r : Datum} {x y z : Decimal}

/-- What is found does not depend on the operator that asks. -/
theorem toOption_search (op op' : Operator) (haystack needle : Datum) :
    (op.search haystack needle).toOption = (op'.search haystack needle).toOption := by
  cases haystack with
  | json j => cases j <;> rfl
  | _ => rfl

theorem toOption_apply_negation (h : op.negation? = some op') (l r : Datum) :
    (op'.apply l r).toOption = (op.apply l r).toOption.map (!·) := by
  cases op <;> cases h
  case eq => rfl
  case ne => simp [apply, Except.toOption]
  case contains =>
    rw [apply, apply, toOption_map, toOption_search]
  case notContains =>
    rw [apply, apply, toOption_map, toOption_search contains notContains]
    cases (notContains.search l r).toOption <;> simp
  case lt | le | gt | ge =>
    simp only [apply, toOption_compareNumbers, compareDecimals, Decimal.le_eq_not_lt]
    cases l.asNumber? <;> cases r.asNumber? <;> simp [Except.toOption]

theorem toOption_apply_mirror (h : op.mirror? = some op') (l r : Datum) :
    (op'.apply r l).toOption = (op.apply l r).toOption := by
  cases op <;> cases h
  case eq | ne => rw [apply, apply, Datum.matches_comm]
  case lt | le | gt | ge =>
    simp only [apply, toOption_compareNumbers, compareDecimals]
    cases l.asNumber? <;> cases r.asNumber? <;> rfl

/-! ## Comparisons of numbers -/

/-- The operators that compare numbers by their order. -/
def orderings : List Operator :=
  [lt, le, gt, ge]

/-- The relation between two numbers that an operator tests, if it compares them. -/
def relation? : Operator → Option (ℚ → ℚ → Prop)
  | eq => some (· = ·)
  | ne => some (· ≠ ·)
  | lt => some (· < ·)
  | le => some (· ≤ ·)
  | gt => some (· > ·)
  | ge => some (· ≥ ·)
  | contains | notContains | startsWith | endsWith => none

variable {rel : ℚ → ℚ → Prop}

theorem compareDecimals_iff (h : op.relation? = some rel) (x y : Decimal) :
    ∃ b, op.compareDecimals x y = .ok b ∧ (b = true ↔ rel x.value y.value) := by
  cases op <;> cases h
  case eq => exact ⟨_, rfl, Decimal.equal_iff⟩
  case ne => exact ⟨_, rfl, by rw [Bool.not_eq_true', ← Bool.not_eq_true, Decimal.equal_iff]⟩
  case lt => exact ⟨_, rfl, Decimal.lt_iff⟩
  case le => exact ⟨_, rfl, Decimal.le_iff⟩
  case gt => exact ⟨_, rfl, Decimal.lt_iff⟩
  case ge => exact ⟨_, rfl, Decimal.le_iff⟩

theorem compareNumbers_eq (hl : l.Numeric x) (hr : r.Numeric y) :
    op.compareNumbers l r = op.compareDecimals x y := by
  rw [compareNumbers, operand, operand, Datum.numeric_iff.mp hl, Datum.numeric_iff.mp hr]
  rfl

/-- On numbers, a comparison gives one answer on both ways. -/
theorem apply_eq_compareNumbers (h : op.relation? = some rel) (hl : l.Numeric x)
    (hr : r.Numeric y) : op.apply l r = op.compareNumbers l r := by
  have hmatches : l.matches r = x.equal y := by
    rw [Datum.matches_eq, Datum.numeric_iff.mp hl, Datum.numeric_iff.mp hr]
  cases op <;> cases h
  case eq | ne =>
    rw [compareNumbers_eq hl hr, apply, hmatches]
    rfl
  case lt | le | gt | ge => rfl

/-- A comparison of numbers tests its relation on their values. -/
theorem apply_iff (h : op.relation? = some rel) (hl : l.Numeric x) (hr : r.Numeric y) :
    ∃ b, op.apply l r = .ok b ∧ (b = true ↔ rel x.value y.value) := by
  rw [apply_eq_compareNumbers h hl hr, compareNumbers_eq hl hr]
  exact compareDecimals_iff h x y

theorem apply_eq_true_iff (h : op.relation? = some rel) (hl : l.Numeric x) (hr : r.Numeric y) :
    op.apply l r = .ok true ↔ rel x.value y.value := by
  obtain ⟨b, hb, hiff⟩ := apply_iff h hl hr
  rw [hb, Except.ok.injEq, hiff]

/-- An ordering has an answer exactly for two numbers. -/
theorem ordering_isOk_iff (h : op ∈ orderings) :
    (∃ b, op.apply l r = .ok b) ↔ (∃ x, l.Numeric x) ∧ ∃ y, r.Numeric y := by
  have hrel : ∃ rel, op.relation? = some rel ∧ op.apply l r = op.compareNumbers l r := by
    simp only [orderings, List.mem_cons, List.not_mem_nil, or_false] at h
    rcases h with rfl | rfl | rfl | rfl <;> exact ⟨_, rfl, rfl⟩
  obtain ⟨rel, hrel, happly⟩ := hrel
  constructor
  · rintro ⟨b, hb⟩
    rw [happly, ← toOption_eq_some_iff, toOption_compareNumbers] at hb
    obtain ⟨x, hl, hb⟩ := Option.bind_eq_some_iff.mp hb
    obtain ⟨y, hr, -⟩ := Option.bind_eq_some_iff.mp hb
    exact ⟨⟨x, Datum.numeric_iff.mpr hl⟩, y, Datum.numeric_iff.mpr hr⟩
  · rintro ⟨⟨x, hl⟩, y, hr⟩
    obtain ⟨b, hb, -⟩ := apply_iff hrel hl hr
    exact ⟨b, hb⟩

/-- Of two numbers, one is less, or they are equal. -/
theorem trichotomy (hl : l.Numeric x) (hr : r.Numeric y) :
    ∃! op, op ∈ [lt, eq, gt] ∧ op.apply l r = .ok true := by
  have hlt : lt.apply l r = .ok true ↔ x.value < y.value := apply_eq_true_iff rfl hl hr
  have heq : eq.apply l r = .ok true ↔ x.value = y.value := apply_eq_true_iff rfl hl hr
  have hgt : gt.apply l r = .ok true ↔ x.value > y.value := apply_eq_true_iff rfl hl hr
  have hcases : ∀ op ∈ [lt, eq, gt], op = lt ∨ op = eq ∨ op = gt := by simp
  rcases lt_trichotomy x.value y.value with h | h | h
  · refine ⟨lt, ⟨by decide, hlt.mpr h⟩, fun op ⟨hmem, hop⟩ => ?_⟩
    rcases hcases op hmem with rfl | rfl | rfl
    · rfl
    · exact absurd (heq.mp hop) h.ne
    · exact absurd (hgt.mp hop) h.asymm
  · refine ⟨eq, ⟨by decide, heq.mpr h⟩, fun op ⟨hmem, hop⟩ => ?_⟩
    rcases hcases op hmem with rfl | rfl | rfl
    · exact absurd h (hlt.mp hop).ne
    · rfl
    · exact absurd h (hgt.mp hop).ne'
  · refine ⟨gt, ⟨by decide, hgt.mpr h⟩, fun op ⟨hmem, hop⟩ => ?_⟩
    rcases hcases op hmem with rfl | rfl | rfl
    · exact absurd (hlt.mp hop) h.asymm
    · exact absurd (heq.mp hop) h.ne'
    · rfl

theorem le_iff (hl : l.Numeric x) (hr : r.Numeric y) :
    le.apply l r = .ok true ↔ lt.apply l r = .ok true ∨ eq.apply l r = .ok true := by
  have hle : le.apply l r = .ok true ↔ x.value ≤ y.value := apply_eq_true_iff rfl hl hr
  have hlt : lt.apply l r = .ok true ↔ x.value < y.value := apply_eq_true_iff rfl hl hr
  have heq : eq.apply l r = .ok true ↔ x.value = y.value := apply_eq_true_iff rfl hl hr
  rw [hle, hlt, heq, le_iff_lt_or_eq]

/-- An ordering that holds, holds of two numbers; so `<` and `≤` pass through any third datum. -/
theorem apply_trans (hop : op ∈ [lt, le]) (h : op.apply l m = .ok true)
    (h' : op.apply m r = .ok true) : op.apply l r = .ok true := by
  obtain ⟨rel, hord, hrel, htrans⟩ : ∃ rel, op ∈ orderings ∧ op.relation? = some rel ∧
      ∀ {a b c}, rel a b → rel b c → rel a c := by
    simp only [List.mem_cons, List.not_mem_nil, or_false] at hop
    rcases hop with rfl | rfl
    · exact ⟨_, by decide, rfl, lt_trans⟩
    · exact ⟨_, by decide, rfl, le_trans⟩
  obtain ⟨⟨x, hl⟩, z, hm⟩ := (ordering_isOk_iff hord).mp ⟨_, h⟩
  obtain ⟨-, y, hr⟩ := (ordering_isOk_iff hord).mp ⟨_, h'⟩
  rw [apply_eq_true_iff hrel hl hm] at h
  rw [apply_eq_true_iff hrel hm hr] at h'
  exact (apply_eq_true_iff hrel hl hr).mpr (htrans h h')

end Operator

/-! ## Main statement -/

/-- The laws of the operators on three data. -/
structure Operator.Laws (l m r : Datum) : Prop where
  negation : ∀ {op op'}, negation? op = some op' →
    SameAnswer (op'.apply l r) ((op.apply l r).map (!·))
  mirror : ∀ {op op'}, mirror? op = some op' → SameAnswer (op'.apply r l) (op.apply l r)
  eq_refl : eq.apply l l = .ok true
  eq_symm : eq.apply r l = eq.apply l r
  /-- Orderings are for numbers only. -/
  ordering_isOk : ∀ op ∈ orderings,
    (∃ b, op.apply l r = .ok b) ↔ (∃ x, l.Numeric x) ∧ ∃ y, r.Numeric y
  /-- Numbers are compared in one way, by value. -/
  number : ∀ {x y}, l.Numeric x → r.Numeric y → ∀ {op rel}, relation? op = some rel →
    op.apply l r = op.compareNumbers l r ∧
      ∃ b, op.apply l r = .ok b ∧ (b = true ↔ rel x.value y.value)
  trichotomy : ∀ {x y}, l.Numeric x → r.Numeric y →
    ∃! op, op ∈ [lt, eq, gt] ∧ op.apply l r = .ok true
  le_iff : ∀ {x y}, l.Numeric x → r.Numeric y →
    (le.apply l r = .ok true ↔ lt.apply l r = .ok true ∨ eq.apply l r = .ok true)
  trans : ∀ op ∈ [lt, le], op.apply l m = .ok true → op.apply m r = .ok true →
    op.apply l r = .ok true

/-- An operator and its negation deny each other, or both are refused. Equality is reflexive and
symmetric on all data, and numbers are ordered by value, be they native or raw. -/
theorem operators_form_algebra (l m r : Datum) : Operator.Laws l m r where
  negation h := .of_toOption Operator.apply_eq_error
    (Operator.apply_eq_error <| Operator.eq_error_of_map ·)
    (by rw [Operator.toOption_apply_negation h, Operator.toOption_map])
  mirror h := .of_toOption Operator.apply_eq_error Operator.apply_eq_error
    (Operator.toOption_apply_mirror h l r)
  eq_refl := congrArg Except.ok l.matches_self
  eq_symm := congrArg Except.ok (r.matches_comm l)
  ordering_isOk _ := Operator.ordering_isOk_iff
  number hl hr _ _ h := ⟨Operator.apply_eq_compareNumbers h hl hr, Operator.apply_iff h hl hr⟩
  trichotomy := Operator.trichotomy
  le_iff := Operator.le_iff
  trans _ := Operator.apply_trans

/-- A number, a raw integer of the same value, and a greater number of another scale. -/
theorem operators_form_algebra_mixed :
    let l : Datum := .number ⟨false, 180, 1, by decide, by decide⟩
    let m : Datum := .json (.num (.integer 18 (by decide)))
    let r : Datum := .number ⟨false, 1850, 2, by decide, by decide⟩
    Operator.eq.apply l m = .ok true ∧ Operator.le.apply m r = .ok true ∧
    Operator.le.apply l r = .ok true ∧ SameAnswer (Operator.ge.apply r l) (.ok true) := by
  intro l m r
  have hlm : Operator.le.apply l m = .ok true := rfl
  have hlr : Operator.le.apply l r = .ok true :=
    (operators_form_algebra l m r).trans .le (by decide) hlm rfl
  exact ⟨rfl, rfl, hlr, hlr ▸ (operators_form_algebra l m r).mirror rfl⟩

end Rulebook
