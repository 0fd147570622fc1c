import Rulebook.Proofs.Data.Conversion
import Rulebook.Proofs.Equality.Datum
import Rulebook.Proofs.Evaluation.Checks

/-! # Raw JSON scalars under operators

A raw JSON scalar and its native form have the same numeric view and the same text view. Operators
see nothing else of a scalar, as long as the other operand holds no raw number without a decimal
form: then no operator tells the two apart, on either side (`raw_scalars_act_as_native`).
-/

set_option autoImplicit false

namespace Rulebook

/-- Neither an array nor an object. -/
def Json.isScalar : Json → Bool
  | .arr _ | .obj _ => false
  | _ => true

/-- Two operands get the same answer, or both are refused as being of the wrong kind. -/
def SameAnswer (r s : Except EvalError Bool) : Prop :=
  (∃ b, r = .ok b ∧ s = .ok b) ∨ ∃ f g, r = .error (.typeError f) ∧ s = .error (.typeError g)

/-- Results that can fail only with type errors fail alike if they succeed alike. -/
theorem SameAnswer.of_toOption {r s : Except EvalError Bool}
    (hr : ∀ {e}, r = .error e → ∃ fault, e = .typeError fault)
    (hs : ∀ {e}, s = .error e → ∃ fault, e = .typeError fault)
    (h : r.toOption = s.toOption) : SameAnswer r s := by
  cases r with
  | ok b =>
    cases s with
    | ok c => exact .inl ⟨b, rfl, by rw [Option.some.inj h]⟩
    | error e => cases h
  | error e =>
    cases s with
    | ok c => cases h
    | error e' =>
      obtain ⟨f, rfl⟩ := hr rfl
      obtain ⟨g, rfl⟩ := hs rfl
      exact .inr ⟨f, g, rfl, rfl⟩

/-! ## Equality in both directions -/

theorem Decimal.equal_comm (a b : Decimal) : a.equal b = b.equal a := by
  rw [Bool.eq_iff_iff, equal_iff, equal_iff, eq_comm]

theorem Json.equal_comm (a b : Json) : a.equal b = b.equal a := by
  rw [Bool.eq_iff_iff, ← (Json.spelled a).words_eq_iff, ← (Json.spelled b).words_eq_iff, eq_comm]

theorem Datum.equal_comm (a b : Datum) : a.equal b = b.equal a := by
  rw [Bool.eq_iff_iff, ← (Datum.spelled a).words_eq_iff, ← (Datum.spelled b).words_eq_iff, eq_comm]

namespace Datum

variable {a b x : Datum}

def isRaw : Datum → Bool
  | .json _ => true
  | _ => false

/-- Equality goes by the numeric view, the text view, the JSON value or the datum, whichever both
operands have first. -/
theorem matches_eq (a x : Datum) : a.matches x =
    match a.asNumber?, x.asNumber? with
    | some l, some r => l.equal r
    | _, _ =>
      match a.asText?, x.asText? with
      | some l, some r => l == r
      | _, _ => if a.isRaw || x.isRaw then a.toJson.equal x.toJson else a.equal x := by
  cases a <;> cases x <;> rfl

theorem matches_comm (a b : Datum) : a.matches b = b.matches a := by
  rw [matches_eq, matches_eq, Json.equal_comm a.toJson, Datum.equal_comm a, Bool.or_comm a.isRaw]
  have htexts : (match a.asText?, b.asText? with
      | some l, some r => l == r
      | _, _ => if b.isRaw || a.isRaw then b.toJson.equal a.toJson else b.equal a) =
      match b.asText?, a.asText? with
      | some l, some r => l == r
      | _, _ => if b.isRaw || a.isRaw then b.toJson.equal a.toJson else b.equal a := by
    cases a.asText? with
    | none => cases b.asText? <;> rfl
    | some l =>
      cases b.asText? with
      | none => rfl
      | some r => exact BEq.comm
  cases a.asNumber? with
  | none => cases b.asNumber? <;> exact htexts
  | some l =>
    cases b.asNumber? with
    | none => exact htexts
    | some r => exact l.equal_comm r

/-! ## Views of a raw value and of its native form -/

variable {j : Json} {d : Datum}

theorem asNumber?_json (h : ofJson j = .ok d) : (Datum.json j).asNumber? = d.asNumber? := by
  refine native_induction (P := fun j d => (Datum.json j).asNumber? = d.asNumber?) rfl
    (fun _ => rfl) (fun n e he => ?_) (fun _ => rfl) (fun _ _ _ => rfl) (fun _ _ _ => rfl) h
  show n.toDecimal.toOption = some e
  rw [he]
  rfl

theorem asText?_json (h : ofJson j = .ok d) : (Datum.json j).asText? = d.asText? :=
  native_induction (P := fun j d => (Datum.json j).asText? = d.asText?) rfl
    (fun _ => rfl) (fun _ _ _ => rfl) (fun _ => rfl) (fun _ _ _ => rfl) (fun _ _ _ => rfl) h

/-- A datum that is no number has a JSON value that is no number either. -/
theorem toJson_ne_num (hx : ∀ n ∈ x.rawNumbers, n.HasDecimal) (hnone : x.asNumber? = none)
    (n : JsonNumber) : x.toJson.equal (.num n) = false := by
  cases x with
  | number e => cases hnone
  | json v =>
    cases v with
    | num m =>
      obtain ⟨e, he⟩ := hx m (by simp [rawNumbers, Json.numbers])
      rw [asNumber?, he] at hnone
      cases hnone
    | _ => rfl
  | _ => rfl

/-- A datum that is no text has a JSON value that is no text either. -/
theorem toJson_ne_str (hnone : x.asText? = none) (s : String) :
    x.toJson.equal (.str s) = false := by
  cases x with
  | text t => cases hnone
  | number e =>
    obtain ⟨n, hn⟩ := e.toJson_eq_num
    rw [toJson, hn]
    rfl
  | json v =>
    cases v with
    | str t => cases hnone
    | _ => rfl
  | _ => rfl

theorem matches_json (hj : j.isScalar = true) (h : ofJson j = .ok d)
    (hx : ∀ n ∈ x.rawNumbers, n.HasDecimal) : (Datum.json j).matches x = d.matches x := by
  rw [matches_eq, matches_eq, asNumber?_json h, asText?_json h]
  cases j with
  | null =>
    cases h
    rfl
  | bool b =>
    cases h
    cases x with
    | number e =>
      obtain ⟨m, hm⟩ := e.toJson_eq_num
      simp [asNumber?, asText?, isRaw, toJson, hm, Json.equal, equal]
    | _ => rfl
  | num n =>
    obtain ⟨e, he, rfl⟩ := ofJson_num_iff.mp h
    cases hnone : x.asNumber? with
    | some r => rfl
    | none =>
      obtain ⟨m, hm⟩ := e.toJson_eq_num
      have hne := toJson_ne_num hx hnone
      have hjson : (Json.num n).equal x.toJson = false := by rw [Json.equal_comm, hne]
      have hraw : e.toJson.equal x.toJson = false := by rw [Json.equal_comm, hm, hne]
      have hnative : (Datum.number e).equal x = false := by
        cases x with
        | number r => cases hnone
        | _ => rfl
      simp [asText?, toJson, isRaw, asNumber?, hjson, hraw, hnative]
  | str s =>
    cases h
    cases hnone : x.asText? with
    | some r => rfl
    | none =>
      have hjson : (Json.str s).equal x.toJson = false := by
        rw [Json.equal_comm, toJson_ne_str hnone]
      have hnative : (Datum.text s).equal x = false := by
        cases x with
        | text r => cases hnone
        | _ => rfl
      simp [asText?, toJson, isRaw, asNumber?, hjson, hnative]
  | arr items => cases hj
  | obj fields => cases hj

end Datum

/-! ## Operators -/

namespace Operator

variable {op : Operator} {a b x : Datum}

theorem toOption_compareNumbers (op : Operator) (l r : Datum) :
    (op.compareNumbers l r).toOption =
      l.asNumber?.bind fun m => r.asNumber?.bind fun n => (op.compareDecimals m n).toOption := by
  unfold compareNumbers operand
  cases l.asNumber? with
  | none => rfl
  | some m => cases r.asNumber? <;> rfl

theorem toOption_texts (op : Operator) (l r : Datum) :
    (op.texts l r).toOption = l.asText?.bind fun s => r.asText?.map fun t => (s, t) := by
  unfold texts
  cases l.asText? with
  | none => rfl
  | some s => cases r.asText? <;> rfl

theorem toOption_map {α β : Type} (r : Except EvalError α) (f : α → β) :
    (r.map f).toOption = r.toOption.map f := by
  cases r <;> rfl

/-- Answers go by the views, by equality and by what is found. -/
theorem toOption_apply_congr {a' x' : Datum} (hn : a.asNumber? = a'.asNumber?)
    (hn' : x.asNumber? = x'.asNumber?) (ht : a.asText? = a'.asText?)
    (ht' : x.asText? = x'.asText?) (hm : a.matches x = a'.matches x')
    (hs : (op.search a x).toOption = (op.search a' x').toOption) :
    (op.apply a x).toOption = (op.apply a' x').toOption := by
  cases op
  case eq => simp [apply, hm]
  case ne => simp [apply, hm]
  case contains => exact hs
  case notContains => rw [apply, apply, toOption_map, toOption_map, hs]
  case startsWith | endsWith =>
    simp only [apply, toOption_map, toOption_texts, ht, ht']
  case lt | le | gt | ge =>
    simp only [apply, toOption_compareNumbers, hn, hn']

theorem sameAnswer_of_toOption {a' x' : Datum}
    (h : (op.apply a x).toOption = (op.apply a' x').toOption) :
    SameAnswer (op.apply a x) (op.apply a' x') :=
  .of_toOption apply_eq_error apply_eq_error h

variable {j : Json} {d : Datum}

/-- Searching in a scalar. -/
theorem search_in_json (hj : j.isScalar = true) (h : Datum.ofJson j = .ok d) (x : Datum) :
    (op.search (.json j) x).toOption = (op.search d x).toOption := by
  cases j with
  | num n =>
    obtain ⟨e, -, rfl⟩ := Datum.ofJson_num_iff.mp h
    rfl
  | arr items => cases hj
  | obj fields => cases hj
  | _ =>
    cases h
    rfl

/-- Searching for a scalar. -/
theorem search_for_json (hj : j.isScalar = true) (h : Datum.ofJson j = .ok d)
    (hx : ∀ n ∈ x.rawNumbers, n.HasDecimal) :
    op.search x (.json j) = op.search x d := by
  have hitem {y : Datum} (hy : ∀ n ∈ y.rawNumbers, n.HasDecimal) :
      y.matches (.json j) = y.matches d := by
    rw [Datum.matches_comm y, Datum.matches_comm y, Datum.matches_json hj h hy]
  have hany {α : Type} (f : α → Datum) (items : List α)
      (hf : ∀ a ∈ items, (f a).rawNumbers ⊆ x.rawNumbers) :
      (items.any fun a => (f a).matches (.json j)) = items.any fun a => (f a).matches d := by
    rw [Bool.eq_iff_iff, List.any_eq_true, List.any_eq_true]
    refine exists_congr fun a => and_congr_right fun ha => ?_
    rw [hitem fun n hn => hx n (hf a ha hn)]
  have ht := Datum.asText?_json h
  cases x with
  | list items =>
    exact congrArg Except.ok (hany id items fun a ha => Datum.rawNumbers_subset_of_item ha)
  | json v =>
    cases v with
    | arr items =>
      exact congrArg Except.ok (hany Datum.json items fun a ha => Json.numbers_subset_of_item ha)
    | _ => simp only [search, ht]
  | _ => simp only [search, ht]

end Operator

/-! ## Main statement -/

/-- A raw JSON scalar and its native form get the same answer from every operator, be they the left
operand or the right one, if no raw number in the other operand lacks a decimal form. -/
theorem raw_scalars_act_as_native {j : Json} (hj : j.isScalar = true) {d : Datum}
    (hd : Datum.ofJson j = .ok d) {x : Datum} (hx : ∀ n ∈ x.rawNumbers, n.HasDecimal)
    (op : Operator) :
    SameAnswer (op.apply (.json j) x) (op.apply d x) ∧
      SameAnswer (op.apply x (.json j)) (op.apply x d) := by
  have hn := Datum.asNumber?_json hd
  have ht := Datum.asText?_json hd
  have hleft : (Datum.json j).matches x = d.matches x := Datum.matches_json hj hd hx
  have hright : x.matches (.json j) = x.matches d := by
    rw [Datum.matches_comm x, hleft, Datum.matches_comm x]
  exact ⟨Operator.sameAnswer_of_toOption (Operator.toOption_apply_congr hn rfl ht rfl hleft
      (Operator.search_in_json hj hd x)),
    Operator.sameAnswer_of_toOption (Operator.toOption_apply_congr rfl hn rfl ht hright
      (congrArg _ (Operator.search_for_json hj hd hx)))⟩

/-- A raw number in a mixed list, next to a raw array that holds it as a double. -/
theorem raw_scalars_act_as_native_in_list :
    let eighteen : JsonNumber := .integer 18 (by decide)
    let native : Datum := .number (.ofInt 18 (by decide))
    let ages : Json := .arr [.str "18", .num eighteen]
    let x : Datum := .list [.text "18", .json ages, .json (.num eighteen)]
    Datum.ofJson (.num eighteen) = .ok native ∧
    (∀ n ∈ x.rawNumbers, n.HasDecimal) ∧
    SameAnswer (Operator.contains.apply x (.json (.num eighteen)))
      (Operator.contains.apply x native) ∧
    Operator.contains.apply x native = .ok true := by
  intro eighteen native ages x
  have hd : Datum.ofJson (.num eighteen) = .ok native := rfl
  have hx : ∀ n ∈ x.rawNumbers, n.HasDecimal := by
    have hnumbers : x.rawNumbers = [eighteen, eighteen] := rfl
    rw [hnumbers]
    simp only [List.forall_mem_cons]
    exact ⟨⟨_, rfl⟩, ⟨_, rfl⟩, fun _ h => absurd h List.not_mem_nil⟩
  exact ⟨hd, hx, (raw_scalars_act_as_native rfl hd hx .contains).2, rfl⟩

end Rulebook
