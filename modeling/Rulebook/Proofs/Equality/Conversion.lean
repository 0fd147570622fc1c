import Rulebook.Function.Property
import Rulebook.Keyed
import Rulebook.Proofs.Equality.Datum
import Rulebook.Proofs.Equality.Outcome

/-! # Equal data are read alike

What is read off a datum, its type, its text, an entry, the native form of raw JSON, is the same or
equal for an equal datum, and where nothing can be read the failures are the same. Of raw JSON this
needs a look at numbers: equal ones are identical but for the two zeros, whose texts differ and are
read as one decimal. So the property reader maps equal parameters to equal outcomes.
-/

set_option autoImplicit false

namespace Rulebook

/-! ## Entries -/

namespace Keyed

variable {α : Type} {same : α → α → Bool} {as bs : List (String × α)}

/-- The entries have one key and equal values. -/
abbrev SameEntry (same : α → α → Bool) (a b : String × α) : Prop :=
  (a.1 == b.1 && same a.2 b.2) = true

def SameEntries (same : α → α → Bool) (as bs : List (String × α)) : Prop :=
  List.Forall₂ (SameEntry same) as bs

theorem sameEntry_mk {v w : α} (hvw : same v w = true) (key : String) :
    SameEntry same (key, v) (key, w) := by
  simp [SameEntry, hvw]

/-- A key has equal values in both, or none in either. -/
theorem SameEntries.lookup_cases (h : SameEntries same as bs) (key : String) :
    (as.lookup key = none ∧ bs.lookup key = none) ∨
      ∃ v w, as.lookup key = some v ∧ bs.lookup key = some w ∧ same v w = true :=
  lookup_cases_of_forall₂
    (h.imp fun _ _ hab => (Bool.and_eq_true_iff.mp hab).imp beq_iff_eq.mp id) key

theorem sameEntries_insert (h : SameEntries same as bs) (key : String) {v w : α}
    (hvw : same v w = true) : SameEntries same (insert key v as) (insert key w bs) := by
  induction h with
  | nil => exact .cons (sameEntry_mk hvw key) .nil
  | @cons a b as bs hab hrest ih =>
    obtain ⟨hkey, hvalue⟩ := Bool.and_eq_true_iff.mp hab
    rw [insert, insert, ← beq_iff_eq.mp hkey]
    split
    · exact .cons (sameEntry_mk hvw key) (.cons (sameEntry_mk hvalue a.1) hrest)
    · split
      · exact .cons (sameEntry_mk hvw key) hrest
      · exact .cons (sameEntry_mk hvalue a.1) ih

theorem sameEntries_ofList (h : SameEntries same as bs) :
    SameEntries same (ofList as) (ofList bs) := by
  have hfold (l m : List (String × α)) (hlm : SameEntries same l m) :
      SameEntries same (as.foldl (fun map e => insert e.1 e.2 map) l)
        (bs.foldl (fun map e => insert e.1 e.2 map) m) := by
    induction h generalizing l m with
    | nil => exact hlm
    | @cons a b _ _ hab _ ih =>
      obtain ⟨hkey, hvalue⟩ := Bool.and_eq_true_iff.mp hab
      rw [List.foldl_cons, List.foldl_cons, ← beq_iff_eq.mp hkey]
      exact ih _ _ (sameEntries_insert hlm a.1 hvalue)
  exact hfold [] [] .nil

end Keyed

/-! ## Numbers -/

abbrev Decimal.Equals (d e : Decimal) : Prop :=
  d.equal e = true

theorem Decimal.equal_self (d : Decimal) : d.equal d = true :=
  (d.spelled.words_eq_iff d).mp rfl

/-- Both zeros are read as one decimal. -/
theorem JsonNumber.toDecimal_zero {x : Double} (h : x.isZero = true) :
    ∃ d, (JsonNumber.float x).toDecimal = .ok d ∧ d.coefficient = 0 := by
  have htext : x.text = if x.negative then "-0.0" else "0.0" := by
    rw [Double.text, if_pos h]
    cases x.negative <;> rfl
  rw [toDecimal, htext]
  cases x.negative with
  | true => exact ⟨⟨false, 0, 1, by decide, by decide⟩, rfl, rfl⟩
  | false => exact ⟨⟨false, 0, 1, by decide, by decide⟩, rfl, rfl⟩

/-- Equal numbers have equal decimals or fail alike. -/
theorem JsonNumber.toDecimal_same {m n : JsonNumber} (h : m.equal n = true) :
    SameOutcome Decimal.Equals m.toDecimal n.toDecimal := by
  cases m with
  | integer v _ =>
    cases n with
    | integer w _ =>
      obtain rfl : v = w := beq_iff_eq.mp h
      exact .refl Decimal.equal_self _
    | float y => cases h
  | float x =>
    cases n with
    | integer w _ => cases h
    | float y =>
      rcases Bool.or_eq_true_iff.mp h with hzero | heq
      · obtain ⟨hx, hy⟩ := Bool.and_eq_true_iff.mp hzero
        obtain ⟨d, hd, hd0⟩ := toDecimal_zero hx
        obtain ⟨e, he, he0⟩ := toDecimal_zero hy
        rw [hd, he]
        refine .ok ?_
        simp [Decimal.Equals, Decimal.equal, hd0, he0]
      · rw [beq_iff_eq.mp heq]
        exact .refl Decimal.equal_self _

/-! ## Data -/

namespace Datum

abbrev Equals (d e : Datum) : Prop :=
  d.equal e = true

variable {a b : Datum}

theorem dataType_eq_of_equal (h : a.equal b = true) : a.dataType = b.dataType := by
  cases a <;> cases b <;> first | rfl | cases h

theorem fits_eq_of_equal (h : a.equal b = true) (t : DataType) : a.fits t = b.fits t := by
  rw [fits, fits, dataType_eq_of_equal h]

theorem asText?_eq_of_equal (h : a.equal b = true) : a.asText? = b.asText? := by
  cases a with
  | text s =>
    cases b with
    | text t => exact congrArg some (beq_iff_eq.mp h)
    | _ => cases h
  | json j =>
    cases b with
    | json k =>
      cases j with
      | str s =>
        cases k with
        | str t => exact congrArg some (beq_iff_eq.mp h)
        | _ => cases h
      | _ => cases k <;> first | rfl | cases h
    | _ => cases h
  | _ => cases b <;> first | rfl | cases h

/-- Equal JSON values have equal native forms or fail alike. -/
theorem ofJson_same (j : Json) : ∀ k, j.equal k = true →
    SameOutcome Datum.Equals (ofJson j) (ofJson k) := by
  induction j using Json.induction with
  | null => intro k h; cases k <;> first | exact .ok rfl | cases h
  | bool b =>
    intro k h
    cases k with
    | bool c => exact .ok h
    | _ => cases h
  | str s =>
    intro k h
    cases k with
    | str t => exact .ok h
    | _ => cases h
  | num n =>
    intro k h
    cases k with
    | num o => exact (JsonNumber.toDecimal_same h).map fun d e hde => hde
    | _ => cases h
  | arr items ih =>
    intro k h
    cases k with
    | arr items' =>
      have hitems := Json.equalItems_iff.mp h
      refine (itemsOfJson_same ?_).map fun ds es hds => equalItems_iff.mpr hds
      exact forall₂_of_forall_mem hitems fun a ha b _ hab => ih a ha b hab
    | _ => cases h
  | obj fields ih =>
    intro k h
    cases k with
    | obj fields' =>
      have hfields := Json.equalFields_iff.mp h
      refine (entriesOfJson_same ?_).map fun ds es hds => equalEntries_iff.mpr hds
      refine forall₂_of_forall_mem hfields fun a ha b _ hab => ?_
      obtain ⟨hkey, hvalue⟩ := Bool.and_eq_true_iff.mp hab
      exact ⟨beq_iff_eq.mp hkey, ih a ha b.2 hvalue⟩
    | _ => cases h
where
  itemsOfJson_same {as bs : List Json} (h : List.Forall₂ (fun a b =>
      SameOutcome Datum.Equals (ofJson a) (ofJson b)) as bs) :
      SameOutcome (List.Forall₂ Equals) (itemsOfJson as)
        (itemsOfJson bs) := by
    induction h with
    | nil => exact .ok .nil
    | cons hab _ ih =>
      rw [itemsOfJson, itemsOfJson]
      exact hab.bind fun d e hde => ih.bind fun ds es hrest => .ok (.cons hde hrest)
  entriesOfJson_same {as bs : List (String × Json)} (h : List.Forall₂ (fun a b => a.1 = b.1 ∧
      SameOutcome Datum.Equals (ofJson a.2) (ofJson b.2)) as bs) :
      SameOutcome (Keyed.SameEntries Datum.equal) (entriesOfJson as) (entriesOfJson bs) := by
    induction h with
    | nil => exact .ok .nil
    | cons hab _ ih =>
      rw [entriesOfJson, entriesOfJson]
      refine hab.2.bind fun d e hde => ih.bind fun ds es hrest => .ok (.cons ?_ hrest)
      rw [hab.1]
      exact Keyed.sameEntry_mk hde _

end Datum

/-! ## Properties -/

namespace Property

theorem field?_obj (fields : List (String × Json)) (name : String) :
    field? (.json (.obj fields)) name =
      match fields.lookup name with
      | none => .ok none
      | some value => ((Datum.ofJson value).map some).mapError fun e => .failed e.message := by
  rw [field?]
  cases fields.lookup name with
  | none => rfl
  | some value =>
    simp only
    cases Datum.ofJson value <;> rfl

/-- Equal objects have equal fields under every name, or cannot be read alike. -/
theorem field?_same {a b : Datum} (h : a.equal b = true) (name : String) :
    SameOutcome (Option.Rel Datum.Equals) (field? a name) (field? b name) := by
  have hentries {as bs : List (String × Datum)} (h : Datum.equalEntries as bs = true) :
      Option.Rel Datum.Equals (as.lookup name) (bs.lookup name) := by
    obtain ⟨ha, hb⟩ | ⟨v, w, ha, hb, hvw⟩ :=
      Keyed.SameEntries.lookup_cases (Datum.equalEntries_iff.mp h) name
    · rw [ha, hb]
      exact .none
    · rw [ha, hb]
      exact .some hvw
  cases a with
  | record _ fields =>
    cases b with
    | record _ fields' => exact .ok (hentries (Bool.and_eq_true_iff.mp h).2)
    | _ => cases h
  | map entries =>
    cases b with
    | map entries' => exact .ok (hentries h)
    | _ => cases h
  | json j =>
    cases b with
    | json k =>
      cases j with
      | obj fields =>
        cases k with
        | obj fields' =>
          rw [field?_obj, field?_obj]
          obtain ⟨hj, hk⟩ | ⟨v, w, hj, hk, hvw⟩ :=
            Keyed.SameEntries.lookup_cases (Json.equalFields_iff.mp h) name
          · rw [hj, hk]
            exact .ok .none
          · rw [hj, hk]
            exact ((Datum.ofJson_same v w hvw).map fun d e hde => .some hde).mapError _
        | _ => cases h
      | _ => cases k <;> first | exact .error _ | cases h
    | _ => cases h
  | _ => cases b <;> first | exact .error _ | cases h

/-- The property reader maps equal parameters to equal outcomes. -/
theorem read_same {p q : Datum} (h : p.equal q = true) :
    SameOutcome Datum.Equals (read p) (read q) := by
  cases p with
  | map as =>
    cases q with
    | map bs =>
      have hargs := Keyed.SameEntries.lookup_cases (Datum.equalEntries_iff.mp h)
      have hname : (as.lookup "field").bind Datum.asText? =
          (bs.lookup "field").bind Datum.asText? := by
        obtain ⟨ha, hb⟩ | ⟨v, w, ha, hb, hvw⟩ := hargs "field"
        · rw [ha, hb]
        · rw [ha, hb]
          exact Datum.asText?_eq_of_equal hvw
      rw [read, read, ← hname]
      cases (as.lookup "field").bind Datum.asText? with
      | none => exact .error _
      | some name =>
        obtain ⟨ha, hb⟩ | ⟨v, w, ha, hb, hvw⟩ := hargs "object"
        · rw [ha, hb]
          exact .error _
        · rw [ha, hb]
          refine (field?_same hvw name).bind fun d e hde => ?_
          cases hde with
          | none => exact .error _
          | some hvalue => exact .ok hvalue
    | _ => cases h
  | _ => cases q <;> first | exact .error _ | cases h

end Property

end Rulebook
