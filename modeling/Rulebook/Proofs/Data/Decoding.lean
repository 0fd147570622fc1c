import Rulebook.Context
import Rulebook.Proofs.Data.Conversion

/-! # Decoding is all or nothing

A JSON value has a native form exactly if each of its numbers has a decimal form, and otherwise
fails with the first of the others in depth-first order. The native form mirrors the value part by
part. An object is decoded in the same way into a map, a record and a context.
-/

set_option autoImplicit false

namespace Rulebook

/-! ## Parts -/

/-- A value in a JSON value at some depth, or the value itself. -/
inductive Json.PartOf (p : Json) : Json → Prop where
  | self : PartOf p p
  | item {a : Json} {items : List Json} : a ∈ items → PartOf p a → PartOf p (.arr items)
  | field {e : String × Json} {fields : List (String × Json)} :
    e ∈ fields → PartOf p e.2 → PartOf p (.obj fields)

namespace Datum

/-- A datum in a datum at some depth, or the datum itself. -/
inductive PartOf (p : Datum) : Datum → Prop where
  | self : PartOf p p
  | item {a : Datum} {items : List Datum} : a ∈ items → PartOf p a → PartOf p (.list items)
  | entry {e : String × Datum} {entries : List (String × Datum)} :
    e ∈ entries → PartOf p e.2 → PartOf p (.map entries)
  | field {e : String × Datum} {typeName : String} {fields : List (String × Datum)} :
    e ∈ fields → PartOf p e.2 → PartOf p (.record typeName fields)

end Datum

/-! ## Native forms mirror values -/

/-- Entries with one key and related values. -/
inductive SameKey {α β : Type} (R : α → β → Prop) : String × α → String × β → Prop where
  | mk (key : String) {a : α} {b : β} : R a b → SameKey R (key, a) (key, b)

theorem sameKey_iff {α β : Type} {R : α → β → Prop} {f : String × α} {e : String × β} :
    SameKey R f e ↔ f.1 = e.1 ∧ R f.2 e.2 := by
  constructor
  · rintro ⟨key, h⟩
    exact ⟨rfl, h⟩
  · obtain ⟨key, a⟩ := f
    obtain ⟨key', b⟩ := e
    rintro ⟨rfl, h⟩
    exact .mk key h

namespace Datum

/-- The datum has the arrays, the objects and the scalars of the JSON value, all in their places. -/
inductive Mirrors : Json → Datum → Prop where
  | null : Mirrors .null (.json .null)
  | bool (b : Bool) : Mirrors (.bool b) (.bool b)
  | num {n : JsonNumber} {x : Decimal} : n.toDecimal = .ok x → Mirrors (.num n) (.number x)
  | str (s : String) : Mirrors (.str s) (.text s)
  | arr {items : List Json} {ds : List Datum} :
    List.Forall₂ Mirrors items ds → Mirrors (.arr items) (.list ds)
  | obj {fields : List (String × Json)} {entries : List (String × Datum)} :
    List.Forall₂ (SameKey Mirrors) fields entries → Mirrors (.obj fields) (.map entries)

variable {j q : Json} {d p : Datum}

theorem ofJson_iff_mirrors : ofJson j = .ok d ↔ Mirrors j d := by
  constructor
  · exact native_induction .null .bool (fun _ _ => .num) .str (fun _ _ => .arr)
      fun _ _ h => .obj (h.imp fun _ _ => sameKey_iff.mpr)
  · intro h
    induction j using Json.induction generalizing d with
    | num n =>
      cases h with
      | num hx => exact ofJson_num_iff.mpr ⟨_, hx, rfl⟩
    | arr items ih =>
      cases h with
      | arr hds =>
        exact ofJson_arr_iff.mpr ⟨_, forall₂_of_forall_mem hds fun a ha _ _ => ih a ha, rfl⟩
    | obj fields ih =>
      cases h with
      | obj hentries =>
        refine ofJson_obj_iff.mpr ⟨_, forall₂_of_forall_mem hentries fun f hf e _ h => ?_, rfl⟩
        exact (sameKey_iff.mp h).imp_right (ih f hf)
    | _ =>
      cases h
      rfl

/-- Each part of the datum mirrors a part of the value. -/
theorem Mirrors.of_partOf (h : Mirrors j d) (hp : p.PartOf d) : ∃ q, q.PartOf j ∧ Mirrors q p := by
  induction hp generalizing j with
  | self => exact ⟨j, .self, h⟩
  | item ha _ ih =>
    cases h with
    | arr hds =>
      obtain ⟨a', ha', hmirror⟩ := exists_mem_of_forall₂ hds _ ha
      obtain ⟨q, hq, hqp⟩ := ih hmirror
      exact ⟨q, .item ha' hq, hqp⟩
  | entry he _ ih =>
    cases h with
    | obj hentries =>
      obtain ⟨f, hf, hmirror⟩ := exists_mem_of_forall₂ hentries _ he
      obtain ⟨q, hq, hqp⟩ := ih (sameKey_iff.mp hmirror).2
      exact ⟨q, .field hf hq, hqp⟩
  | field => cases h

/-- Each part of the value is mirrored by a part of the datum. -/
theorem Mirrors.exists_partOf (h : Mirrors j d) (hq : q.PartOf j) :
    ∃ p, p.PartOf d ∧ Mirrors q p := by
  induction hq generalizing d with
  | self => exact ⟨d, .self, h⟩
  | item ha _ ih =>
    cases h with
    | arr hds =>
      obtain ⟨a', ha', hmirror⟩ := exists_mem_of_forall₂ hds.flip _ ha
      obtain ⟨p, hp, hqp⟩ := ih hmirror
      exact ⟨p, .item ha' hp, hqp⟩
  | field he _ ih =>
    cases h with
    | obj hentries =>
      obtain ⟨f, hf, hmirror⟩ := exists_mem_of_forall₂ hentries.flip _ he
      obtain ⟨p, hp, hqp⟩ := ih (sameKey_iff.mp hmirror).2
      exact ⟨p, .entry hf hp, hqp⟩

/-- No part of a native form is a record. -/
theorem Mirrors.ne_record (h : Mirrors j d) (hp : p.PartOf d) (typeName : String)
    (fields : List (String × Datum)) : p ≠ .record typeName fields := by
  rintro rfl
  obtain ⟨q, -, hqp⟩ := h.of_partOf hp
  cases hqp

/-- The raw JSON in a native form is what nulls leave there. -/
theorem Mirrors.json_partOf_iff (h : Mirrors j d) {value : Json} :
    (Datum.json value).PartOf d ↔ value = .null ∧ Json.null.PartOf j := by
  constructor
  · intro hp
    obtain ⟨q, hq, hqp⟩ := h.of_partOf hp
    cases hqp
    exact ⟨rfl, hq⟩
  · rintro ⟨rfl, hq⟩
    obtain ⟨p, hp, hqp⟩ := h.exists_partOf hq
    cases hqp
    exact hp

end Datum

/-! ## The first failure -/

section Checks

variable {ε α β : Type}

/-- A computation whose result is of no interest. -/
def check (r : Except ε α) : Except ε Unit :=
  r.map fun _ => ()

theorem check_map (r : Except ε α) (f : α → β) : check (r.map f) = check r := by
  cases r <;> rfl

theorem check_eq_ok_iff {r : Except ε α} : check r = .ok () ↔ ∃ a, r = .ok a := by
  rw [check, map_eq_ok_iff]
  exact exists_congr fun a => and_iff_left rfl

theorem check_eq_error_iff {r : Except ε α} {e : ε} : check r = .error e ↔ r = .error e := by
  cases r with
  | ok a => exact ⟨nofun, nofun⟩
  | error e' => rw [check, Except.map, Except.error.injEq, Except.error.injEq]

theorem forM_flatMap (f : β → Except ε Unit) (g : α → List β) (l : List α) :
    forM (l.flatMap g) f = forM l fun a => forM (g a) f := by
  induction l with
  | nil => rfl
  | cons a l ih => rw [List.flatMap_cons, List.forM_append, ih, List.forM_cons]

theorem forM_congr {f g : α → Except ε Unit} {l : List α} (h : ∀ a ∈ l, f a = g a) :
    forM l f = forM l g := by
  induction l with
  | nil => rfl
  | cons a l ih =>
    obtain ⟨ha, hl⟩ := List.forall_mem_cons.mp h
    rw [List.forM_cons, List.forM_cons, ha, ih hl]

end Checks

namespace Datum

theorem check_itemsOfJson (items : List Json) :
    check (itemsOfJson items) = forM items fun a => check (ofJson a) := by
  induction items with
  | nil => rfl
  | cons a rest ih =>
    rw [itemsOfJson, List.forM_cons, ← ih]
    cases ofJson a with
    | error e => rfl
    | ok d => cases itemsOfJson rest <;> rfl

theorem check_entriesOfJson (fields : List (String × Json)) :
    check (entriesOfJson fields) = forM fields fun f => check (ofJson f.2) := by
  induction fields with
  | nil => rfl
  | cons f rest ih =>
    rw [entriesOfJson, List.forM_cons, ← ih]
    cases ofJson f.2 with
    | error e => rfl
    | ok d => cases entriesOfJson rest <;> rfl

/-- A value is checked by checking its numbers one after the other. -/
theorem check_ofJson (j : Json) :
    check (ofJson j) = forM j.numbers fun n => check n.toDecimal := by
  induction j using Json.induction with
  | num n =>
    rw [ofJson, check_map, Json.numbers, List.forM_cons]
    cases n.toDecimal <;> rfl
  | arr items ih =>
    rw [ofJson, check_map, check_itemsOfJson, Json.numbers, Json.itemNumbers_eq, forM_flatMap]
    exact forM_congr ih
  | obj fields ih =>
    rw [ofJson, check_map, check_entriesOfJson, Json.numbers, Json.fieldNumbers_eq, forM_flatMap]
    exact forM_congr ih
  | _ => rfl

theorem ofJson_isOk_iff (j : Json) :
    (∃ d, ofJson j = .ok d) ↔ ∀ n ∈ j.numbers, n.HasDecimal := by
  rw [← check_eq_ok_iff, check_ofJson, forM_eq_ok_iff]
  exact forall₂_congr fun n _ => check_eq_ok_iff

theorem hasDecimal_of_mem {j : Json} {d : Datum} (h : ofJson j = .ok d) :
    ∀ n ∈ j.numbers, n.HasDecimal :=
  (ofJson_isOk_iff j).mp ⟨d, h⟩

theorem ofJson_eq_error_iff (j : Json) (e : EvalError) : ofJson j = .error e ↔
    ∃ before n after, j.numbers = before ++ n :: after ∧ (∀ m ∈ before, m.HasDecimal) ∧
      n.toDecimal = .error e := by
  rw [← check_eq_error_iff, check_ofJson, forM_eq_error_iff]
  simp only [check_eq_ok_iff, check_eq_error_iff, JsonNumber.HasDecimal]

end Datum

/-! ## Objects, one entry after the other -/

namespace Keyed

variable {α : Type} {entries : List (String × α)} {key : String} {value : α}

/-- An entry under a greater key goes to the end. -/
theorem insert_of_forall_lt (h : ∀ k ∈ keys entries, k < key) :
    insert key value entries = entries ++ [(key, value)] := by
  induction entries with
  | nil => rfl
  | cons e rest ih =>
    obtain ⟨hk, hrest⟩ := List.forall_mem_cons.mp h
    rw [insert, if_neg (String.lt_asymm hk), if_neg fun heq => String.lt_irrefl _ (heq ▸ hk),
      ih hrest, List.cons_append]

end Keyed

namespace Datum

variable {fields : List (String × Json)}

/-- The native entries of an object, stored one after the other. -/
def storeFields (fields : List (String × Json)) (entries : List (String × Datum)) :
    Except EvalError (List (String × Datum)) :=
  fields.foldlM (fun entries f => (ofJson f.2).map (Keyed.insert f.1 · entries)) entries

theorem storeFields_eq (entries : List (String × Datum))
    (h : (Keyed.keys entries ++ Keyed.keys fields).Pairwise (· < ·)) :
    storeFields fields entries = (entriesOfJson fields).map (entries ++ ·) := by
  induction fields generalizing entries with
  | nil => exact congrArg Except.ok (List.append_nil entries).symm
  | cons f rest ih =>
    rw [storeFields, List.foldlM_cons, entriesOfJson]
    cases ofJson f.2 with
    | error e => rfl
    | ok d =>
      have hlast : Keyed.insert f.1 d entries = entries ++ [(f.1, d)] :=
        Keyed.insert_of_forall_lt fun k hk =>
          (List.pairwise_append.mp h).2.2 k hk f.1 List.mem_cons_self
      have hkeys : Keyed.keys (entries ++ [(f.1, d)]) ++ Keyed.keys rest =
          Keyed.keys entries ++ Keyed.keys (f :: rest) := by
        simp [Keyed.keys]
      have hrest := ih (entries ++ [(f.1, d)]) (hkeys ▸ h)
      show storeFields rest (Keyed.insert f.1 d entries) = _
      rw [hlast, hrest]
      cases entriesOfJson rest with
      | error e => rfl
      | ok es => exact congrArg Except.ok (List.append_assoc entries [(f.1, d)] es)

end Datum

namespace Context

/-- The context with the fields of an object, stored one after the other. -/
def storeFields (fields : List (String × Json)) (ctx : Context) : Except EvalError Context :=
  fields.foldlM (fun ctx f => (Datum.ofJson f.2).map (ctx.insert f.1)) ctx

theorem storeFields_eq (fields : List (String × Json)) (ctx : Context) :
    storeFields fields ctx = (Datum.storeFields fields ctx.entries).map .mk := by
  induction fields generalizing ctx with
  | nil => rfl
  | cons f rest ih =>
    rw [storeFields, Datum.storeFields, List.foldlM_cons, List.foldlM_cons]
    cases Datum.ofJson f.2 with
    | error e => rfl
    | ok d => exact ih (ctx.insert f.1 d)

end Context

/-! ## Main statement -/

/-- A value has a native form, which mirrors it, exactly if all its numbers have decimal forms, and
else its first other number is the error. From an object, a map, a record and a context are made of
the same entries, by storing its native fields one after the other, or fail alike. -/
theorem json_decoding_is_all_or_nothing (j : Json) :
    ((∃ d, Datum.ofJson j = .ok d) ↔ ∀ n ∈ j.numbers, n.HasDecimal) ∧
    (∀ d, Datum.ofJson j = .ok d → Datum.Mirrors j d ∧
      (∀ p : Datum, p.PartOf d → ∀ typeName fields, p ≠ .record typeName fields) ∧
      ∀ value, (Datum.json value).PartOf d ↔ value = .null ∧ Json.null.PartOf j) ∧
    (∀ e, Datum.ofJson j = .error e ↔ ∃ before n after, j.numbers = before ++ n :: after ∧
      (∀ m ∈ before, m.HasDecimal) ∧ n.toDecimal = .error e) ∧
    ∀ fields, j = .obj fields → ∃ entries, Datum.ofJson j = entries.map .map ∧
      (∀ typeName, Datum.recordOfJson typeName j = entries.map (.record typeName)) ∧
      Context.ofJson j = entries.map .mk ∧
      (Keyed.Ordered fields → Datum.storeFields fields [] = entries ∧
        Context.storeFields fields ∅ = entries.map .mk) := by
  refine ⟨Datum.ofJson_isOk_iff j, fun d h => ?_, Datum.ofJson_eq_error_iff j, ?_⟩
  · have hmirrors : Datum.Mirrors j d := Datum.ofJson_iff_mirrors.mp h
    exact ⟨hmirrors, fun p hp => hmirrors.ne_record hp, fun value => hmirrors.json_partOf_iff⟩
  · rintro fields rfl
    have hstored (hordered : Keyed.Ordered fields) :
        Datum.storeFields fields [] = Datum.entriesOfJson fields := by
      rw [Datum.storeFields_eq [] hordered]
      cases Datum.entriesOfJson fields <;> rfl
    refine ⟨Datum.entriesOfJson fields, by rw [Datum.ofJson], fun _ => rfl, rfl, fun hordered => ?_⟩
    exact ⟨hstored hordered, by rw [Context.storeFields_eq, ← hstored hordered]; rfl⟩

/-- A nest with a null, and a nest in which two numbers are out of range. -/
theorem json_decoding_is_all_or_nothing_nested :
    let five : JsonNumber := .integer 5 (by decide)
    let far : JsonNumber := .float ⟨false, 0x10000000000000, 848, by decide⟩
    let farther : JsonNumber := .float ⟨true, 0x10000000000000, 849, by decide⟩
    let sizes : Json := .arr [.num five, .null]
    let near : List (String × Json) := [("open", .bool true), ("sizes", sizes)]
    let native : List (String × Datum) := [("open", .bool true),
      ("sizes", .list [.number (.ofInt 5 (by decide)), .json .null])]
    let distant : Json := .obj [("at", sizes), ("from", .num far), ("to", .arr [.num farther])]
    (∃ d, Datum.ofJson (.obj near) = .ok d) ∧ (Datum.json .null).PartOf (.map native) ∧
      Datum.storeFields near [] = .ok native ∧
      ∃ e, far.toDecimal = .error e ∧ Datum.ofJson distant = .error e := by
  intro five far farther sizes near native distant
  obtain ⟨hok, hparts, -, hobject⟩ := json_decoding_is_all_or_nothing (.obj near)
  obtain ⟨-, -, herror, -⟩ := json_decoding_is_all_or_nothing distant
  have hnumbers : (Json.obj near).numbers = [five] := rfl
  have hnative : Datum.ofJson (.obj near) = .ok (.map native) := rfl
  have hnull : Json.null.PartOf (.obj near) :=
    .field (e := ("sizes", sizes)) (by simp [near])
      (.item (a := .null) (by simp) .self)
  have hfar : far.toDecimal.toOption = none := by decide +kernel
  refine ⟨hok.mpr ?_, ?_, ?_, ?_⟩
  · rw [hnumbers, List.forall_mem_singleton]
    exact ⟨_, rfl⟩
  · exact ((hparts _ hnative).2.2 .null).mpr ⟨rfl, hnull⟩
  · obtain ⟨entries, hentries, -, -, hstored⟩ := hobject near rfl
    rw [(hstored (by decide)).1]
    rw [hnative] at hentries
    cases entries with
    | error e => cases hentries
    | ok es =>
      cases hentries
      rfl
  · cases htoDecimal : far.toDecimal with
    | ok x =>
      rw [htoDecimal] at hfar
      cases hfar
    | error e =>
      refine ⟨e, rfl, (herror e).mpr ⟨[five], far, [farther], rfl, ?_, htoDecimal⟩⟩
      exact List.forall_mem_singleton.mpr ⟨_, rfl⟩

end Rulebook
