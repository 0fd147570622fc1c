import Mathlib.Data.List.Induction
import Rulebook.Proofs.Data.Induction
import Rulebook.Proofs.Evaluation.Checks
import Rulebook.Proofs.Evaluation.Tree

/-! # What stands in a materialized record

A record may declare one name several times. Each content is checked against the slot that it was
declared with, and then stands in the place of what was under its name: the last field of a name
decides. So the keys are the names of the fields, and a typed slot holds in the record that a
function receives unless a later field of its name has a slot that lets more through.
-/

set_option autoImplicit false

namespace Rulebook

/-! ## Entries listed one after the other -/

namespace Keyed

variable {α : Type}

theorem ofList_concat (entries : List (String × α)) (e : String × α) :
    ofList (entries ++ [e]) = insert e.1 e.2 (ofList entries) := by
  rw [ofList, List.foldl_concat, ← ofList]

theorem mem_keys_ofList {entries : List (String × α)} {key : String} :
    key ∈ keys (ofList entries) ↔ key ∈ keys entries := by
  induction entries using List.reverseRecOn with
  | nil => rfl
  | append_singleton entries e ih =>
    rw [ofList_concat, mem_keys_insert, ih, keys, keys, List.map_append, List.mem_append,
      List.map_singleton, List.mem_singleton, or_comm]

/-- Under the key of an entry stands its value or one that is listed later. -/
theorem lookup_ofList_append_cons (before after : List (String × α)) (e : String × α) :
    ∃ value, (ofList (before ++ e :: after)).lookup e.1 = some value ∧
      (value = e.2 ∨ (e.1, value) ∈ after) := by
  induction after using List.reverseRecOn with
  | nil => exact ⟨e.2, by rw [ofList_concat, lookup_insert_self], .inl rfl⟩
  | append_singleton after last ih =>
    rw [← List.cons_append, ← List.append_assoc, ofList_concat]
    by_cases hkey : e.1 = last.1
    · refine ⟨last.2, by rw [hkey, lookup_insert_self], .inr ?_⟩
      rw [hkey]
      exact List.mem_append_right after (List.mem_singleton_self last)
    · obtain ⟨value, hlookup, hvalue⟩ := ih
      rw [lookup_insert_of_ne hkey]
      exact ⟨value, hlookup, hvalue.imp_right (List.mem_append_left [last])⟩

end Keyed

variable {World : Type} {host : Host World} {ctx : Context}

/-! ## Fields -/

/-- The entry stands under the name of the field, with a content that the field can resolve to and
that its slot accepts. -/
structure Field.Contributes (host : Host World) (ctx : Context) (f : Field Param)
    (e : String × Datum) : Prop where
  key_eq : e.1 = f.name
  yields : (f.node.materialize host ctx).Yields e.2
  accepted : f.slot.accepts e.2.dataType = true

theorem Field.Contributes.fits {f : Field Param} {e : String × Datum} {t : DataType}
    (h : f.Contributes host ctx e) (hslot : f.slot = .typed t) : e.2.fits t = true := by
  have haccepted := h.accepted
  rw [hslot] at haccepted
  exact haccepted

theorem Param.record_yields {typeName : String} {fields : List (Field Param)} {d : Datum}
    (h : ((Param.record typeName fields).materialize host ctx).Yields d) :
    ∃ listed, d = .record typeName (Keyed.ofList listed) ∧
      List.Forall₂ (Field.Contributes host ctx) fields listed := by
  rw [materialize, materializeFields_eq] at h
  obtain ⟨listed, hfields, hd⟩ := Eval.yields_bind h
  refine ⟨listed, Eval.yields_pure hd, (Eval.forall₂_of_yields_mapM hfields).imp fun f e hf => ?_⟩
  obtain ⟨content, hcontent, hentry⟩ := Eval.yields_bind hf
  obtain ⟨haccepts, rfl⟩ := Field.entry_eq_ok.mp (Eval.yields_ofExcept hentry)
  exact ⟨rfl, hcontent, haccepts⟩

theorem Param.keys_eq {fields : List (Field Param)} {listed : List (String × Datum)}
    (h : List.Forall₂ (Field.Contributes host ctx) fields listed) :
    Keyed.keys listed = fields.map (·.name) := by
  induction h with
  | nil => rfl
  | cons hf _ ih =>
    rw [Keyed.keys, List.map_cons, List.map_cons, hf.key_eq, ← ih]
    rfl

/-- Under the name of a field stands what the field contributes or what a later one does. -/
theorem Param.record_lookup {before after : List (Field Param)} {f : Field Param}
    {listed : List (String × Datum)}
    (h : List.Forall₂ (Field.Contributes host ctx) (before ++ f :: after) listed) :
    ∃ content, (Keyed.ofList listed).lookup f.name = some content ∧
      (f.Contributes host ctx (f.name, content) ∨
        ∃ g ∈ after, g.Contributes host ctx (f.name, content)) := by
  obtain ⟨first, e, rest, rfl, hf, hrest⟩ := forall₂_append_cons h
  obtain ⟨content, hlookup, hcontent⟩ := Keyed.lookup_ofList_append_cons first rest e
  rw [hf.key_eq] at hlookup hcontent
  refine ⟨content, hlookup, hcontent.imp (fun heq => ?_) (exists_mem_of_forall₂ hrest _)⟩
  rw [heq, ← hf.key_eq]
  exact hf

/-- A typed slot holds if no later field of its name has a slot that lets more through. -/
theorem Param.record_slot_holds {before after : List (Field Param)} {f : Field Param}
    {listed : List (String × Datum)} {t : DataType}
    (h : List.Forall₂ (Field.Contributes host ctx) (before ++ f :: after) listed)
    (hslot : f.slot = .typed t)
    (hlater : ∀ g ∈ after, g.name = f.name → ∃ s, g.slot = .typed s ∧ t.accepts s = true) :
    ∃ content, (Keyed.ofList listed).lookup f.name = some content ∧ content.fits t = true := by
  obtain ⟨content, hlookup, hf | ⟨g, hg, hcontributes⟩⟩ := record_lookup h
  · exact ⟨content, hlookup, hf.fits hslot⟩
  · obtain ⟨s, hs, hts⟩ := hlater g hg hcontributes.key_eq.symm
    exact ⟨content, hlookup, Datum.fits_of_accepts (hcontributes.fits hs) hts⟩

/-! ## Main statement -/

/-- What a record materializes to: a record of its type name under exactly the names of its fields.
Under each name stands a content of the last field of that name, accepted by its slot. A typed slot
holds in the record if each later field of its name has a typed slot of a type that it accepts; if no
name is declared twice, every typed slot holds. -/
theorem materialized_record_slots {typeName : String} {fields : List (Field Param)} {w : World}
    {d : Datum} (h : ((Param.record typeName fields).materialize host ctx w).result = .ok d) :
    ∃ entries, d = .record typeName entries ∧ Keyed.Ordered entries ∧
      (∀ name, name ∈ Keyed.keys entries ↔ ∃ f ∈ fields, f.name = name) ∧
      (∀ before f after, fields = before ++ f :: after → (∀ g ∈ after, g.name ≠ f.name) →
        ∃ content, entries.lookup f.name = some content ∧
          (f.node.materialize host ctx).Yields content ∧
          f.slot.accepts content.dataType = true) ∧
      (∀ before f after t, fields = before ++ f :: after → f.slot = .typed t →
        (∀ g ∈ after, g.name = f.name → ∃ s, g.slot = .typed s ∧ t.accepts s = true) →
        ∃ content, entries.lookup f.name = some content ∧ content.fits t = true) ∧
      ((fields.map (·.name)).Nodup → ∀ f ∈ fields, ∀ t, f.slot = .typed t →
        ∃ content, entries.lookup f.name = some content ∧ content.fits t = true) := by
  obtain ⟨listed, rfl, hlisted⟩ := Param.record_yields ⟨w, h⟩
  refine ⟨Keyed.ofList listed, rfl, Keyed.ordered_ofList listed, fun name => ?_,
    fun before f after hfields hlast => ?_, fun before f after t hfields =>
      Param.record_slot_holds (hfields ▸ hlisted), fun hnodup f hf t hslot => ?_⟩
  · rw [Keyed.mem_keys_ofList, Param.keys_eq hlisted, List.mem_map]
  · obtain ⟨content, hlookup, hf | ⟨g, hg, hcontributes⟩⟩ :=
      Param.record_lookup (hfields ▸ hlisted)
    · exact ⟨content, hlookup, hf.yields, hf.accepted⟩
    · exact absurd hcontributes.key_eq.symm (hlast g hg)
  · obtain ⟨before, after, rfl⟩ := List.append_of_mem hf
    refine Param.record_slot_holds hlisted hslot fun g hg hname => ?_
    rw [List.map_append, List.map_cons] at hnodup
    have hfresh := (List.nodup_cons.mp (List.nodup_append.mp hnodup).2.1).1
    exact absurd (List.mem_map.mpr ⟨g, hg, hname⟩) hfresh

/-- The name `limit` is declared twice, first with the open type and then for numbers. Both slots hold
of the number that the second field contributes. -/
theorem materialized_record_slots_redeclared :
    let limit (t : DataType) (reference : Element) : Field Param :=
      ⟨"limit", .typed t, .value (.element reference)⟩
    let first := limit .genericObject ⟨"n", .number, by decide⟩
    let second := limit .number ⟨"m", .number, by decide⟩
    let host := Host.echo fun _ => ⟨.text, .text⟩
    let one : Decimal := ⟨false, 1, 0, by decide, by decide⟩
    let two : Decimal := ⟨false, 2, 0, by decide, by decide⟩
    let ctx : Context := ⟨[("m", .number two), ("n", .number one)]⟩
    let d : Datum := .record "Query" [("limit", .number two)]
    ((Param.record "Query" [first, second]).materialize host ctx ()).result = .ok d ∧
      ∃ entries, d = .record "Query" entries ∧
        (∀ name, name ∈ Keyed.keys entries ↔ ∃ f ∈ [first, second], f.name = name) ∧
        (∃ content, entries.lookup first.name = some content ∧
          content.fits .genericObject = true) ∧
        ∃ content, entries.lookup second.name = some content ∧
          (second.node.materialize host ctx).Yields content ∧
          second.slot.accepts content.dataType = true := by
  intro limit first second host one two ctx d
  have h : ((Param.record "Query" [first, second]).materialize host ctx ()).result = .ok d := by
    simp only [first, second, limit, host, ctx, one, two, d]
    rfl
  obtain ⟨entries, hd, -, hkeys, hlast, hnarrow, -⟩ := materialized_record_slots h
  refine ⟨h, entries, hd, hkeys, ?_, hlast [first] second [] rfl (List.forall_mem_nil _)⟩
  exact hnarrow [] first [second] .genericObject rfl rfl
    (List.forall_mem_singleton.mpr fun _ => ⟨.number, rfl, rfl⟩)

/-- A number that its slot accepted gives way to a text of the same name, which needs no check. The
record passes validation and materializes, and the slot for numbers does not hold in it. -/
theorem redeclared_slot_does_not_hold :
    let fields : List (Field Param) :=
      [⟨"limit", .typed .number, .value (.element ⟨"n", .number, by decide⟩)⟩,
        ⟨"limit", .untyped, .value (.element ⟨"t", .text, by decide⟩)⟩]
    let host := Host.echo fun _ => ⟨.text, .text⟩
    let one : Decimal := ⟨false, 1, 0, by decide, by decide⟩
    let ctx : Context := ⟨[("n", .number one), ("t", .text "many")]⟩
    let entries := [("limit", Datum.text "many")]
    (Param.record "Query" fields).validate host.toDeclarations = .ok () ∧
      ((Param.record "Query" fields).materialize host ctx ()).result =
        .ok (.record "Query" entries) ∧
      ¬ ∀ f ∈ fields, ∀ t, f.slot = .typed t →
        ∃ content, entries.lookup f.name = some content ∧ content.fits t = true := by
  refine ⟨rfl, rfl, fun h => ?_⟩
  obtain ⟨content, hlookup, hfits⟩ := h _ List.mem_cons_self .number rfl
  cases hlookup
  cases hfits

end Rulebook
