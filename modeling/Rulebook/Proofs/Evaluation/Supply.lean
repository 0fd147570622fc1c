import Rulebook.Proofs.Evaluation.Checks
import Rulebook.Proofs.Evaluation.Dependence

/-! # An evaluation needs all of its references

Collecting references goes through the same leaves as evaluating. So what succeeds has found, for
each of its references, a datum of the declared type in the context; a tree with a reference that
the context does not supply fails. In particular a code cannot be read under two types, the open
type apart. Of a rule that passes only the condition was evaluated, and the same is known of the
references of the condition alone.
-/

set_option autoImplicit false

namespace Rulebook

/-! ## Supply -/

/-- The context holds a datum of the element's type under its code. -/
def Context.Supplies (ctx : Context) (e : Element) : Prop :=
  ∃ d, ctx.get? e.code = some d ∧ d.fits e.dataType = true

/-- One code under two types of which neither accepts what the other one does. -/
structure Element.Conflicts (a b : Element) : Prop where
  code_eq : a.code = b.code
  dataType_ne : a.dataType ≠ b.dataType
  left_typed : a.dataType ≠ .genericObject
  right_typed : b.dataType ≠ .genericObject

theorem Datum.dataType_eq_of_fits {d : Datum} {t : DataType} (h : d.fits t = true)
    (ht : t ≠ .genericObject) : t = d.dataType :=
  (DataType.accepts_iff.mp h).resolve_left ht

theorem Element.Conflicts.not_supplied {a b : Element} (h : a.Conflicts b) {ctx : Context}
    (ha : ctx.Supplies a) : ¬ctx.Supplies b := by
  rintro ⟨d', hb, hb'⟩
  obtain ⟨d, ha, ha'⟩ := ha
  rw [h.code_eq, hb] at ha
  obtain rfl : d' = d := Option.some.inj ha
  have hta : a.dataType = d'.dataType := Datum.dataType_eq_of_fits ha' h.left_typed
  have htb : b.dataType = d'.dataType := Datum.dataType_eq_of_fits hb' h.right_typed
  exact h.dataType_ne (hta.trans htb.symm)

/-! ## Trees, conditions and rules -/

variable {World : Type} {host : Host World} {ctx : Context}

theorem Tree.supplied :
    (∀ v : Expr, ∀ d, (v.evaluate host ctx).Yields d → ∀ e ∈ v.elements, ctx.Supplies e) ∧
      ∀ p : Param, ∀ d, (p.materialize host ctx).Yields d → ∀ e ∈ p.elements, ctx.Supplies e := by
  apply Tree.induction
  case constant => exact fun _ _ _ => List.forall_mem_nil _
  case element =>
    intro reference d h e he
    cases List.mem_singleton.mp he
    exact ⟨d, Element.evaluate_eq_ok.mp (Eval.yields_ofExcept h)⟩
  case application =>
    intro call ih d h
    obtain ⟨argument, hargument, -⟩ := Eval.yields_bind h
    exact ih argument hargument
  case scalar => exact fun _ _ _ => List.forall_mem_nil _
  case value => exact fun _ ih => ih
  case mapping =>
    intro entries ih d h e he
    rw [Param.materialize, Param.materializeEntries_eq] at h
    rw [Param.elements, Param.entryElements_eq] at he
    obtain ⟨entry, hentry, he⟩ := List.mem_flatMap.mp he
    obtain ⟨ds, hds, -⟩ := Eval.yields_bind h
    obtain ⟨_, hone⟩ := Eval.yields_mapM hds entry hentry
    obtain ⟨content, hcontent, -⟩ := Eval.yields_bind hone
    exact ih entry hentry content hcontent e he
  case sequence =>
    intro items ih d h e he
    rw [Param.materialize, Param.materializeItems_eq] at h
    rw [Param.elements, Param.itemElements_eq] at he
    obtain ⟨p, hp, he⟩ := List.mem_flatMap.mp he
    obtain ⟨ds, hds, -⟩ := Eval.yields_bind h
    obtain ⟨content, hcontent⟩ := Eval.yields_mapM hds p hp
    exact ih p hp content hcontent e he
  case record =>
    -- Fields whose name comes again later are materialized like all others.
    intro typeName fields ih d h e he
    rw [Param.materialize, Param.materializeFields_eq] at h
    rw [Param.elements, Param.fieldElements_eq] at he
    obtain ⟨f, hf, he⟩ := List.mem_flatMap.mp he
    obtain ⟨ds, hds, -⟩ := Eval.yields_bind h
    obtain ⟨_, hone⟩ := Eval.yields_mapM hds f hf
    obtain ⟨content, hcontent, -⟩ := Eval.yields_bind hone
    exact ih f hf content hcontent e he

theorem Condition.supplied {c : Condition} {holds : Bool}
    (h : (c.evaluate host ctx).Yields holds) : ∀ e ∈ c.elements, ctx.Supplies e := by
  obtain ⟨left, hl, h⟩ := Eval.yields_bind h
  obtain ⟨right, hr, -⟩ := Eval.yields_bind h
  exact List.forall_mem_append.mpr ⟨Tree.supplied.1 _ left hl, Tree.supplied.1 _ right hr⟩

/-- A rule that yields a value has evaluated its condition and its action. -/
theorem Rule.supplied_of_value {r : Rule} {d : Datum} (h : (r.apply host ctx).Yields (some d)) :
    ∀ e ∈ r.elements, ctx.Supplies e := by
  rw [elements, List.forall_mem_append]
  have haction (h : (r.action.evaluate host ctx >>= fun d => pure (some d)).Yields (some d)) :
      ∀ e ∈ r.action.elements, ctx.Supplies e := by
    obtain ⟨d', hd', -⟩ := Eval.yields_bind h
    exact Tree.supplied.1 r.action d' hd'
  cases hc : r.condition with
  | none =>
    rw [apply_of_none hc] at h
    exact ⟨List.forall_mem_nil _, haction h⟩
  | some c =>
    obtain ⟨w, h⟩ := h
    rw [apply_of_ne_none hc (by rw [h]; nofun)] at h
    obtain ⟨holds, hholds, h⟩ := Eval.bind_result_ok h
    exact ⟨Condition.supplied ⟨w, hholds⟩, haction ⟨_, h⟩⟩

/-! ## Main statement -/

/-- What an evaluation succeeds with, it succeeds with in a context that supplies every reference of
the tree or the condition; a rule with a value needs the references of condition and action, and a
rule that passes those of its condition. So no tree and no condition whose references conflict
succeeds in any context. -/
theorem evaluation_needs_all_references {World : Type} (host : Host World) (ctx : Context)
    (w : World) :
    (∀ (v : Expr) (d : Datum), (v.evaluate host ctx w).result = .ok d →
      ∀ e ∈ v.references, ctx.Supplies e) ∧
    (∀ (p : Param) (d : Datum), (p.materialize host ctx w).result = .ok d →
      ∀ e ∈ p.references, ctx.Supplies e) ∧
    (∀ (c : Condition) (holds : Bool), (c.evaluate host ctx w).result = .ok holds →
      ∀ e ∈ c.references, ctx.Supplies e) ∧
    (∀ (r : Rule) (d : Datum), (r.apply host ctx w).result = .ok (some d) →
      ∀ e ∈ r.references, ctx.Supplies e) ∧
    (∀ r : Rule, (r.apply host ctx w).result = .ok none →
      ∃ c, r.condition = some c ∧ ∀ e ∈ c.references, ctx.Supplies e) ∧
    ∀ a b : Element, a.Conflicts b →
      (∀ v : Expr, a ∈ v.references → b ∈ v.references →
        ∀ d, (v.evaluate host ctx w).result ≠ .ok d) ∧
      (∀ p : Param, a ∈ p.references → b ∈ p.references →
        ∀ d, (p.materialize host ctx w).result ≠ .ok d) ∧
      ∀ c : Condition, a ∈ c.references → b ∈ c.references →
        ∀ holds, (c.evaluate host ctx w).result ≠ .ok holds := by
  have hexpr (v : Expr) (d : Datum) (h : (v.evaluate host ctx w).result = .ok d) :
      ∀ e ∈ v.references, ctx.Supplies e :=
    fun e he => Tree.supplied.1 v d ⟨w, h⟩ e (Element.mem_set.mp he)
  have hparam (p : Param) (d : Datum) (h : (p.materialize host ctx w).result = .ok d) :
      ∀ e ∈ p.references, ctx.Supplies e :=
    fun e he => Tree.supplied.2 p d ⟨w, h⟩ e (Element.mem_set.mp he)
  have hcondition (c : Condition) (holds : Bool)
      (h : (c.evaluate host ctx w).result = .ok holds) : ∀ e ∈ c.references, ctx.Supplies e :=
    fun e he => Condition.supplied ⟨w, h⟩ e (Element.mem_set.mp he)
  refine ⟨hexpr, hparam, hcondition, fun r d h e he => ?_, fun r h => ?_, fun a b hab => ⟨?_, ?_, ?_⟩⟩
  · exact Rule.supplied_of_value ⟨w, h⟩ e (Element.mem_set.mp he)
  · obtain ⟨c, hc, hholds, -⟩ := Rule.condition_of_pass h
    exact ⟨c, hc, hcondition c false hholds⟩
  · exact fun v ha hb d h => hab.not_supplied (hexpr v d h a ha) (hexpr v d h b hb)
  · exact fun p ha hb d h => hab.not_supplied (hparam p d h a ha) (hparam p d h b hb)
  · exact fun c ha hb holds h =>
      hab.not_supplied (hcondition c holds h a ha) (hcondition c holds h b hb)

/-- A field is needed also where a later field of its name hides it; a rule that passes may lack what
its action needs; and no name is both a text and a truth value. -/
theorem evaluation_needs_all_references_hidden_field :
    let name : Element := ⟨"name", .text, by decide⟩
    let flag : Element := ⟨"name", .boolean, by decide⟩
    let adult : Element := ⟨"adult", .boolean, by decide⟩
    let missing : Element := ⟨"gift", .text, by decide⟩
    let fields : List (Field Param) :=
      [⟨"x", .untyped, .value (.element adult)⟩, ⟨"x", .typed .text, .value (.element name)⟩]
    let person : Expr := .application ⟨.hosted "echo" 0, .record "Person" fields, none⟩
    let both : Param := .sequence [.value (.element name), .value (.element flag)]
    let child : Condition := ⟨.element adult, .eq, .constant (.ofDatum (.bool false))⟩
    let present := Rule.conditioned "present" child (.element missing) 1
    let host := Host.echo fun _ => ⟨.structuredObject, .structuredObject⟩
    let ctx : Context := ⟨[("adult", .bool true), ("name", .text "Ann")]⟩
    (person.evaluate host ctx ()).result = .ok (.record "Person" [("x", .text "Ann")]) ∧
      ctx.Supplies adult ∧ ctx.Supplies name ∧
      (∀ d, (both.materialize host ctx ()).result ≠ .ok d) ∧
      (present.apply host ctx ()).result = .ok none ∧
      (∃ c, present.condition = some c ∧ ∀ e ∈ c.references, ctx.Supplies e) ∧
      ¬ctx.Supplies missing := by
  intro name flag adult missing fields person both child present host ctx
  have hhidden : Keyed.ofList [("x", .bool true), ("x", .text "Ann")] = [("x", Datum.text "Ann")] := by
    simp [Keyed.ofList, Keyed.insert]
  have hperson : (person.evaluate host ctx ()).result =
      .ok (.record "Person" [("x", .text "Ann")]) :=
    congrArg (fun entries => Except.ok (Datum.record "Person" entries)) hhidden
  have hpass : (present.apply host ctx ()).result = .ok none := rfl
  have hconflict : name.Conflicts flag := ⟨rfl, by decide, by decide, by decide⟩
  obtain ⟨hexpr, -, -, -, hrule, hnone⟩ := evaluation_needs_all_references host ctx ()
  obtain ⟨-, hparam, -⟩ := hnone name flag hconflict
  have hboth : name ∈ both.references ∧ flag ∈ both.references := by decide
  have hlacks : ¬ctx.Supplies missing := by
    rintro ⟨d, hd, -⟩
    cases hd
  exact ⟨hperson, hexpr person _ hperson adult (by decide), hexpr person _ hperson name (by decide),
    hparam both hboth.1 hboth.2, hpass, hrule present hpass, hlacks⟩

end Rulebook
