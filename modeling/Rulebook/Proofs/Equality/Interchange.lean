import Rulebook.Proofs.Equality.Conversion
import Rulebook.Proofs.Equality.Tree
import Rulebook.Proofs.Registry.Growth

/-! # Equal trees are interchangeable

Equality of trees takes `18` for `18.0` and one zero for the other, and of a function it sees the
name alone. Still no evaluation tells equal trees apart, as long as no function tells equal arguments
apart (`Host.Respects`): in equal contexts they have equal results or fail alike. Each step of an
evaluation keeps this, and a name stands for one function in one registry.

The property reader is such a function.
-/

set_option autoImplicit false

namespace Rulebook

variable {World : Type}

/-! ## Induction over equal trees -/

/-- What holds of two trees whenever they differ in equal literals alone and it holds of the trees
directly in them holds of equal trees. -/
theorem Tree.equal_induction {Q : Expr → Expr → Prop} {P : Param → Param → Prop}
    (constant : ∀ c d : Constant, c.equal d = true → Q (.constant c) (.constant d))
    (element : ∀ reference, Q (.element reference) (.element reference))
    (application : ∀ a b : Call, a.function.name = b.function.name → a.expected = b.expected →
      P a.parameter b.parameter → Q (.application a) (.application b))
    (scalar : ∀ d e : Datum, d.equal e = true → P (.scalar d) (.scalar e))
    (value : ∀ v w, Q v w → P (.value v) (.value w))
    (mapping : ∀ as bs, List.Forall₂ (fun a b => a.1 = b.1 ∧ P a.2 b.2) as bs →
      P (.mapping as) (.mapping bs))
    (sequence : ∀ as bs, List.Forall₂ P as bs → P (.sequence as) (.sequence bs))
    (record : ∀ typeName fs gs,
      List.Forall₂ (fun f g => f.name = g.name ∧ f.slot = g.slot ∧ P f.node g.node) fs gs →
        P (.record typeName fs) (.record typeName gs)) :
    (∀ v w : Expr, v.equal w = true → Q v w) ∧ ∀ p q : Param, p.equal q = true → P p q := by
  apply Tree.induction
  case constant =>
    intro c w h
    cases w with
    | constant d => exact constant c d h
    | _ => cases h
  case element =>
    intro r w h
    cases w with
    | element s =>
      obtain rfl : r = s := beq_iff_eq.mp h
      exact element r
    | _ => cases h
  case application =>
    intro a ih w h
    cases w with
    | application b =>
      obtain ⟨hcall, hparam⟩ := Bool.and_eq_true_iff.mp h
      obtain ⟨hname, hexpected⟩ := Bool.and_eq_true_iff.mp hcall
      exact application a b (beq_iff_eq.mp hname) (beq_iff_eq.mp hexpected) (ih _ hparam)
    | _ => cases h
  case scalar =>
    intro d q h
    cases q with
    | scalar e => exact scalar d e h
    | _ => cases h
  case value =>
    intro v ih q h
    cases q with
    | value w => exact value v w (ih w h)
    | _ => cases h
  case mapping =>
    intro as ih q h
    cases q with
    | mapping bs =>
      refine mapping as bs (forall₂_of_forall_mem (Param.equalEntries_iff.mp h) ?_)
      intro a ha b _ hab
      obtain ⟨hkey, hparam⟩ := Bool.and_eq_true_iff.mp hab
      exact ⟨beq_iff_eq.mp hkey, ih a ha b.2 hparam⟩
    | _ => cases h
  case sequence =>
    intro as ih q h
    cases q with
    | sequence bs =>
      exact sequence as bs (forall₂_of_forall_mem (Param.equalItems_iff.mp h)
        fun a ha b _ hab => ih a ha b hab)
    | _ => cases h
  case record =>
    intro s fs ih q h
    cases q with
    | record t gs =>
      obtain ⟨htype, hfields⟩ := Bool.and_eq_true_iff.mp h
      obtain rfl : s = t := beq_iff_eq.mp htype
      refine record s fs gs (forall₂_of_forall_mem (Param.equalFields_iff.mp hfields) ?_)
      intro f hf g _ hfg
      obtain ⟨hdecl, hnode⟩ := Bool.and_eq_true_iff.mp hfg
      obtain ⟨hname, hslot⟩ := Bool.and_eq_true_iff.mp hdecl
      exact ⟨beq_iff_eq.mp hname, beq_iff_eq.mp hslot, ih f hf g.node hnode⟩
    | _ => cases h

/-! ## What equal trees declare -/

/-- Equal trees have the same elements, in the same order. -/
theorem Tree.elements_eq_of_equal :
    (∀ v w : Expr, v.equal w = true → v.elements = w.elements) ∧
      ∀ p q : Param, p.equal q = true → p.elements = q.elements := by
  apply Tree.equal_induction
  case constant => exact fun _ _ _ => rfl
  case element => exact fun _ => rfl
  case application => exact fun _ _ _ _ ih => ih
  case scalar => exact fun _ _ _ => rfl
  case value => exact fun _ _ ih => ih
  case mapping =>
    intro as bs ih
    rw [Param.elements, Param.elements, Param.entryElements_eq, Param.entryElements_eq]
    exact flatMap_eq_of_forall₂ (ih.imp fun _ _ hab => hab.2)
  case sequence =>
    intro as bs ih
    rw [Param.elements, Param.elements, Param.itemElements_eq, Param.itemElements_eq]
    exact flatMap_eq_of_forall₂ ih
  case record =>
    intro typeName fs gs ih
    rw [Param.elements, Param.elements, Param.fieldElements_eq, Param.fieldElements_eq]
    exact flatMap_eq_of_forall₂ (ih.imp fun _ _ hfg => hfg.2.2)

section Linked

variable {registry : Registry}

/-- A name stands for one function. -/
theorem Application.LinkedTo.function_eq {a b : Call} (ha : a.LinkedTo registry)
    (hb : b.LinkedTo registry) (h : a.function.name = b.function.name) :
    a.function = b.function := by
  rw [LinkedTo, h] at ha
  exact Except.ok.inj (ha.symm.trans hb)

theorem Expr.weight_eq_of_equal {v w : Expr} (h : v.equal w = true) : v.weight = w.weight := by
  cases v <;> cases w <;> first | rfl | cases h

theorem Expr.resultType_eq_of_equal {v w : Expr} (h : v.equal w = true)
    (hv : ∀ call ∈ v.calls, call.LinkedTo registry) (hw : ∀ call ∈ w.calls, call.LinkedTo registry)
    (decl : Declarations) : v.resultType decl = w.resultType decl := by
  cases v with
  | constant c =>
    cases w with
    | constant d => exact beq_iff_eq.mp (Bool.and_eq_true_iff.mp h).1
    | _ => cases h
  | element r =>
    cases w with
    | element s => rw [beq_iff_eq.mp (h : (r == s) = true)]
    | _ => cases h
  | application a =>
    cases w with
    | application b =>
      obtain ⟨hcall, -⟩ := Bool.and_eq_true_iff.mp h
      obtain ⟨hname, hexpected⟩ := Bool.and_eq_true_iff.mp hcall
      rw [calls_application, List.forall_mem_append, List.forall_mem_singleton] at hv hw
      have hfunction := hv.2.function_eq hw.2 (beq_iff_eq.mp hname)
      rw [resultType, resultType, Application.resultType, Application.resultType, hfunction,
        beq_iff_eq.mp hexpected]
    | _ => cases h

theorem Param.staticType_eq_of_equal {p q : Param} (h : p.equal q = true)
    (hp : ∀ call ∈ p.calls, call.LinkedTo registry) (hq : ∀ call ∈ q.calls, call.LinkedTo registry)
    (decl : Declarations) : p.staticType decl = q.staticType decl := by
  cases p with
  | scalar d =>
    cases q with
    | scalar e => exact Datum.dataType_eq_of_equal h
    | _ => cases h
  | value v =>
    cases q with
    | value w => exact Expr.resultType_eq_of_equal h hp hq decl
    | _ => cases h
  | _ => cases q <;> first | rfl | cases h

end Linked

/-! ## Steps over equal data -/

theorem Context.get?_cases {c₁ c₂ : Context} (h : c₁.equal c₂ = true) (code : String) :
    (c₁.get? code = none ∧ c₂.get? code = none) ∨
      ∃ d e, c₁.get? code = some d ∧ c₂.get? code = some e ∧ d.equal e = true :=
  Keyed.SameEntries.lookup_cases (Datum.equalEntries_iff.mp h) code

theorem Element.evaluate_same {c₁ c₂ : Context} (h : c₁.equal c₂ = true) (r : Element) :
    SameOutcome Datum.Equals (r.evaluate c₁) (r.evaluate c₂) := by
  obtain ⟨h₁, h₂⟩ | ⟨d, e, h₁, h₂, hde⟩ := Context.get?_cases h r.code
  · rw [evaluate, evaluate, h₁, h₂]
    exact .error _
  · rw [evaluate, evaluate, h₁, h₂]
    simp only [Datum.fits_eq_of_equal hde, Datum.dataType_eq_of_equal hde]
    split
    · exact .ok hde
    · exact .error _

theorem Field.entry_same {f g : Field Param} (hname : f.name = g.name) (hslot : f.slot = g.slot)
    {d e : Datum} (hde : d.equal e = true) (record : String) :
    SameOutcome (Keyed.SameEntry Datum.equal) (f.entry record d) (g.entry record e) := by
  have hentry := Keyed.sameEntry_mk hde g.name
  rw [entry, entry, hname, hslot]
  cases g.slot with
  | untyped => exact .ok hentry
  | typed t =>
    simp only [Datum.fits_eq_of_equal hde, Datum.dataType_eq_of_equal hde]
    split
    · exact .ok hentry
    · exact .error _

/-- Over equal parameters, whatever the worlds, the function has equal results or fails alike. -/
def Host.Respects (host : Host World) (function : FunctionRef) : Prop :=
  ∀ d e : Datum, d.equal e = true → ∀ v w,
    SameOutcome Datum.Equals (host.execute function d v).1 (host.execute function e w).1

theorem Host.respects_property (host : Host World) : host.Respects .property :=
  fun _ _ hde _ _ => Property.read_same hde

theorem Application.checkResult_same {a b : Call} (hfunction : a.function = b.function)
    (hexpected : a.expected = b.expected) {d e : Datum} (hde : d.equal e = true)
    (decl : Declarations) :
    SameOutcome Datum.Equals (a.checkResult decl d) (b.checkResult decl e) := by
  rw [checkResult, checkResult, hfunction, hexpected]
  simp only [Datum.fits_eq_of_equal hde, Datum.dataType_eq_of_equal hde]
  split
  · exact .error _
  · cases b.expected with
    | none => exact .ok hde
    | some t =>
      simp only
      split
      · exact .ok hde
      · exact .error _

theorem Application.run_agree {host : Host World} {a b : Call}
    (hfunction : a.function = b.function) (hexpected : a.expected = b.expected)
    (hrespects : host.Respects a.function) {d e : Datum} (hde : d.equal e = true) :
    Eval.Agree Datum.Equals (a.run host d) (b.run host e) := by
  have hinvoke : Eval.Agree Datum.Equals (Eval.invoke host a.function d)
      (Eval.invoke host b.function e) := by
    rw [← hfunction]
    exact fun v w => ⟨(hrespects d e hde v w).mapError _, .cons ⟨rfl, hde⟩ .nil⟩
  rw [run, run, Datum.fits_eq_of_equal hde, Datum.dataType_eq_of_equal hde, hfunction]
  rw [hfunction] at hinvoke
  split
  · exact hinvoke.bind fun d' e' h => .ofExcept (checkResult_same hfunction hexpected h _)
  · exact .ofExcept (.error _)

/-! ## Evaluations of equal trees -/

/-- In equal contexts, equal trees whose calls hold what their names stand for in one registry are
evaluated alike. -/
theorem Tree.agree {host : Host World} {registry : Registry} {c₁ c₂ : Context}
    (hctx : c₁.equal c₂ = true) :
    (∀ v w : Expr, v.equal w = true →
      (∀ call ∈ v.calls, call.LinkedTo registry ∧ host.Respects call.function) →
      (∀ call ∈ w.calls, call.LinkedTo registry) →
      Eval.Agree Datum.Equals (v.evaluate host c₁) (w.evaluate host c₂)) ∧
    ∀ p q : Param, p.equal q = true →
      (∀ call ∈ p.calls, call.LinkedTo registry ∧ host.Respects call.function) →
      (∀ call ∈ q.calls, call.LinkedTo registry) →
      Eval.Agree Datum.Equals (p.materialize host c₁) (q.materialize host c₂) := by
  apply Tree.equal_induction
  case constant => exact fun c d h _ _ => .pure (Bool.and_eq_true_iff.mp h).2
  case element => exact fun r _ _ => .ofExcept (r.evaluate_same hctx)
  case application =>
    intro a b hname hexpected ih ha hb
    rw [Expr.calls_application, List.forall_mem_append, List.forall_mem_singleton] at ha hb
    have hfunction := ha.2.1.function_eq hb.2 hname
    rw [Expr.evaluate, Expr.evaluate]
    exact (ih ha.1 hb.1).bind fun d e hde =>
      Application.run_agree hfunction hexpected ha.2.2 hde
  case scalar => exact fun d e h _ _ => .pure h
  case value => exact fun v w ih => ih
  case mapping =>
    intro as bs ih has hbs
    rw [Param.calls_mapping] at has hbs
    rw [Param.materialize, Param.materialize, Param.materializeEntries_eq,
      Param.materializeEntries_eq]
    refine (Eval.Agree.mapM (S := Keyed.SameEntry Datum.equal)
      (forall₂_of_forall_mem ih ?_)).bind fun ds es hde => .pure (Datum.equalEntries_iff.mpr hde)
    intro a ha b hb hab
    rw [hab.1]
    exact (hab.2 (fun call hc => has call (List.mem_flatMap_of_mem ha hc))
      fun call hc => hbs call (List.mem_flatMap_of_mem hb hc)).bind fun d e hde =>
        .pure (Keyed.sameEntry_mk hde b.1)
  case sequence =>
    intro as bs ih has hbs
    rw [Param.calls_sequence] at has hbs
    rw [Param.materialize, Param.materialize, Param.materializeItems_eq, Param.materializeItems_eq]
    refine (Eval.Agree.mapM (S := Datum.Equals) (forall₂_of_forall_mem ih ?_)).bind
      fun ds es hde => .pure (Datum.equalItems_iff.mpr hde)
    intro a ha b hb hab
    exact hab (fun call hc => has call (List.mem_flatMap_of_mem ha hc))
      fun call hc => hbs call (List.mem_flatMap_of_mem hb hc)
  case record =>
    intro typeName fs gs ih hfs hgs
    rw [Param.calls_record] at hfs hgs
    rw [Param.materialize, Param.materialize, Param.materializeFields_eq,
      Param.materializeFields_eq]
    refine (Eval.Agree.mapM (S := Keyed.SameEntry Datum.equal)
      (forall₂_of_forall_mem ih ?_)).bind fun ds es hde => .pure ?_
    · intro f hf g hg hfg
      obtain ⟨hname, hslot, hnode⟩ := hfg
      exact (hnode (fun call hc => hfs call (List.mem_flatMap_of_mem hf hc))
        fun call hc => hgs call (List.mem_flatMap_of_mem hg hc)).bind fun d e hde =>
          .ofExcept (Field.entry_same hname hslot hde typeName)
    · have hentries := Datum.equalEntries_iff.mpr (Keyed.sameEntries_ofList hde)
      simpa [Datum.Equals, Datum.equal] using hentries

/-! ## Main statement -/

/-- Take two equal trees that were built from one registry and call only functions that respect
equality. They have the same declared type, the same references and, for expressions, the same
weight. In equal contexts, and whatever the worlds, they make the same calls over equal arguments,
and end with equal data or with the same failure. The property reader respects equality, also on
raw JSON. -/
theorem equal_trees_are_interchangeable {registry : Registry} (hreg : registry.WellFormed)
    (host : Host World) {c₁ c₂ : Context} (hctx : c₁.equal c₂ = true) :
    (∀ a b : Expr, a.equal b = true → a.BuiltFrom registry → b.BuiltFrom registry →
      (∀ call ∈ a.calls, host.Respects call.function) →
      (∀ decl, a.resultType decl = b.resultType decl) ∧ a.references = b.references ∧
        a.weight = b.weight ∧
        Eval.Agree Datum.Equals (a.evaluate host c₁) (b.evaluate host c₂)) ∧
    (∀ p q : Param, p.equal q = true → p.BuiltFrom registry → q.BuiltFrom registry →
      (∀ call ∈ p.calls, host.Respects call.function) →
      (∀ decl, p.staticType decl = q.staticType decl) ∧ p.references = q.references ∧
        Eval.Agree Datum.Equals (p.materialize host c₁) (q.materialize host c₂)) ∧
    host.Respects .property := by
  refine ⟨fun a b hab ha hb hrespects => ?_, fun p q hpq hp hq hrespects => ?_,
    host.respects_property⟩
  · have hlinked (call : Call) (hc : call ∈ a.calls) := (ha call hc).linked hreg
    have hlinked' (call : Call) (hc : call ∈ b.calls) := (hb call hc).linked hreg
    exact ⟨Expr.resultType_eq_of_equal hab hlinked hlinked',
      congrArg Element.set (Tree.elements_eq_of_equal.1 a b hab), Expr.weight_eq_of_equal hab,
      (Tree.agree hctx).1 a b hab (fun call hc => ⟨hlinked call hc, hrespects call hc⟩) hlinked'⟩
  · have hlinked (call : Call) (hc : call ∈ p.calls) := (hp call hc).linked hreg
    have hlinked' (call : Call) (hc : call ∈ q.calls) := (hq call hc).linked hreg
    exact ⟨Param.staticType_eq_of_equal hpq hlinked hlinked',
      congrArg Element.set (Tree.elements_eq_of_equal.2 p q hpq),
      (Tree.agree hctx).2 p q hpq (fun call hc => ⟨hlinked call hc, hrespects call hc⟩) hlinked'⟩

/-- One parameter holds `18` and the other `18.0`, one context a raw zero and the other its
negative. -/
theorem equal_trees_are_interchangeable_zeros :
    let call (limit : Decimal) : Call :=
      ⟨.property, .mapping [("field", .scalar (.text "balance")),
        ("limit", .scalar (.number limit)),
        ("object", .value (.element ⟨"account", .rawObject, by decide⟩))], none⟩
    let a := Expr.application (call ⟨false, 18, 0, by decide, by decide⟩)
    let b := Expr.application (call ⟨false, 180, 1, by decide, by decide⟩)
    let account (negative : Bool) : Context :=
      ⟨[("account", .json (.obj [("balance", .num (.float (.zero negative)))]))]⟩
    let host := Host.echo fun _ => ⟨.text, .text⟩
    let zero : Decimal := ⟨false, 0, 1, by decide, by decide⟩
    Registry.withBuiltins.WellFormed ∧ (account false).equal (account true) = true ∧
      a.equal b = true ∧ a.BuiltFrom Registry.withBuiltins ∧ b.BuiltFrom Registry.withBuiltins ∧
      (∀ call ∈ a.calls, host.Respects call.function) ∧
      a.references = b.references ∧
      Eval.Agree Datum.Equals (a.evaluate host (account false)) (b.evaluate host (account true)) ∧
      (b.evaluate host (account true) ()).result = .ok (.number zero) := by
  intro call a b account host zero
  have hbuilt (limit : Decimal) :
      (Expr.application (call limit)).BuiltFrom Registry.withBuiltins := by
    have hmade : Application.make host.toDeclarations Registry.withBuiltins "get_property"
        (call limit).parameter = .ok (call limit) := rfl
    exact List.forall_mem_singleton.mpr (.make hmade)
  have hctx : (account false).equal (account true) = true := by decide
  have hab : a.equal b = true := by decide
  have hrespects : ∀ call ∈ a.calls, host.Respects call.function :=
    List.forall_mem_singleton.mpr host.respects_property
  obtain ⟨hexpr, -, -⟩ :=
    equal_trees_are_interchangeable Registry.wellFormed_withBuiltins host hctx
  obtain ⟨-, hreferences, -, hagree⟩ := hexpr a b hab (hbuilt _) (hbuilt _) hrespects
  exact ⟨Registry.wellFormed_withBuiltins, hctx, hab, hbuilt _, hbuilt _, hrespects, hreferences,
    hagree, rfl⟩

end Rulebook
