import Rulebook.Proofs.Engine.Execution
import Rulebook.Proofs.Evaluation.Dependence
import Rulebook.Proofs.Text.ByteOrder

/-! # What the missing references tell

An engine can list, before it executes an id, the references of the id that a context lacks. The
list ascends strictly, by the bytes of the code and then by data type. An execution that fails on a
missing code fails on a code of the list, and one that fails on a type fails on a reference of the
id: every failure is that of a step of some candidate (`Engine.execute_follows`), and the elements
that are looked up in these steps are the references.
-/

set_option autoImplicit false

namespace Rulebook

/-! ## The order of references -/

namespace Element

variable {a b c e : Element} {l : List Element}

theorem before_iff :
    a.before b = true ↔
      a.code < b.code ∨ a.code = b.code ∧ a.dataType.rank < b.dataType.rank := by
  simp only [before, Bool.or_eq_true, Bool.and_eq_true, decide_eq_true_eq, beq_iff_eq]

theorem before_trans (hab : a.before b = true) (hbc : b.before c = true) : a.before c = true := by
  rw [before_iff] at *
  rcases hab with hab | ⟨hab, rab⟩ <;> rcases hbc with hbc | ⟨hbc, rbc⟩
  · exact .inl (String.lt_trans hab hbc)
  · exact .inl (hbc ▸ hab)
  · exact .inl (hab ▸ hbc)
  · exact .inr ⟨hab.trans hbc, Nat.lt_trans rab rbc⟩

/-- Code and type are all that tells references apart. -/
theorem before_or_eq_or_before (a b : Element) :
    a.before b = true ∨ a = b ∨ b.before a = true := by
  rw [before_iff, before_iff]
  rcases Std.lt_trichotomy a.code b.code with hlt | heq | hgt
  · exact .inl (.inl hlt)
  · rcases Nat.lt_trichotomy a.dataType.rank b.dataType.rank with hr | hr | hr
    · exact .inl (.inr ⟨heq, hr⟩)
    · obtain ⟨code, dataType, _⟩ := a
      obtain ⟨code', dataType', _⟩ := b
      obtain rfl : code = code' := heq
      obtain rfl : dataType = dataType' := DataType.rank_inj.mp hr
      exact .inr (.inl rfl)
    · exact .inr (.inr (.inr ⟨heq.symm, hr⟩))
  · exact .inr (.inr (.inl hgt))

theorem pairwise_insert (e : Element) (h : l.Pairwise (before · · = true)) :
    (insert e l).Pairwise (before · · = true) := by
  induction l with
  | nil => exact List.pairwise_singleton _ e
  | cons a rest ih =>
    obtain ⟨ha, hrest⟩ := List.pairwise_cons.mp h
    rw [insert]
    split
    · next hea =>
      rw [List.pairwise_cons, List.forall_mem_cons]
      exact ⟨⟨hea, fun b hb => before_trans hea (ha b hb)⟩, h⟩
    · next hea =>
      split
      · exact h
      · next hne =>
        have hae : a.before e = true :=
          ((before_or_eq_or_before e a).resolve_left hea).resolve_left hne
        rw [List.pairwise_cons]
        refine ⟨fun b hb => ?_, ih hrest⟩
        rcases mem_insert.mp hb with rfl | hb
        · exact hae
        · exact ha b hb

/-- A set of references ascends strictly. -/
theorem pairwise_set (l : List Element) : (set l).Pairwise (before · · = true) := by
  have h (acc : List Element) (hacc : acc.Pairwise (before · · = true)) :
      (l.foldl (fun acc e => insert e acc) acc).Pairwise (before · · = true) := by
    induction l generalizing acc with
    | nil => exact hacc
    | cons e rest ih => exact ih (insert e acc) (pairwise_insert e hacc)
  exact h [] List.Pairwise.nil

/-- By the bytes of the code, then by the place of the type in the catalogue. -/
def Ascends (a b : Element) : Prop :=
  Text.bytes a.code < Text.bytes b.code ∨
    a.code = b.code ∧ a.dataType.rank < b.dataType.rank

theorem ascends_iff_before : a.Ascends b ↔ a.before b = true := by
  rw [Ascends, Text.bytes_lt_bytes_iff, before_iff]

end Element

/-! ## References and failures of an id -/

namespace Engine

variable {World : Type} {host : Host World} {ctx : Context} {engine : Engine} {id : String}
  {set : RuleSet}

theorem missingReferences_of_ok (h : engine.ruleSet id = .ok set) :
    engine.missingReferences id ctx =
      .ok (set.references.filter fun e => !ctx.contains e.code) := by
  rw [missingReferences, dependencies_of_ok h]
  rfl

theorem mem_references {e : Element} : e ∈ set.references ↔ ∃ r ∈ set.rules, e ∈ r.elements := by
  rw [RuleSet.references, Element.mem_set, List.mem_flatMap]

theorem mem_missing {e : Element} :
    e ∈ set.references.filter (fun e => !ctx.contains e.code) ↔
      e ∈ set.references ∧ ctx.get? e.code = none := by
  rw [List.mem_filter, Context.contains, Bool.not_eq_true', Option.isSome_eq_false_iff,
    Option.isNone_iff_eq_none]

/-- A failed execution has a step of a candidate that fails in this way. -/
theorem exists_step_of_error (h : engine.ruleSet id = .ok set) {w : World} {e : EvalError}
    (he : (engine.execute host ctx id w).result = .error e) :
    ∃ r ∈ set.rules, ∃ s ∈ r.steps, s.FailsWith host ctx e := by
  obtain ⟨s, hs, hfails⟩ := (execute_follows h).failure he
  obtain ⟨r, hr, hs⟩ := List.mem_flatMap.mp hs
  exact ⟨r, hr, s, hs, hfails⟩

theorem reference_of_missingReference (h : engine.ruleSet id = .ok set) {w : World}
    {code : String}
    (he : (engine.execute host ctx id w).result = .error (.missingReference code)) :
    ∃ e ∈ set.references, e.code = code ∧ ctx.get? code = none := by
  obtain ⟨r, hr, s, hs, hfails⟩ := exists_step_of_error h he
  cases hfails with
  | @missingReference reference hnone =>
    have hmem : reference ∈ r.elements := Rule.lookup_mem_steps.mp hs
    exact ⟨reference, mem_references.mpr ⟨r, hr, hmem⟩, rfl, hnone⟩

theorem reference_of_typeMismatch (h : engine.ruleSet id = .ok set) {w : World} {code : String}
    {expected got : DataType}
    (he : (engine.execute host ctx id w).result = .error (.typeMismatch code expected got)) :
    (∃ e ∈ set.references, e.code = code ∧ e.dataType = expected) ∧
      (∃ d, ctx.get? code = some d ∧ d.dataType = got) ∧ expected.accepts got = false := by
  obtain ⟨r, hr, s, hs, hfails⟩ := exists_step_of_error h he
  cases hfails with
  | @typeMismatch reference d hsome hfits =>
    have hmem : reference ∈ r.elements := Rule.lookup_mem_steps.mp hs
    exact ⟨⟨reference, mem_references.mpr ⟨r, hr, hmem⟩, rfl, rfl⟩, ⟨d, hsome, rfl⟩, hfits⟩

end Engine

/-! ## Main statement -/

/-- After every history of requests to an engine that is changed in place, and for every id with a
rule: the dependencies are the references of the accepted rules of the id, and the missing
references are those of them whose codes the context lacks, in strictly ascending order. An
execution that lacks a code lacks the code of a missing reference, so it lacks none if there is no
missing reference. One that meets a datum of a wrong type meets it under a dependency. -/
theorem missing_references_foretell {World : Type} (registry : Registry) (world : World)
    (history : List (Request World)) (id : String) :
    let s := Session.start registry world
    let engine := (s.afterInPlace history).engine
    let accepted := s.acceptedInPlace history
    (∃ r ∈ accepted, r.id = id) → ∀ ctx : Context, ∃ dependencies missing,
      engine.dependencies id = .ok dependencies ∧
      engine.missingReferences id ctx = .ok missing ∧
      (∀ e, e ∈ dependencies ↔ ∃ r ∈ accepted, r.id = id ∧ e ∈ r.references) ∧
      (∀ e, e ∈ missing ↔ e ∈ dependencies ∧ ctx.get? e.code = none) ∧
      missing.Pairwise Element.Ascends ∧
      ∀ (host : Host World) (w : World),
        let run := engine.execute host ctx id w
        (∀ code, run.result = .error (.missingReference code) → ∃ e ∈ missing, e.code = code) ∧
        (missing = [] → ∀ code, run.result ≠ .error (.missingReference code)) ∧
        ∀ code expected got, run.result = .error (.typeMismatch code expected got) →
          (∃ e ∈ dependencies, e.code = code ∧ e.dataType = expected) ∧
            (∃ d, ctx.get? code = some d ∧ d.dataType = got) ∧ expected.accepts got = false := by
  intro s engine accepted hknown ctx
  have hstart : s.engine.Consistent := .start registry
  have h : engine.Holds accepted := Session.holds_acceptedInPlace hstart (.start registry) history
  obtain ⟨r, hr, hid⟩ := hknown
  have hmem : r ∈ Rule.inOrder id accepted := Rule.mem_inOrder.mpr ⟨hr, hid⟩
  obtain ⟨set, hset, hrules⟩ := h.ruleSet_of_known (List.ne_nil_of_mem hmem)
  refine ⟨set.references, _, Engine.dependencies_of_ok hset, Engine.missingReferences_of_ok hset,
    fun e => ?_, fun e => Engine.mem_missing, ?_, fun host w => ?_⟩
  · rw [Engine.mem_references, hrules]
    simp only [Rule.mem_inOrder, Rule.references, Element.mem_set, and_assoc]
  · have hsorted := Element.pairwise_set (set.rules.flatMap Rule.elements)
    exact (hsorted.filter _).imp Element.ascends_iff_before.mpr
  · intro run
    have hmissing (code : String) (hrun : run.result = .error (.missingReference code)) :
        ∃ e ∈ set.references.filter (fun e => !ctx.contains e.code), e.code = code := by
      obtain ⟨e, he, rfl, hnone⟩ := Engine.reference_of_missingReference hset hrun
      exact ⟨e, Engine.mem_missing.mpr ⟨he, hnone⟩, rfl⟩
    refine ⟨hmissing, fun hnil code hrun => ?_, fun code expected got hrun => ?_⟩
    · obtain ⟨e, he, -⟩ := hmissing code hrun
      rw [hnil] at he
      cases he
    · exact Engine.reference_of_typeMismatch hset hrun

/-- The second operand is missing in one context, and the first one has a wrong type in another. -/
theorem missing_references_foretell_operands :
    let given : Element := ⟨"given", .text, by decide⟩
    let family : Element := ⟨"family", .text, by decide⟩
    let same : Condition := ⟨.element given, .eq, .element family⟩
    let rule := Rule.conditioned "r" same (.element given) 1
    let engine := ((Session.start ∅ ()).afterInPlace [.addRule rule]).engine
    let host := Host.echo fun _ => ⟨.text, .text⟩
    let partly : Context := ⟨[("given", .text "Ann")]⟩
    let wrong : Context := ⟨[("given", .bool true)]⟩
    engine.missingReferences "r" partly = .ok [family] ∧
      (engine.execute host partly "r" ()).result = .error (.missingReference "family") ∧
      (∃ e ∈ [family], e.code = "family") ∧
      (engine.execute host wrong "r" ()).result =
        .error (.typeMismatch "given" .text .boolean) ∧
      (∃ d, wrong.get? "given" = some d ∧ d.dataType = .boolean) ∧
      DataType.text.accepts .boolean = false := by
  intro given family same rule engine host partly wrong
  have hknown : ∃ r ∈ (Session.start ∅ ()).acceptedInPlace [.addRule rule], r.id = "r" :=
    ⟨rule, List.mem_cons_self, rfl⟩
  have hengine : engine = ((Session.start ∅ ()).after [.addRule rule]).engine :=
    congrArg Session.engine (Session.afterInPlace_eq (.start ∅) _)
  have hlacks : engine.missingReferences "r" partly = .ok [family] := by
    rw [hengine]
    decide
  have hmissing : (engine.execute host partly "r" ()).result =
      .error (.missingReference "family") := by
    rw [hengine]
    rfl
  have hwrong : (engine.execute host wrong "r" ()).result =
      .error (.typeMismatch "given" .text .boolean) := by
    rw [hengine]
    rfl
  obtain ⟨_, missing, -, hlist, -, -, -, hpartly⟩ :=
    missing_references_foretell ∅ () [.addRule rule] "r" hknown partly
  obtain ⟨_, _, -, -, -, -, -, hwrongly⟩ :=
    missing_references_foretell ∅ () [.addRule rule] "r" hknown wrong
  have heq : missing = [family] := Except.ok.inj (hlist.symm.trans hlacks)
  obtain ⟨-, hdatum⟩ := (hwrongly host ()).2.2 _ _ _ hwrong
  exact ⟨hlacks, hmissing, heq ▸ (hpartly host ()).1 _ hmissing, hwrong, hdatum⟩

end Rulebook
