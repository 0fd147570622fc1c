import Rulebook.Proofs.Data.Conversion
import Rulebook.Proofs.Evaluation.Construction
import Rulebook.Proofs.Evaluation.Supply

/-! # What building rejects would have failed

Building rejects a parameter for a slot that its content can never fit, and a narrowing for a type
that the function can never produce. While declarations stay as they are, neither is a false alarm.

A success has gone through all of its steps (`Tree.succeeds`), so through the check of every record
field, at whatever depth. A field that building refuses holds no expression of the open type; its
content has exactly the type that building saw, and the check misses it again.
-/

set_option autoImplicit false

namespace Rulebook

variable {World : Type} {host : Host World} {ctx : Context} {decl : Declarations}

/-! ## The steps of a success -/

/-- The step can come to a good end. -/
def Step.Succeeds (host : Host World) (ctx : Context) : Step → Prop
  | lookup reference => ∃ d, reference.evaluate ctx = .ok d
  | check record f => ∃ content, (f.node.materialize host ctx).Yields content ∧
      ∃ entry, f.entry record content = .ok entry
  | run call => ∃ argument, (call.parameter.materialize host ctx).Yields argument ∧
      ∃ d, (call.run host argument).Yields d
  | compare op => ∃ left right holds, op.apply left right = .ok holds

/-- What succeeds has gone through all of its steps. -/
theorem Tree.succeeds :
    (∀ v : Expr, ∀ d, (v.evaluate host ctx).Yields d → ∀ s ∈ v.steps, s.Succeeds host ctx) ∧
      ∀ p : Param, ∀ d, (p.materialize host ctx).Yields d → ∀ s ∈ p.steps, s.Succeeds host ctx := by
  apply Tree.induction
  case constant => exact fun _ _ _ => List.forall_mem_nil _
  case element =>
    intro reference d h s hs
    cases List.mem_singleton.mp hs
    exact ⟨d, Eval.yields_ofExcept h⟩
  case application =>
    intro call ih d h
    obtain ⟨argument, hargument, hrun⟩ := Eval.yields_bind h
    rw [Expr.steps, List.forall_mem_append, List.forall_mem_singleton]
    exact ⟨ih argument hargument, argument, hargument, d, hrun⟩
  case scalar => exact fun _ _ _ => List.forall_mem_nil _
  case value => exact fun _ ih => ih
  case mapping =>
    intro entries ih d h s hs
    rw [Param.materialize, Param.materializeEntries_eq] at h
    rw [Param.steps, Param.entrySteps_eq] at hs
    obtain ⟨e, he, hs⟩ := List.mem_flatMap.mp hs
    obtain ⟨ds, hds, -⟩ := Eval.yields_bind h
    obtain ⟨_, hone⟩ := Eval.yields_mapM hds e he
    obtain ⟨content, hcontent, -⟩ := Eval.yields_bind hone
    exact ih e he content hcontent s hs
  case sequence =>
    intro items ih d h s hs
    rw [Param.materialize, Param.materializeItems_eq] at h
    rw [Param.steps, Param.itemSteps_eq] at hs
    obtain ⟨p, hp, hs⟩ := List.mem_flatMap.mp hs
    obtain ⟨ds, hds, -⟩ := Eval.yields_bind h
    obtain ⟨content, hcontent⟩ := Eval.yields_mapM hds p hp
    exact ih p hp content hcontent s hs
  case record =>
    intro typeName fields ih d h s hs
    rw [Param.materialize, Param.materializeFields_eq] at h
    rw [Param.steps, Param.fieldSteps_eq] at hs
    obtain ⟨f, hf, hs⟩ := List.mem_flatMap.mp hs
    obtain ⟨ds, hds, -⟩ := Eval.yields_bind h
    obtain ⟨entry, hone⟩ := Eval.yields_mapM hds f hf
    obtain ⟨content, hcontent, hentry⟩ := Eval.yields_bind hone
    rcases List.mem_append.mp hs with hs | hs
    · exact ih f hf content hcontent s hs
    · cases List.mem_singleton.mp hs
      exact ⟨content, hcontent, entry, Eval.yields_ofExcept hentry⟩

/-! ## Refused fields -/

theorem Field.check_eq_error {record : String} {f : Field Param} {e : EvalError} :
    f.check decl record = .error e ↔
      ∃ t, f.slot = .typed t ∧ t.accepts (f.node.staticType decl) = false ∧
        f.node.isOpen decl = false ∧
          e = .fieldType record f.name t (f.node.staticType decl) := by
  unfold check
  cases f.slot with
  | untyped => simp
  | typed t =>
    cases ht : t.accepts (f.node.staticType decl) <;> cases ho : f.node.isOpen decl <;>
      simp [ht, eq_comm (a := e)]

/-- Only an expression can be of the open type. -/
theorem Param.staticType_ne_genericObject {p : Param} (h : p.isOpen decl = false) :
    p.staticType decl ≠ .genericObject := by
  cases p with
  | scalar d => cases d <;> exact nofun
  | value node => exact beq_eq_false_iff_ne.mp h
  | mapping entries => exact nofun
  | sequence items => exact nofun
  | record typeName fields => exact nofun

theorem Param.dataType_eq_staticType {p : Param} {d : Datum}
    (h : (p.materialize host ctx).Yields d) (hopen : p.isOpen host.toDeclarations = false) :
    p.staticType host.toDeclarations = d.dataType :=
  Datum.dataType_eq_of_fits (fits_staticType h) (staticType_ne_genericObject hopen)

/-- A field that building refuses is refused again, whatever its content turns out to be. -/
theorem Field.entry_of_refused {record : String} {f : Field Param} {e : EvalError}
    (h : f.check host.toDeclarations record = .error e) {content : Datum}
    (hcontent : (f.node.materialize host ctx).Yields content) :
    ∃ e', f.entry record content = .error e' := by
  obtain ⟨t, hslot, hmiss, hopen, -⟩ := check_eq_error.mp h
  rw [Param.dataType_eq_staticType hcontent hopen] at hmiss
  exact ⟨_, entry_eq_error.mpr ⟨t, hslot, hmiss, rfl⟩⟩

/-! ## Rejected parameters -/

/-- A check of all members of a list fails on one of them. -/
theorem forM_eq_error {α : Type} {f : α → Except EvalError Unit} {l : List α}
    {e : EvalError} (h : forM l f = .error e) : ∃ a ∈ l, f a = .error e := by
  obtain ⟨before, a, after, rfl, -, ha⟩ := forM_eq_error_iff.mp h
  exact ⟨a, List.mem_append_right before List.mem_cons_self, ha⟩

namespace Param

theorem validateEntries_eq (entries : List (String × Param)) :
    validateEntries decl entries = forM entries fun e => e.2.validate decl := by
  induction entries with
  | nil => rfl
  | cons e rest ih => rw [validateEntries, ih, List.forM_cons]

theorem validateItems_eq (items : List Param) :
    validateItems decl items = forM items fun p => p.validate decl := by
  induction items with
  | nil => rfl
  | cons p rest ih => rw [validateItems, ih, List.forM_cons]

theorem validateFields_eq (record : String) (fields : List (Field Param)) :
    validateFields decl record fields =
      forM fields fun f => f.node.validate decl >>= fun _ => f.check decl record := by
  induction fields with
  | nil => rfl
  | cons f rest ih => rw [validateFields, ih, List.forM_cons, bind_assoc]

/-- A parameter is rejected for one of its fields, at whatever depth it lies. -/
theorem validate_eq_error {p : Param} {e : EvalError} (h : p.validate decl = .error e) :
    ∃ record f, .check record f ∈ p.steps ∧ f.check decl record = .error e := by
  have hall : (∀ _ : Expr, True) ∧ ∀ p : Param, p.validate decl = .error e →
      ∃ record f, .check record f ∈ p.steps ∧ f.check decl record = .error e := by
    apply Tree.induction
    case constant => exact fun _ => trivial
    case element => exact fun _ => trivial
    case application => exact fun _ _ => trivial
    case scalar => exact fun _ h => nomatch h
    case value => exact fun _ _ h => nomatch h
    case mapping =>
      intro entries ih h
      rw [validate, validateEntries_eq] at h
      obtain ⟨entry, hmem, herror⟩ := forM_eq_error h
      obtain ⟨record, f, hf, hcheck⟩ := ih entry hmem herror
      rw [steps, entrySteps_eq]
      exact ⟨record, f, List.mem_flatMap_of_mem hmem hf, hcheck⟩
    case sequence =>
      intro items ih h
      rw [validate, validateItems_eq] at h
      obtain ⟨p, hmem, herror⟩ := forM_eq_error h
      obtain ⟨record, f, hf, hcheck⟩ := ih p hmem herror
      rw [steps, itemSteps_eq]
      exact ⟨record, f, List.mem_flatMap_of_mem hmem hf, hcheck⟩
    case record =>
      intro typeName fields ih h
      rw [validate, validateFields_eq] at h
      obtain ⟨g, hmem, herror⟩ := forM_eq_error h
      rw [steps, fieldSteps_eq]
      cases hnode : g.node.validate decl with
      | error e' =>
        rw [hnode] at herror
        cases herror
        obtain ⟨record, f, hf, hcheck⟩ := ih g hmem hnode
        exact ⟨record, f, List.mem_flatMap_of_mem hmem (List.mem_append_left _ hf), hcheck⟩
      | ok _ =>
        rw [hnode] at herror
        refine ⟨typeName, g, List.mem_flatMap_of_mem hmem ?_, herror⟩
        exact List.mem_append_right _ (List.mem_singleton_self _)
  exact hall.2 p h

/-- A parameter with a refused field yields nothing. -/
theorem not_yields_of_refused {p : Param} {record : String} {f : Field Param} {e : EvalError}
    (hf : .check record f ∈ p.steps) (hcheck : f.check host.toDeclarations record = .error e)
    (d : Datum) : ¬(p.materialize host ctx).Yields d := by
  intro hd
  obtain ⟨content, hcontent, entry, hentry⟩ := Tree.succeeds.2 p d hd _ hf
  obtain ⟨e', herror⟩ := Field.entry_of_refused hcheck hcontent
  rw [hentry] at herror
  cases herror

end Param

/-! ## Rejected narrowings -/

namespace Application

theorem expecting_eq_error {call : Call} {t : DataType} {e : EvalError} :
    call.expecting decl t = .error e ↔
      (decl.signature call.function).resultType.accepts t = false ∧
        t.accepts (decl.signature call.function).resultType = false ∧
          e = .resultType call.function.name t (decl.signature call.function).resultType := by
  unfold expecting
  cases hp : (decl.signature call.function).resultType.accepts t <;>
    cases ht : t.accepts (decl.signature call.function).resultType <;>
      simp [hp, ht, eq_comm (a := e)]

/-- A value of a call does not fit a type that the call cannot be narrowed to. -/
theorem not_fits_of_refused {call : Call} {t : DataType} {e : EvalError}
    (h : call.expecting host.toDeclarations t = .error e) {d : Datum}
    (hd : ((Expr.application call).evaluate host ctx).Yields d) : d.fits t = false := by
  obtain ⟨hproduced, hwider, -⟩ := expecting_eq_error.mp h
  have hopen : (host.signature call.function).resultType ≠ .genericObject := by
    intro heq
    rw [heq, DataType.genericObject_accepts] at hproduced
    cases hproduced
  have htype := Datum.dataType_eq_of_fits (Expr.fits_of_promises hd (.inl rfl)) hopen
  rwa [htype] at hwider

end Application

/-! ## Main statement -/

/-- While declarations stay as they are: a parameter that is rejected is rejected for one of its
fields, which will miss its slot whatever its content turns out to be, and the parameter fails in
every context and world. A call that cannot be narrowed to a type either fails or has a value that
does not fit this type. -/
theorem static_rejections_are_final (host : Host World) (ctx : Context) (w : World) :
    (∀ (p : Param) (e : EvalError), p.validate host.toDeclarations = .error e →
      (∃ record f, (record, f) ∈ p.fields ∧ f.check host.toDeclarations record = .error e ∧
        ∀ content, (f.node.materialize host ctx).Yields content →
          ∃ e', f.entry record content = .error e') ∧
      ∃ e', (p.materialize host ctx w).result = .error e') ∧
    ∀ (call : Call) (t : DataType) (e : EvalError),
      call.expecting host.toDeclarations t = .error e →
        (∃ e', ((Expr.application call).evaluate host ctx w).result = .error e') ∨
          ∃ d, ((Expr.application call).evaluate host ctx w).result = .ok d ∧
            d.fits t = false := by
  refine ⟨fun p e h => ?_, fun call t e h => ?_⟩
  · obtain ⟨record, f, hf, hcheck⟩ := Param.validate_eq_error h
    refine ⟨⟨record, f, Step.check_mem_iff.mp hf, hcheck,
      fun content => Field.entry_of_refused hcheck⟩, ?_⟩
    cases hr : (p.materialize host ctx w).result with
    | error e' => exact ⟨e', rfl⟩
    | ok d => exact absurd ⟨w, hr⟩ (Param.not_yields_of_refused hf hcheck d)
  · cases hr : ((Expr.application call).evaluate host ctx w).result with
    | error e' => exact .inl ⟨e', rfl⟩
    | ok d => exact .inr ⟨d, rfl, Application.not_fits_of_refused h ⟨w, hr⟩⟩

/-- A number slot around a text, in a record within a sequence within a mapping; and a call with a
text as its value that cannot be narrowed to a number. -/
theorem static_rejections_are_final_nested :
    let host := Host.echo fun _ => ⟨.text, .text⟩
    let name : Param := .value (.element ⟨"name", .text, by decide⟩)
    let query : Param := .record "Query" [⟨"limit", .typed .number, name⟩]
    let p : Param := .mapping [("queries", .sequence [.scalar (.bool true), query])]
    let call : Call := ⟨.hosted "echo" 0, name, none⟩
    let ctx : Context := ⟨[("name", .text "Ann")]⟩
    p.validate host.toDeclarations = .error (.fieldType "Query" "limit" .number .text) ∧
      (∃ e, (p.materialize host ctx ()).result = .error e) ∧
      call.expecting host.toDeclarations .number = .error (.resultType "echo" .number .text) ∧
      ((Expr.application call).evaluate host ctx ()).result = .ok (.text "Ann") ∧
      (Datum.text "Ann").fits .number = false := by
  intro host name query p call ctx
  have hrejected : p.validate host.toDeclarations =
      .error (.fieldType "Query" "limit" .number .text) := rfl
  have hnarrow : call.expecting host.toDeclarations .number =
      .error (.resultType "echo" .number .text) := rfl
  have hvalue : ((Expr.application call).evaluate host ctx ()).result = .ok (.text "Ann") := rfl
  obtain ⟨hparam, hcall⟩ := static_rejections_are_final host ctx ()
  refine ⟨hrejected, (hparam p _ hrejected).2, hnarrow, hvalue, ?_⟩
  rcases hcall call .number _ hnarrow with ⟨e, he⟩ | ⟨d, hd, hfits⟩
  · rw [hvalue] at he
    cases he
  · rw [hvalue] at hd
    cases hd
    exact hfits

end Rulebook
