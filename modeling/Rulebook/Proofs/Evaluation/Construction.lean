import Rulebook.Proofs.Evaluation.Typing

/-! # What is checked when calls are built

While declarations stay as they are, a call that was built and perhaps narrowed never rejects its
argument: the type of its parameter was accepted by its function, and what the parameter yields fits
that type. For the same reason a typed slot can only be missed where building could not decide it,
that is by an expression of the open type.

* `Application.Constructed`: the calls that `make` and `expecting` return.
* `Expr.Constructed`, `Param.Constructed`: all calls in the tree are such calls.
* `Step.Checked`: what building has made sure of for one step.
-/

set_option autoImplicit false

namespace Rulebook

variable {decl : Declarations}

/-! ## Constructed trees -/

/-- A call that was built under these declarations, and perhaps narrowed. -/
inductive Application.Constructed (decl : Declarations) : Call → Prop where
  | make {registry : Registry} {name : String} {parameter : Param} {call : Call} :
      Application.make decl registry name parameter = .ok call → Constructed decl call
  | expecting {call narrowed : Call} {dataType : DataType} :
      Constructed decl call → call.expecting decl dataType = .ok narrowed →
      Constructed decl narrowed

/-- Every call in the expression was built under these declarations. -/
def Expr.Constructed (decl : Declarations) (v : Expr) : Prop :=
  ∀ call ∈ v.calls, call.Constructed decl

def Param.Constructed (decl : Declarations) (p : Param) : Prop :=
  ∀ call ∈ p.calls, call.Constructed decl

namespace Application

theorem make_eq_ok {registry : Registry} {name : String} {parameter : Param} {call : Call}
    (h : make decl registry name parameter = .ok call) :
    ∃ function, registry.get name = .ok function ∧ parameter.validate decl = .ok () ∧
      (decl.signature function).parameterType.accepts (parameter.staticType decl) = true ∧
        call = ⟨function, parameter, none⟩ := by
  unfold make at h
  cases hf : registry.get name with
  | error e =>
    rw [hf] at h
    cases h
  | ok function =>
    cases hv : parameter.validate decl with
    | error e =>
      rw [hf, hv] at h
      cases h
    | ok _ =>
      rw [hf, hv] at h
      simp only [bind, Except.bind] at h
      split at h
      · next ha =>
        cases h
        exact ⟨function, rfl, rfl, ha, rfl⟩
      · cases h

theorem expecting_eq_ok {call narrowed : Call} {dataType : DataType}
    (h : call.expecting decl dataType = .ok narrowed) :
    narrowed = { call with expected := some dataType } := by
  simp only [expecting] at h
  split at h <;> cases h
  rfl

/-- Narrowing keeps function and parameter, so what `make` has checked stays true. -/
theorem Constructed.checked {call : Call} (h : call.Constructed decl) :
    call.parameter.validate decl = .ok () ∧
      (decl.signature call.function).parameterType.accepts (call.parameter.staticType decl) =
        true := by
  induction h with
  | make h =>
    obtain ⟨function, -, hv, ha, rfl⟩ := make_eq_ok h
    exact ⟨hv, ha⟩
  | expecting _ h ih =>
    rw [expecting_eq_ok h]
    exact ih

end Application

/-! ## Checked steps -/

/-- What building has made sure of: a field was let through by its slot, and the function of a call
accepts the type of the parameter. -/
def Step.Checked (decl : Declarations) : Step → Prop
  | check record f => f.check decl record = .ok ()
  | run call => (decl.signature call.function).parameterType.accepts
      (call.parameter.staticType decl) = true
  | _ => True

theorem Tree.checked :
    (∀ v : Expr, v.Constructed decl → ∀ s ∈ v.steps, s.Checked decl) ∧
      ∀ p : Param, p.Constructed decl → p.validate decl = .ok () →
        ∀ s ∈ p.steps, s.Checked decl := by
  apply Tree.induction
  case constant =>
    intro literal _ s hs
    cases hs
  case element =>
    intro reference _ s hs
    cases List.mem_singleton.mp hs
    trivial
  case application =>
    intro call ih h
    rw [Expr.Constructed, Expr.calls_application, List.forall_mem_append,
      List.forall_mem_singleton] at h
    obtain ⟨hvalid, haccepts⟩ := h.2.checked
    rw [Expr.steps, List.forall_mem_append, List.forall_mem_singleton]
    exact ⟨ih h.1 hvalid, haccepts⟩
  case scalar =>
    intro d _ _ s hs
    cases hs
  case value => exact fun _ ih h _ => ih h
  case mapping =>
    intro entries ih h hvalid s hs
    rw [Param.validate, Param.validateEntries_eq_ok] at hvalid
    rw [Param.Constructed, Param.calls_mapping] at h
    rw [Param.steps, Param.entrySteps_eq] at hs
    obtain ⟨e, he, hs⟩ := List.mem_flatMap.mp hs
    exact ih e he (fun call hc => h call (List.mem_flatMap_of_mem he hc)) (hvalid e he) s hs
  case sequence =>
    intro items ih h hvalid s hs
    rw [Param.validate, Param.validateItems_eq_ok] at hvalid
    rw [Param.Constructed, Param.calls_sequence] at h
    rw [Param.steps, Param.itemSteps_eq] at hs
    obtain ⟨p, hp, hs⟩ := List.mem_flatMap.mp hs
    exact ih p hp (fun call hc => h call (List.mem_flatMap_of_mem hp hc)) (hvalid p hp) s hs
  case record =>
    intro typeName fields ih h hvalid s hs
    rw [Param.validate, Param.validateFields_eq_ok] at hvalid
    rw [Param.Constructed, Param.calls_record] at h
    rw [Param.steps, Param.fieldSteps_eq] at hs
    obtain ⟨f, hf, hs⟩ := List.mem_flatMap.mp hs
    obtain ⟨hnode, hcheck⟩ := hvalid f hf
    rcases List.mem_append.mp hs with hs | hs
    · exact ih f hf (fun call hc => h call (List.mem_flatMap_of_mem hf hc)) hnode s hs
    · cases List.mem_singleton.mp hs
      exact hcheck

/-! ## The failures that building leaves open -/

variable {World : Type} {host : Host World} {ctx : Context}

/-- The field has a slot of type `expected` and holds an expression of the open type, so that
building could not tell whether the content will fit. -/
def Field.Undecided (decl : Declarations) (f : Field Param) (expected : DataType) : Prop :=
  f.slot = .typed expected ∧ ∃ node, f.node = .value node ∧ node.resultType decl = .genericObject

theorem Field.undecided_of_check {record : String} {f : Field Param} {expected : DataType}
    (hslot : f.slot = .typed expected) (hcheck : f.check decl record = .ok ())
    (hmiss : expected.accepts (f.node.staticType decl) = false) : f.Undecided decl expected := by
  simp only [check, hslot, hmiss, Bool.false_or] at hcheck
  split at hcheck
  · next hopen =>
    unfold Param.isOpen at hopen
    split at hopen
    · next node hnode => exact ⟨hslot, node, hnode, beq_iff_eq.mp hopen⟩
    · cases hopen
  · cases hcheck

/-- The failures that are still possible for a checked tree with these record fields: no argument is
rejected, and only undecided fields are missed. -/
def EvalError.LeftOpen (decl : Declarations) (fields : List (String × Field Param))
    (e : EvalError) : Prop :=
  (∀ function expected got, e ≠ .parameterMismatch function expected got) ∧
    ∀ record name expected got, e = .fieldMismatch record name expected got →
      ∃ f, (record, f) ∈ fields ∧ f.name = name ∧ f.Undecided decl expected

theorem Step.Checked.leftOpen {steps : List Step} {s : Step} (hs : s ∈ steps)
    (h : s.Checked host.toDeclarations) {e : EvalError} (he : s.FailsWith host ctx e) :
    e.LeftOpen host.toDeclarations (steps.filterMap Step.field?) := by
  cases he with
  | missingReference => exact ⟨nofun, nofun⟩
  | typeMismatch => exact ⟨nofun, nofun⟩
  | @fieldMismatch record f content expected hcontent hslot hfits =>
    refine ⟨nofun, ?_⟩
    rintro _ _ _ _ ⟨⟩
    refine ⟨f, Step.check_mem_iff.mp hs, rfl, Field.undecided_of_check hslot h ?_⟩
    -- The slot cannot accept the static type, for the content fits that one and misses the slot.
    by_contra haccepts
    rw [Bool.not_eq_false] at haccepts
    rw [Datum.fits_of_accepts (Param.fits_staticType hcontent) haccepts] at hfits
    cases hfits
  | parameterMismatch hargument hfits =>
    rw [Datum.fits_of_accepts (Param.fits_staticType hargument) h] at hfits
    cases hfits
  | function => exact ⟨nofun, nofun⟩
  | resultMismatch => exact ⟨nofun, nofun⟩
  | typeError => exact ⟨nofun, nofun⟩

theorem Expr.leftOpen_of_constructed {v : Expr} (h : v.Constructed host.toDeclarations)
    {w : World} {e : EvalError} (he : (v.evaluate host ctx w).result = .error e) :
    e.LeftOpen host.toDeclarations v.fields := by
  obtain ⟨s, hs, hfails⟩ := v.evaluate_follows.failure he
  exact (Tree.checked.1 v h s hs).leftOpen hs hfails

theorem Param.leftOpen_of_constructed {p : Param} (h : p.Constructed host.toDeclarations)
    (hvalid : p.validate host.toDeclarations = .ok ()) {w : World} {e : EvalError}
    (he : (p.materialize host ctx w).result = .error e) :
    e.LeftOpen host.toDeclarations p.fields := by
  obtain ⟨s, hs, hfails⟩ := p.materialize_follows.failure he
  exact (Tree.checked.2 p h hvalid s hs).leftOpen hs hfails

/-- The calls in a constructed expression are constructed expressions themselves. -/
theorem Expr.Constructed.of_mem_calls {v : Expr} (h : v.Constructed decl) {call : Call}
    (hc : call ∈ v.calls) : (Expr.application call).Constructed decl := by
  rw [Expr.Constructed, Expr.calls_application, List.forall_mem_append, List.forall_mem_singleton]
  exact ⟨fun c hcp => h c (Tree.calls_trans.1 v call hc c hcp), h call hc⟩

/-- While declarations stay as they are: neither a constructed call nor one nested in it ever
rejects its argument, and where a valid parameter or a constructed call misses a typed slot, some
record in it has that field with an expression of the open type. -/
theorem construction_checks_suffice (host : Host World) (ctx : Context) (w : World) :
    (∀ call : Call, (Expr.application call).Constructed host.toDeclarations →
      ∀ c ∈ (Expr.application call).calls, ∀ function expected got,
        ((Expr.application c).evaluate host ctx w).result ≠
          .error (.parameterMismatch function expected got)) ∧
    (∀ p : Param, p.Constructed host.toDeclarations → p.validate host.toDeclarations = .ok () →
      ∀ record name expected got,
        (p.materialize host ctx w).result = .error (.fieldMismatch record name expected got) →
          ∃ f, (record, f) ∈ p.fields ∧ f.name = name ∧
            f.Undecided host.toDeclarations expected) ∧
    ∀ call : Call, (Expr.application call).Constructed host.toDeclarations →
      ∀ record name expected got,
        (call.parameter.materialize host ctx w).result =
            .error (.fieldMismatch record name expected got) ∨
          ((Expr.application call).evaluate host ctx w).result =
            .error (.fieldMismatch record name expected got) →
          ∃ f, (record, f) ∈ call.parameter.fields ∧ f.name = name ∧
            f.Undecided host.toDeclarations expected := by
  refine ⟨fun call h c hc function expected got he => ?_,
    fun p h hvalid record name expected got he => ?_, fun call h record name expected got he => ?_⟩
  · exact (Expr.leftOpen_of_constructed (h.of_mem_calls hc) he).1 _ _ _ rfl
  · exact (Param.leftOpen_of_constructed h hvalid he).2 _ _ _ _ rfl
  · have heval : ((Expr.application call).evaluate host ctx w).result =
        .error (.fieldMismatch record name expected got) := by
      rcases he with he | he
      · rw [Expr.evaluate, Eval.bind_error he]
      · exact he
    have hopen := (Expr.leftOpen_of_constructed h heval).2 _ _ _ _ rfl
    rw [Expr.fields_application] at hopen
    exact hopen

/-- A number slot around a call of the open type: building lets it through, and a text misses it. -/
theorem construction_checks_suffice_open_field :
    let host := Host.echo fun
      | 0 => ⟨.genericObject, .genericObject⟩
      | _ => ⟨.structuredObject, .structuredObject⟩
    let inner : Call := ⟨.hosted "echo" 0, .value (.element ⟨"x", .genericObject, by decide⟩), none⟩
    let limit : Field Param := ⟨"limit", .typed .number, .value (.application inner)⟩
    let outer : Call := ⟨.hosted "find" 1, .record "Query" [limit], none⟩
    let ctx : Context := ⟨[("x", .text "many")]⟩
    ((Expr.application outer).evaluate host ctx ()).result =
        .error (.fieldMismatch "Query" "limit" .number .text) ∧
      (∃ f, ("Query", f) ∈ outer.parameter.fields ∧ f.name = "limit" ∧
        f.Undecided host.toDeclarations .number) ∧
      ∀ function expected got, ((Expr.application inner).evaluate host ctx ()).result ≠
        .error (.parameterMismatch function expected got) := by
  intro host inner limit outer ctx
  have hinner : Application.make host.toDeclarations ⟨[("echo", .hosted "echo" 0)]⟩ "echo"
      inner.parameter = .ok inner := rfl
  have houter : Application.make host.toDeclarations ⟨[("find", .hosted "find" 1)]⟩ "find"
      outer.parameter = .ok outer := rfl
  have hcalls : (Expr.application outer).Constructed host.toDeclarations := by
    intro call hc
    rcases List.mem_pair.mp hc with rfl | rfl
    · exact .make hinner
    · exact .make houter
  obtain ⟨hparameter, -, hfield⟩ := construction_checks_suffice host ctx ()
  have hmiss : ((Expr.application outer).evaluate host ctx ()).result =
      .error (.fieldMismatch "Query" "limit" .number .text) := rfl
  exact ⟨hmiss, hfield outer hcalls _ _ _ _ (.inr hmiss),
    hparameter outer hcalls inner List.mem_cons_self⟩

end Rulebook
