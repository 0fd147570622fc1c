import Rulebook.Proofs.Evaluation.Effects

/-! # Evaluation respects the declared types

Types are declared by the host, and a host may declare other types for a function than it did when
trees were built on it. Nothing here asks what was declared then: under the declarations of the time
of evaluation, what a tree yields fits the type that the tree is declared to produce, functions
receive only data that fit their parameter types, and what a call passes on fits every type that the
call promises, whatever the body of the function returned.
-/

set_option autoImplicit false

namespace Rulebook

variable {World : Type} {host : Host World} {ctx : Context}

/-! ## What trees yield -/

theorem Application.promises_resultType {P : Type} (decl : Declarations) (call : Application P) :
    call.Promises decl (call.resultType decl) := by
  unfold Promises resultType
  cases call.expected with
  | none => exact .inl rfl
  | some t => exact .inr rfl

/-- The value of an application fits every type that the call promises. -/
theorem Expr.fits_of_promises {call : Call} {d : Datum}
    (h : ((Expr.application call).evaluate host ctx).Yields d) {t : DataType}
    (ht : call.Promises host.toDeclarations t) : d.fits t = true := by
  obtain ⟨argument, -, w, hr⟩ := Eval.yields_bind h
  exact (Application.run_eq_ok.mp hr).2.2 t ht

theorem Expr.fits_resultType {v : Expr} {d : Datum} (h : (v.evaluate host ctx).Yields d) :
    d.fits (v.resultType host.toDeclarations) = true := by
  cases v with
  | constant literal =>
    cases Eval.yields_pure h
    exact literal.value_fits
  | element reference => exact (Element.evaluate_eq_ok.mp (Eval.yields_ofExcept h)).2
  | application call => exact fits_of_promises h (call.promises_resultType _)

theorem Param.fits_staticType {p : Param} {d : Datum} (h : (p.materialize host ctx).Yields d) :
    d.fits (p.staticType host.toDeclarations) = true := by
  cases p with
  | scalar datum =>
    cases Eval.yields_pure h
    exact d.fits_dataType
  | value node => exact Expr.fits_resultType h
  | mapping entries =>
    obtain ⟨ds, -, hd⟩ := Eval.yields_bind h
    cases Eval.yields_pure hd
    rfl
  | sequence items =>
    obtain ⟨ds, -, hd⟩ := Eval.yields_bind h
    cases Eval.yields_pure hd
    rfl
  | record typeName fields =>
    obtain ⟨ds, -, hd⟩ := Eval.yields_bind h
    cases Eval.yields_pure hd
    rfl

/-! ## What functions receive -/

theorem Eval.Follows.argument_fits {α : Type} {steps : List Step} {m : Eval World α}
    (h : Follows host ctx steps m) {w : World} {i : Invocation} (hi : i ∈ (m w).invocations) :
    i.argument.fits (host.signature i.function).parameterType = true := by
  obtain ⟨s, -, hinvokes⟩ := h.invocation hi
  cases hinvokes with
  | run _ hfits => exact hfits

theorem Engine.execute_argument_fits {engine : Engine} {id : String} {w : World} {i : Invocation}
    (hi : i ∈ (engine.execute host ctx id w).invocations) :
    i.argument.fits (host.signature i.function).parameterType = true := by
  cases hs : engine.ruleSet id with
  | error e =>
    rw [execute_of_error hs] at hi
    cases hi
  | ok set => exact (execute_follows hs).argument_fits hi

/-- Whatever the declarations are when a tree is evaluated, its value fits its declared type, every
function in it receives an argument of its parameter type, and every call passes on only what fits
the result type of its function and the type that it is narrowed to. The invocations of a whole
execution are typed as well. -/
theorem evaluation_type_safe (host : Host World) (ctx : Context) (w : World) :
    (∀ (v : Expr) (d : Datum), (v.evaluate host ctx w).result = .ok d →
      d.fits (v.resultType host.toDeclarations) = true) ∧
    (∀ (p : Param) (d : Datum), (p.materialize host ctx w).result = .ok d →
      d.fits (p.staticType host.toDeclarations) = true) ∧
    (∀ v : Expr, ∀ i ∈ (v.evaluate host ctx w).invocations,
      i.argument.fits (host.signature i.function).parameterType = true) ∧
    (∀ p : Param, ∀ i ∈ (p.materialize host ctx w).invocations,
      i.argument.fits (host.signature i.function).parameterType = true) ∧
    (∀ (call : Call) (d : Datum), ((Expr.application call).evaluate host ctx w).result = .ok d →
      d.fits (host.signature call.function).resultType = true ∧
        ∀ t, call.expected = some t → d.fits t = true) ∧
    ∀ (engine : Engine) (id : String), ∀ i ∈ (engine.execute host ctx id w).invocations,
      i.argument.fits (host.signature i.function).parameterType = true := by
  refine ⟨fun v d h => Expr.fits_resultType ⟨w, h⟩, fun p d h => Param.fits_staticType ⟨w, h⟩,
    fun v i hi => ?_, fun p i hi => ?_, fun call d h => ⟨?_, fun t ht => ?_⟩,
    fun engine id i hi => ?_⟩
  · exact v.evaluate_follows.argument_fits hi
  · exact p.materialize_follows.argument_fits hi
  · exact Expr.fits_of_promises ⟨w, h⟩ (.inl rfl)
  · exact Expr.fits_of_promises ⟨w, h⟩ (.inr ht)
  · exact Engine.execute_argument_fits hi

/-- A narrowed call of an untyped function yields what the narrower type promises. -/
theorem evaluation_type_safe_narrowed :
    let call : Call := ⟨.hosted "echo" 0, .value (.element ⟨"name", .text, by decide⟩), some .text⟩
    let host := Host.echo fun _ => ⟨.genericObject, .genericObject⟩
    let ctx : Context := ⟨[("name", .text "Ann")]⟩
    let run := (Expr.application call).evaluate host ctx ()
    run.result = .ok (.text "Ann") ∧
      (Datum.text "Ann").fits ((Expr.application call).resultType host.toDeclarations) = true ∧
      (Datum.text "Ann").fits (call.parameter.staticType host.toDeclarations) = true ∧
      (Datum.text "Ann").fits (host.signature call.function).resultType = true ∧
      run.invocations = [⟨call.function, .text "Ann"⟩] ∧
      ∀ i ∈ run.invocations, i.argument.fits (host.signature i.function).parameterType = true := by
  intro call host ctx run
  obtain ⟨hexpr, hparam, hinvoked, -, hcall, -⟩ := evaluation_type_safe host ctx ()
  exact ⟨rfl, hexpr (.application call) _ rfl, hparam call.parameter _ rfl, (hcall call _ rfl).1,
    rfl, hinvoked (.application call)⟩

end Rulebook
