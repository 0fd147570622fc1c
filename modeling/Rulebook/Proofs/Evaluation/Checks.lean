import Rulebook.Expr.Evaluate
import Rulebook.Operator.Apply
import Rulebook.Proofs.Evaluation.Run

/-! # The checks of an evaluation

One pair of statements for each elementary operation: when it succeeds, and which failure it ends
in otherwise. Looking up an element, checking a field against its slot, applying an operator and
running the function of a call are all that an evaluation can fail in.
-/

set_option autoImplicit false

namespace Rulebook

@[simp] theorem Datum.fits_genericObject (d : Datum) : d.fits .genericObject = true :=
  DataType.genericObject_accepts _

@[simp] theorem Datum.fits_dataType (d : Datum) : d.fits d.dataType = true :=
  DataType.accepts_self _

/-- Whatever fits a type fits every type that accepts it. -/
theorem Datum.fits_of_accepts {d : Datum} {s t : DataType} (hd : d.fits s = true)
    (hs : t.accepts s = true) : d.fits t = true := by
  rcases DataType.accepts_iff.mp hs with rfl | rfl
  · exact d.fits_genericObject
  · exact hd

/-! ## Elements -/

theorem Element.evaluate_eq_ok {e : Element} {ctx : Context} {d : Datum} :
    e.evaluate ctx = .ok d ↔ ctx.get? e.code = some d ∧ d.fits e.dataType = true := by
  unfold evaluate
  cases ctx.get? e.code with
  | none => simp
  | some d' =>
    by_cases h : d'.fits e.dataType = true
    · simp only [h, if_true, Except.ok.injEq, Option.some.injEq]
      constructor
      · rintro rfl
        exact ⟨rfl, h⟩
      · exact And.left
    · simp only [h]
      constructor
      · exact fun hd => nomatch hd
      · rintro ⟨hd, hfits⟩
        cases hd
        exact absurd hfits h

theorem Element.evaluate_eq_error {e : Element} {ctx : Context} {err : EvalError} :
    e.evaluate ctx = .error err ↔
      (ctx.get? e.code = none ∧ err = .missingReference e.code) ∨
        ∃ d, ctx.get? e.code = some d ∧ d.fits e.dataType = false ∧
          err = .typeMismatch e.code e.dataType d.dataType := by
  unfold evaluate
  cases ctx.get? e.code with
  | none => simp [eq_comm (a := err)]
  | some d => cases h : d.fits e.dataType <;> simp [h, eq_comm (a := err)]

/-! ## Fields -/

theorem Field.entry_eq_ok {P : Type} {record : String} {f : Field P} {content : Datum}
    {e : String × Datum} :
    f.entry record content = .ok e ↔
      f.slot.accepts content.dataType = true ∧ e = (f.name, content) := by
  unfold Field.entry
  cases f.slot with
  | untyped => simp [Slot.accepts, eq_comm (a := e)]
  | typed t =>
    show (if content.fits t = true then _ else _) = _ ↔ content.fits t = true ∧ _
    cases content.fits t <;> simp [eq_comm (a := e)]

theorem Field.entry_eq_error {P : Type} {record : String} {f : Field P} {content : Datum}
    {err : EvalError} :
    f.entry record content = .error err ↔
      ∃ t, f.slot = .typed t ∧ content.fits t = false ∧
        err = .fieldMismatch record f.name t content.dataType := by
  unfold Field.entry
  cases f.slot with
  | untyped => simp
  | typed t => cases h : content.fits t <;> simp [h, eq_comm (a := err)]

/-! ## Operators -/

namespace Operator

variable {op : Operator} {l r : Datum} {err : EvalError}

theorem operand_eq_error (h : op.operand l = .error err) : ∃ fault, err = .typeError fault := by
  unfold operand at h
  cases hn : l.asNumber? with
  | some n => simp [hn] at h
  | none =>
    simp only [hn, Except.error.injEq] at h
    exact ⟨_, h.symm⟩

theorem compareDecimals_eq_error {m n : Decimal} (h : op.compareDecimals m n = .error err) :
    ∃ fault, err = .typeError fault := by
  cases op <;> cases h <;> exact ⟨_, rfl⟩

theorem compareNumbers_eq_error (h : op.compareNumbers l r = .error err) :
    ∃ fault, err = .typeError fault := by
  unfold compareNumbers at h
  cases hl : op.operand l with
  | error e =>
    rw [hl] at h
    cases h
    exact operand_eq_error hl
  | ok m =>
    cases hr : op.operand r with
    | error e =>
      rw [hl, hr] at h
      cases h
      exact operand_eq_error hr
    | ok n =>
      rw [hl, hr] at h
      exact compareDecimals_eq_error h

theorem search_eq_error (h : op.search l r = .error err) : ∃ fault, err = .typeError fault := by
  cases l with
  | bool b =>
    cases h
    exact ⟨_, rfl⟩
  | number n =>
    cases h
    exact ⟨_, rfl⟩
  | json j => cases j <;> cases h <;> exact ⟨_, rfl⟩
  | _ => cases h

theorem texts_eq_error (h : op.texts l r = .error err) : ∃ fault, err = .typeError fault := by
  unfold texts at h
  split at h
  · cases h
  · cases h
    exact ⟨_, rfl⟩

theorem eq_error_of_map {α β : Type} {x : Except EvalError α} {f : α → β}
    (h : x.map f = .error err) : x = .error err := by
  cases x <;> cases h
  rfl

/-- An operator fails only with a type error. -/
theorem apply_eq_error (h : op.apply l r = .error err) : ∃ fault, err = .typeError fault := by
  cases op with
  | eq => cases h
  | ne => cases h
  | lt => exact compareNumbers_eq_error h
  | le => exact compareNumbers_eq_error h
  | gt => exact compareNumbers_eq_error h
  | ge => exact compareNumbers_eq_error h
  | contains => exact search_eq_error h
  | notContains => exact search_eq_error (eq_error_of_map h)
  | startsWith => exact texts_eq_error (eq_error_of_map h)
  | endsWith => exact texts_eq_error (eq_error_of_map h)

end Operator

/-! ## Functions -/

namespace Eval

variable {World : Type} {host : Host World} {function : FunctionRef} {argument result : Datum}
  {w : World}

theorem invoke_of_ok (h : (host.execute function argument w).1 = .ok result) :
    (invoke host function argument w).result = .ok result := by
  show Except.mapError _ (host.execute function argument w).1 = _
  rw [h]
  rfl

/-- What a function reports reaches the caller unaltered, under the name of the function. -/
theorem invoke_of_error {source : FunctionError}
    (h : (host.execute function argument w).1 = .error source) :
    (invoke host function argument w).result = .error (.function function.name source) := by
  show Except.mapError _ (host.execute function argument w).1 = _
  rw [h]
  rfl

end Eval

/-! ## Calls -/

namespace Application

variable {World P : Type} {decl : Declarations} {call : Application P} {result d : Datum}

/-- The types that a result is checked against: the one that the function is declared to produce,
and the one that the call is narrowed to. -/
def Promises (decl : Declarations) (call : Application P) (t : DataType) : Prop :=
  t = (decl.signature call.function).resultType ∨ call.expected = some t

theorem checkResult_eq_ok :
    call.checkResult decl result = .ok d ↔
      d = result ∧ ∀ t, call.Promises decl t → result.fits t = true := by
  unfold checkResult Promises
  cases call.expected with
  | none => cases h : result.fits (decl.signature call.function).resultType <;>
      simp [h, eq_comm (a := d)]
  | some t =>
    cases h : result.fits (decl.signature call.function).resultType <;>
      cases ht : result.fits t <;> simp [h, ht, eq_comm (a := d)]

theorem checkResult_eq_error {err : EvalError} (h : call.checkResult decl result = .error err) :
    ∃ t, call.Promises decl t ∧ result.fits t = false ∧
      err = .resultMismatch call.function.name t result.dataType := by
  unfold checkResult at h
  unfold Promises
  cases hr : result.fits (decl.signature call.function).resultType with
  | false =>
    simp only [hr, Bool.not_false, if_true, Except.error.injEq] at h
    exact ⟨_, .inl rfl, hr, h.symm⟩
  | true =>
    cases he : call.expected with
    | none => simp [hr, he] at h
    | some t =>
      cases ht : result.fits t with
      | true => simp [hr, he, ht] at h
      | false =>
        simp only [hr, he, ht, Bool.not_true, Bool.false_eq_true, if_false,
          Except.error.injEq] at h
        exact ⟨t, .inr rfl, ht, h.symm⟩

variable {host : Host World} {argument : Datum} {w : World}

/-- A function runs only over an argument of its parameter type. -/
theorem run_invocations :
    (call.run host argument w).invocations =
      if argument.fits (host.signature call.function).parameterType then
        [⟨call.function, argument⟩] else [] := by
  unfold run
  cases argument.fits (host.signature call.function).parameterType with
  | false => rfl
  | true =>
    cases h : (Eval.invoke host call.function argument w).result with
    | error e =>
      simp only [if_true]
      rw [Eval.bind_error h]
      rfl
    | ok result =>
      simp only [if_true]
      rw [Eval.bind_ok h]
      rfl

theorem run_eq_ok :
    (call.run host argument w).result = .ok d ↔
      argument.fits (host.signature call.function).parameterType = true ∧
        (host.execute call.function argument w).1 = .ok d ∧
          ∀ t, call.Promises host.toDeclarations t → d.fits t = true := by
  unfold run
  cases argument.fits (host.signature call.function).parameterType with
  | false => simp
  | true =>
    simp only [if_true, true_and]
    cases h : (host.execute call.function argument w).1 with
    | error source =>
      rw [Eval.bind_error (Eval.invoke_of_error h)]
      simp
    | ok result =>
      rw [Eval.bind_ok (Eval.invoke_of_ok h)]
      show call.checkResult host.toDeclarations result = .ok d ↔ _
      rw [checkResult_eq_ok, Except.ok.injEq]
      constructor
      · rintro ⟨rfl, ht⟩
        exact ⟨rfl, ht⟩
      · rintro ⟨rfl, ht⟩
        exact ⟨rfl, ht⟩

/-- A call fails on its argument, in its function or on its result. -/
theorem run_eq_error {err : EvalError} (h : (call.run host argument w).result = .error err) :
    (argument.fits (host.signature call.function).parameterType = false ∧
      err = .parameterMismatch call.function.name (host.signature call.function).parameterType
        argument.dataType) ∨
    (∃ source, (host.execute call.function argument w).1 = .error source ∧
      err = .function call.function.name source) ∨
    ∃ result t, (host.execute call.function argument w).1 = .ok result ∧
      call.Promises host.toDeclarations t ∧ result.fits t = false ∧
        err = .resultMismatch call.function.name t result.dataType := by
  unfold run at h
  cases ha : argument.fits (host.signature call.function).parameterType with
  | false =>
    simp only [ha, Bool.false_eq_true, if_false, Eval.ofExcept_apply, Except.error.injEq] at h
    exact .inl ⟨rfl, h.symm⟩
  | true =>
    simp only [ha, if_true] at h
    cases hx : (host.execute call.function argument w).1 with
    | error source =>
      rw [Eval.bind_error (Eval.invoke_of_error hx)] at h
      cases h
      exact .inr (.inl ⟨source, rfl, rfl⟩)
    | ok result =>
      rw [Eval.bind_ok (Eval.invoke_of_ok hx)] at h
      obtain ⟨t, ht, hfits, he⟩ := checkResult_eq_error h
      exact .inr (.inr ⟨result, t, rfl, ht, hfits, he⟩)

end Application

end Rulebook
