import Mathlib.Data.List.Forall2
import Rulebook.Datum.Basic
import Rulebook.Proofs.Evaluation.Run

/-! # Outcomes that agree

Two computations agree when both succeed, with values that correspond, or both fail with the same
failure (`SameOutcome`). Evaluations agree when this holds whatever the worlds they start in, and
when they call the same functions in the same order with equal arguments (`Eval.Agree`). Agreement
is kept by each way of building a computation.
-/

set_option autoImplicit false

namespace Rulebook

variable {ε World α β γ δ : Type} {R : α → β → Prop} {S : γ → δ → Prop}

/-! ## Results -/

/-- Both succeed with values that `R` relates, or both fail alike. -/
inductive SameOutcome (R : α → β → Prop) : Except ε α → Except ε β → Prop where
  | ok {a : α} {b : β} : R a b → SameOutcome R (.ok a) (.ok b)
  | error (e : ε) : SameOutcome R (.error e) (.error e)

namespace SameOutcome

variable {r : Except ε α} {s : Except ε β}

theorem refl {R : α → α → Prop} (h : ∀ a, R a a) (r : Except ε α) : SameOutcome R r r := by
  cases r with
  | ok a => exact .ok (h a)
  | error e => exact .error e

theorem bind {f : α → Except ε γ} {g : β → Except ε δ} (h : SameOutcome R r s)
    (hf : ∀ a b, R a b → SameOutcome S (f a) (g b)) : SameOutcome S (r >>= f) (s >>= g) := by
  cases h with
  | ok hab => exact hf _ _ hab
  | error e => exact .error e

theorem map {f : α → γ} {g : β → δ} (h : SameOutcome R r s) (hf : ∀ a b, R a b → S (f a) (g b)) :
    SameOutcome S (r.map f) (s.map g) := by
  cases h with
  | ok hab => exact .ok (hf _ _ hab)
  | error e => exact .error e

theorem mapError {ε' : Type} (f : ε → ε') (h : SameOutcome R r s) :
    SameOutcome R (r.mapError f) (s.mapError f) := by
  cases h with
  | ok hab => exact .ok hab
  | error e => exact .error (f e)

end SameOutcome

/-! ## Evaluations -/

/-- One function was called, with equal arguments. -/
structure Invocation.Alike (i j : Invocation) : Prop where
  function_eq : i.function = j.function
  argument_equal : i.argument.equal j.argument = true

structure Run.Agree (R : α → β → Prop) (r : Run World α) (s : Run World β) : Prop where
  result : SameOutcome R r.result s.result
  invocations : List.Forall₂ Invocation.Alike r.invocations s.invocations

/-- Whatever the worlds, the runs agree. -/
def Eval.Agree (R : α → β → Prop) (m : Eval World α) (n : Eval World β) : Prop :=
  ∀ v w, (m v).Agree R (n w)

namespace Eval.Agree

variable {m : Eval World α} {n : Eval World β}

protected theorem pure {a : α} {b : β} (h : R a b) :
    Agree R (pure a : Eval World α) (pure b : Eval World β) :=
  fun _ _ => ⟨.ok h, .nil⟩

protected theorem ofExcept {r : Except EvalError α} {s : Except EvalError β}
    (h : SameOutcome R r s) : Agree R (ofExcept r : Eval World α) (ofExcept s : Eval World β) :=
  fun _ _ => ⟨h, .nil⟩

/-- If the first parts agree, so do the second parts, or there are none. -/
protected theorem bind {f : α → Eval World γ} {g : β → Eval World δ} (hm : Agree R m n)
    (hf : ∀ a b, R a b → Agree S (f a) (g b)) : Agree S (m >>= f) (n >>= g) := by
  intro v w
  obtain ⟨hresult, hcalls⟩ := hm v w
  cases hr : (m v).result with
  | error e =>
    rw [hr] at hresult
    cases hs : (n w).result with
    | ok b =>
      rw [hs] at hresult
      cases hresult
    | error e' =>
      rw [hs] at hresult
      cases hresult
      rw [bind_error hr, bind_error hs]
      exact ⟨.error e, hcalls⟩
  | ok a =>
    rw [hr] at hresult
    cases hs : (n w).result with
    | error e =>
      rw [hs] at hresult
      cases hresult
    | ok b =>
      rw [hs] at hresult
      cases hresult with
      | ok hab =>
        obtain ⟨hresult', hcalls'⟩ := hf a b hab (m v).world (n w).world
        rw [bind_ok hr, bind_ok hs]
        exact ⟨hresult', List.rel_append hcalls hcalls'⟩

protected theorem mapM {f : α → Eval World γ} {g : β → Eval World δ} {as : List α} {bs : List β}
    (h : List.Forall₂ (fun a b => Agree S (f a) (g b)) as bs) :
    Agree (List.Forall₂ S) (as.mapM f) (bs.mapM g) := by
  induction h with
  | nil => exact .pure .nil
  | cons hab _ ih =>
    rw [List.mapM_cons, List.mapM_cons]
    exact hab.bind fun c d hcd => ih.bind fun cs ds hrest => .pure (.cons hcd hrest)

end Eval.Agree

end Rulebook
