import Rulebook.Expr.Run
import Rulebook.Proofs.Data.Induction

/-! # What a run of an evaluation can be

A bind runs its first part and, only if that succeeds, its second part in the world left behind;
`bind_ok` and `bind_error` are the two cases. Evaluations are a lawful monad, so the lemmas of the
library on `List.mapM` hold for them. Two notions are built on this.

* `Eval.Yields m a`: some world makes `m` succeed with `a`.
* `Eval.Confined E I m`: in every world, a failure of `m` lies in `E` and every invocation of `m`
  lies in `I`. Each way of building an evaluation keeps it, and the second part of a bind has to be
  confined only for values that the first part yields.
-/

set_option autoImplicit false

namespace Rulebook

variable {World α β : Type}

/-! ## Parts of a run -/

namespace Run

/-- The run with its value changed. -/
def map (f : α → β) (run : Run World α) : Run World β :=
  ⟨run.result.map f, run.invocations, run.world⟩

/-- The run with the invocations that were made before it. -/
def preceded (is : List Invocation) (run : Run World α) : Run World α :=
  ⟨run.result, is ++ run.invocations, run.world⟩

variable (f : α → β) (is is' : List Invocation) (run : Run World α)

@[simp] theorem map_result : (run.map f).result = run.result.map f := rfl

@[simp] theorem map_invocations : (run.map f).invocations = run.invocations := rfl

@[simp] theorem preceded_result : (run.preceded is).result = run.result := rfl

@[simp] theorem preceded_invocations : (run.preceded is).invocations = is ++ run.invocations := rfl

theorem preceded_append : run.preceded (is ++ is') = (run.preceded is').preceded is := by
  simp only [preceded, List.append_assoc]

end Run

namespace Eval

/-! ## The cases of a bind -/

@[simp] theorem pure_apply (a : α) (w : World) : (pure a : Eval World α) w = ⟨.ok a, [], w⟩ := rfl

@[simp] theorem ofExcept_apply (r : Except EvalError α) (w : World) :
    ofExcept r w = ⟨r, [], w⟩ := rfl

theorem bind_ok {m : Eval World α} {w : World} {a : α} (h : (m w).result = .ok a)
    (f : α → Eval World β) :
    (m >>= f) w = ⟨(f a (m w).world).result, (m w).invocations ++ (f a (m w).world).invocations,
      (f a (m w).world).world⟩ := by
  show Eval.bind m f w = _
  simp only [Eval.bind, h]

theorem bind_error {m : Eval World α} {w : World} {e : EvalError} (h : (m w).result = .error e)
    (f : α → Eval World β) : (m >>= f) w = ⟨.error e, (m w).invocations, (m w).world⟩ := by
  show Eval.bind m f w = _
  simp only [Eval.bind, h]

instance : LawfulMonad (Eval World) :=
  LawfulMonad.mk' (Eval World)
    (by
      intro α m
      funext w
      cases h : (m w).result with
      | error e =>
        refine (bind_error h (pure ∘ id)).trans ?_
        rw [← h]
      | ok a =>
        refine (bind_ok h (pure ∘ id)).trans ?_
        simp [← h])
    (by
      intro α β a f
      funext w
      rfl)
    (by
      intro α β γ m f g
      funext w
      cases h : (m w).result with
      | error e =>
        rw [bind_error h, bind_error (by rw [bind_error h])]
        simp only [bind_error h]
      | ok a =>
        rw [bind_ok h]
        cases hf : (f a (m w).world).result with
        | error e =>
          rw [bind_error (by rw [bind_ok h]; exact hf), bind_ok h, bind_error hf]
        | ok b =>
          rw [bind_ok (by rw [bind_ok h]; exact hf), bind_ok h, bind_ok hf, List.append_assoc])

/-- A function of the value changes nothing but the value. -/
theorem bind_pure_apply (m : Eval World α) (f : α → β) (w : World) :
    (m >>= fun a => pure (f a)) w = (m w).map f := by
  cases h : (m w).result with
  | error e =>
    rw [bind_error h, Run.map, h]
    rfl
  | ok a =>
    rw [bind_ok h, Run.map, h]
    simp only [pure_apply, List.append_nil, Except.map]

/-- A bind succeeds when both of its parts do. -/
theorem bind_result_ok {m : Eval World α} {f : α → Eval World β} {w : World} {b : β}
    (h : ((m >>= f) w).result = .ok b) :
    ∃ a, (m w).result = .ok a ∧ (f a (m w).world).result = .ok b := by
  cases hm : (m w).result with
  | error e =>
    rw [bind_error hm] at h
    cases h
  | ok a =>
    rw [bind_ok hm] at h
    exact ⟨a, rfl, h⟩

/-- A bind fails in its first part, or after it in its second part. -/
theorem bind_result_error {m : Eval World α} {f : α → Eval World β} {w : World} {e : EvalError}
    (h : ((m >>= f) w).result = .error e) :
    (m w).result = .error e ∨
      ∃ a, (m w).result = .ok a ∧ (f a (m w).world).result = .error e := by
  cases hm : (m w).result with
  | error e' =>
    rw [bind_error hm] at h
    cases h
    exact .inl rfl
  | ok a =>
    rw [bind_ok hm] at h
    exact .inr ⟨a, rfl, h⟩

/-- The invocations of a bind are those of its first part and, if it came to that, of its
second. -/
theorem mem_bind_invocations {m : Eval World α} {f : α → Eval World β} {w : World}
    {i : Invocation} (h : i ∈ ((m >>= f) w).invocations) :
    i ∈ (m w).invocations ∨
      ∃ a, (m w).result = .ok a ∧ i ∈ (f a (m w).world).invocations := by
  cases hm : (m w).result with
  | error e =>
    rw [bind_error hm] at h
    exact .inl h
  | ok a =>
    rw [bind_ok hm] at h
    rcases List.mem_append.mp h with h₁ | h₂
    · exact .inl h₁
    · exact .inr ⟨a, rfl, h₂⟩

/-! ## Values that an evaluation can yield -/

/-- Some run of the evaluation succeeds with `a`. -/
def Yields (m : Eval World α) (a : α) : Prop :=
  ∃ w, (m w).result = .ok a

theorem yields_pure {a b : α} (h : (pure a : Eval World α).Yields b) : b = a := by
  obtain ⟨w, hw⟩ := h
  cases hw
  rfl

theorem yields_ofExcept {r : Except EvalError α} {a : α}
    (h : (ofExcept r : Eval World α).Yields a) : r = .ok a := by
  obtain ⟨w, hw⟩ := h
  exact hw

theorem yields_bind {m : Eval World α} {f : α → Eval World β} {b : β} (h : (m >>= f).Yields b) :
    ∃ a, m.Yields a ∧ (f a).Yields b := by
  obtain ⟨w, hw⟩ := h
  obtain ⟨a, hm, hf⟩ := bind_result_ok hw
  exact ⟨a, ⟨w, hm⟩, ⟨(m w).world, hf⟩⟩

theorem forall₂_of_yields_mapM {f : α → Eval World β} {l : List α} {bs : List β}
    (h : (l.mapM f).Yields bs) : List.Forall₂ (fun a b => (f a).Yields b) l bs := by
  induction l generalizing bs with
  | nil =>
    cases yields_pure h
    exact .nil
  | cons a l ih =>
    rw [List.mapM_cons] at h
    obtain ⟨b, ha, h⟩ := yields_bind h
    obtain ⟨cs, hl, h⟩ := yields_bind h
    cases yields_pure h
    exact .cons ha (ih hl)

theorem yields_mapM {f : α → Eval World β} {l : List α} {bs : List β} (h : (l.mapM f).Yields bs) :
    ∀ a ∈ l, ∃ b, (f a).Yields b :=
  forall_mem_of_forall₂ ((forall₂_of_yields_mapM h).imp fun _ b hb => ⟨b, hb⟩)

/-! ## Confined evaluations -/

/-- Whatever the world, every failure of the evaluation is one of `E` and every invocation that it
makes is one of `I`. -/
structure Confined (E : EvalError → Prop) (I : Invocation → Prop) (m : Eval World α) : Prop where
  failure : ∀ {w e}, (m w).result = .error e → E e
  invocation : ∀ {w i}, i ∈ (m w).invocations → I i

variable {E : EvalError → Prop} {I : Invocation → Prop}

namespace Confined

theorem mono {E' : EvalError → Prop} {I' : Invocation → Prop} {m : Eval World α}
    (h : Confined E I m) (hE : ∀ e, E e → E' e) (hI : ∀ i, I i → I' i) : Confined E' I' m where
  failure he := hE _ (h.failure he)
  invocation hi := hI _ (h.invocation hi)

protected theorem pure (a : α) : Confined E I (pure a : Eval World α) where
  failure h := by cases h
  invocation h := by cases h

protected theorem ofExcept {r : Except EvalError α} (h : ∀ e, r = .error e → E e) :
    Confined E I (ofExcept r : Eval World α) where
  failure hr := h _ hr
  invocation hi := by cases hi

protected theorem bind {m : Eval World α} {f : α → Eval World β} (hm : Confined E I m)
    (hf : ∀ a, m.Yields a → Confined E I (f a)) : Confined E I (m >>= f) where
  failure h := by
    rcases bind_result_error h with h₁ | ⟨a, ha, h₂⟩
    · exact hm.failure h₁
    · exact (hf a ⟨_, ha⟩).failure h₂
  invocation h := by
    rcases mem_bind_invocations h with h₁ | ⟨a, ha, h₂⟩
    · exact hm.invocation h₁
    · exact (hf a ⟨_, ha⟩).invocation h₂

protected theorem mapM {f : α → Eval World β} {l : List α} (h : ∀ a ∈ l, Confined E I (f a)) :
    Confined E I (l.mapM f) := by
  induction l with
  | nil => exact Confined.pure []
  | cons a l ih =>
    rw [List.mapM_cons]
    obtain ⟨ha, hl⟩ := List.forall_mem_cons.mp h
    exact ha.bind fun b _ => (ih hl).bind fun bs _ => Confined.pure (b :: bs)

end Confined

end Eval

/-- The host without state whose functions return what they receive. -/
def Host.echo (signature : Nat → Signature) : Host Unit where
  hostedSignature := signature
  run _ parameter world := (.ok parameter, world)
  fetch _ _ world := (.error "no network", world)

end Rulebook
