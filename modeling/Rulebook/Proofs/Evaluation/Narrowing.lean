import Rulebook.Proofs.Evaluation.CallOrder
import Rulebook.Proofs.Evaluation.Construction

/-! # Narrowed calls

A call runs the same whatever it is narrowed to. Of its results, narrowing lets those through that
fit the type (`Run.Filters`), and it does so by the type of the last narrowing alone: each one takes
the place of the one before. So a succession of narrowings filters by all of its types if each
accepts the last one, and a narrowing to a wider type gives back what an earlier one had excluded.
-/

set_option autoImplicit false

namespace Rulebook

variable {World : Type}

/-- One run made the calls of the other and left the same world; of the results of the other it has
those that `keep` holds of. -/
structure Run.Filters (keep : Datum → Prop) (run base : Run World Datum) : Prop where
  invocations_eq : run.invocations = base.invocations
  world_eq : run.world = base.world
  result_ok : ∀ d, run.result = .ok d ↔ base.result = .ok d ∧ keep d

namespace Run.Filters

variable {keep keep' : Datum → Prop} {run run' base : Run World Datum}

/-- What both runs let through is what each of them has that the other one's filter keeps. -/
theorem and_keep_iff (h : Filters keep run base) (h' : Filters keep' run' base) (d : Datum) :
    run.result = .ok d ∧ keep' d ↔ run'.result = .ok d ∧ keep d := by
  rw [h.result_ok d, h'.result_ok d, and_assoc, and_assoc, and_comm (a := keep' d)]

theorem of_keep_imp (h : Filters keep run base) (h' : Filters keep' run' base)
    (hkeep : ∀ d, keep d → keep' d) : Filters keep run run' where
  invocations_eq := h.invocations_eq.trans h'.invocations_eq.symm
  world_eq := h.world_eq.trans h'.world_eq.symm
  result_ok d := by
    rw [← h.and_keep_iff h' d]
    exact (and_iff_left_of_imp fun hd => hkeep d ((h.result_ok d).mp hd).2).symm

end Run.Filters

namespace Application

/-! ## One call -/

/-- The call without what it is narrowed to. -/
def unnarrowed (call : Call) : Call :=
  { call with expected := none }

/-- A type that the call is narrowed to, if any, lets the datum through. -/
def Keeps (call : Call) (d : Datum) : Prop :=
  ∀ t, call.expected = some t → d.fits t = true

theorem run_unnarrowed (host : Host World) (call : Call) (argument : Datum) (w : World) :
    Run.Filters call.Keeps (call.run host argument w) (call.unnarrowed.run host argument w) := by
  have hinvocations : (call.run host argument w).invocations =
      (call.unnarrowed.run host argument w).invocations := by
    rw [run_invocations, run_invocations, unnarrowed]
  refine ⟨hinvocations, by rw [run_world, run_world, hinvocations], fun d => ?_⟩
  rw [run_eq_ok, run_eq_ok]
  simp only [Promises, forall_eq_or_imp, unnarrowed, reduceCtorEq, IsEmpty.forall_iff,
    implies_true, and_true, Keeps, and_assoc]

theorem evaluate_unnarrowed (host : Host World) (ctx : Context) (call : Call) (w : World) :
    Run.Filters call.Keeps ((Expr.application call).evaluate host ctx w)
      ((Expr.application call.unnarrowed).evaluate host ctx w) := by
  rw [Expr.evaluate, Expr.evaluate]
  cases ha : (call.parameter.materialize host ctx w).result with
  | error e =>
    rw [Eval.bind_error ha, Eval.bind_error (show (call.unnarrowed.parameter.materialize host ctx
      w).result = .error e from ha)]
    exact ⟨rfl, rfl, fun d => by simp⟩
  | ok argument =>
    obtain ⟨hinvocations, hworld, hresult⟩ :=
      call.run_unnarrowed host argument (call.parameter.materialize host ctx w).world
    rw [Eval.bind_ok ha, Eval.bind_ok (show (call.unnarrowed.parameter.materialize host ctx
      w).result = .ok argument from ha)]
    exact ⟨by rw [hinvocations]; rfl, hworld, hresult⟩

/-! ## Successions of narrowings -/

/-- A succession of accepted narrowings. What is declared for functions may change in between. -/
inductive Narrows : Call → List DataType → Call → Prop where
  | nil (call : Call) : Narrows call [] call
  | cons {decl : Declarations} {call next narrowed : Call} {t : DataType} {types : List DataType} :
      call.expecting decl t = .ok next → Narrows next types narrowed →
      Narrows call (t :: types) narrowed

/-- Only the last type is kept. -/
theorem Narrows.eq {v w : Call} {types : List DataType} (h : v.Narrows types w) :
    w = { v with expected := types.getLast?.or v.expected } := by
  induction h with
  | nil => rfl
  | @cons decl call next narrowed t types hstep _ ih =>
    rw [ih, expecting_eq_ok hstep, List.getLast?_cons]
    cases types.getLast? <;> rfl

theorem Narrows.eq_of_last {v w : Call} {types : List DataType} {last : DataType}
    (h : v.Narrows (types ++ [last]) w) : w = { v with expected := some last } := by
  rw [h.eq, List.getLast?_append_of_ne_nil _ (List.cons_ne_nil last []), List.getLast?_singleton,
    Option.some_or]

theorem Narrows.filters {v w : Call} {types : List DataType} {last : DataType}
    (h : v.Narrows (types ++ [last]) w) (host : Host World) (ctx : Context) (world : World) :
    Run.Filters (fun d => d.fits last = true) ((Expr.application w).evaluate host ctx world)
      ((Expr.application v.unnarrowed).evaluate host ctx world) := by
  have hkeeps (d : Datum) : w.Keeps d ↔ d.fits last = true := by
    rw [h.eq_of_last, Keeps]
    simp
  have hfilters := w.evaluate_unnarrowed host ctx world
  rw [funext fun d => propext (hkeeps d), show w.unnarrowed = v.unnarrowed by
    rw [h.eq_of_last, unnarrowed, unnarrowed]] at hfilters
  exact hfilters

end Application

/-! ## Main statement -/

/-- Let a call, narrowed already or not, be narrowed some times, the last time to `last`. It makes the
calls it made before and leaves the same world, and of the results that it has without any narrowing
it has those that fit `last`. They fit every type that accepts `last`. Those that fit what the call
was narrowed to before are those of its former results that fit `last`; if that type accepts `last`,
all of them do. -/
theorem narrowing_filters_results {v w : Call} {types : List DataType} {last : DataType}
    (h : v.Narrows (types ++ [last]) w) (host : Host World) (ctx : Context) (world : World) :
    let run (call : Call) := (Expr.application call).evaluate host ctx world
    (∀ decl, w.resultType decl = last) ∧
      (run w).invocations = (run v).invocations ∧ (run w).world = (run v).world ∧
      Run.Filters (fun d => d.fits last = true) (run w) (run v.unnarrowed) ∧
      (∀ d, (run w).result = .ok d → ∀ t, t.accepts last = true → d.fits t = true) ∧
      (∀ d, (run w).result = .ok d ∧ v.Keeps d ↔ (run v).result = .ok d ∧ d.fits last = true) ∧
      ((∀ s, v.expected = some s → s.accepts last = true) →
        Run.Filters (fun d => d.fits last = true) (run w) (run v)) := by
  intro run
  have hfilters : Run.Filters (fun d => d.fits last = true) (run w) (run v.unnarrowed) :=
    h.filters host ctx world
  have hbefore : Run.Filters v.Keeps (run v) (run v.unnarrowed) :=
    v.evaluate_unnarrowed host ctx world
  refine ⟨fun decl => ?_, hfilters.invocations_eq.trans hbefore.invocations_eq.symm,
    hfilters.world_eq.trans hbefore.world_eq.symm, hfilters, fun d hd t ht => ?_,
    hfilters.and_keep_iff hbefore, fun haccepts => ?_⟩
  · rw [h.eq_of_last]
    rfl
  · exact Datum.fits_of_accepts ((hfilters.result_ok d).mp hd).2 ht
  · exact hfilters.of_keep_imp hbefore fun d hd s hs => Datum.fits_of_accepts hd (haccepts s hs)

/-- A call that was narrowed to the open type is narrowed to it once more and then to numbers. -/
theorem narrowing_filters_results_open :
    let call (expected : DataType) : Call :=
      ⟨.hosted "echo" 0, .value (.element ⟨"n", .genericObject, by decide⟩), some expected⟩
    let v := call .genericObject
    let w := call .number
    let host := Host.echo fun _ => ⟨.genericObject, .genericObject⟩
    let one : Decimal := ⟨false, 1, 0, by decide, by decide⟩
    let run (call : Call) (d : Datum) := (Expr.application call).evaluate host ⟨[("n", d)]⟩ ()
    v.Narrows ([.genericObject] ++ [.number]) w ∧
      (∀ s, v.expected = some s → s.accepts .number = true) ∧
      (run v (.text "Ann")).result = .ok (.text "Ann") ∧
      (run w (.text "Ann")).result = .error (.resultMismatch "echo" .number .text) ∧
      (run w (.number one)).result = .ok (.number one) ∧
      (∀ d, Run.Filters (fun d => d.fits .number = true) (run w d) (run v d)) ∧
      (Datum.number one).fits .genericObject = true := by
  intro call v w host one run
  have hopen : v.expecting host.toDeclarations .genericObject = .ok v := rfl
  have hnumber : v.expecting host.toDeclarations .number = .ok w := rfl
  have h : v.Narrows ([.genericObject] ++ [.number]) w := .cons hopen (.cons hnumber (.nil w))
  have hexpected : ∀ s, v.expected = some s → s.accepts .number = true := by
    rintro s ⟨⟩
    rfl
  have hone : (run w (.number one)).result = .ok (.number one) := rfl
  obtain ⟨-, -, -, -, hfits, -, -⟩ :=
    narrowing_filters_results h host ⟨[("n", .number one)]⟩ ()
  refine ⟨h, hexpected, rfl, rfl, hone, fun d => ?_, hfits _ hone .genericObject rfl⟩
  exact (narrowing_filters_results h host ⟨[("n", d)]⟩ ()).2.2.2.2.2.2 hexpected

/-- A call is narrowed to numbers and then to the open type. The second narrowing takes the place of
the first: a text, a failure before, is let through again. -/
theorem widened_narrowing_is_not_enforced :
    let parameter := Param.mapping [("field", .scalar (.text "name")),
      ("object", .scalar (.map [("name", .text "Ann")]))]
    let call : Call := ⟨.property, parameter, none⟩
    let v : Call := { call with expected := some .number }
    let w : Call := { call with expected := some .genericObject }
    let host := Host.echo fun _ => ⟨.text, .text⟩
    let run (call : Call) := (Expr.application call).evaluate host ∅ ()
    Application.make host.toDeclarations .withBuiltins "get_property" parameter = .ok call ∧
      call.expecting host.toDeclarations .number = .ok v ∧
      v.expecting host.toDeclarations .genericObject = .ok w ∧
      (run v).result = .error (.resultMismatch "get_property" .number .text) ∧
      (run w).result = .ok (.text "Ann") ∧
      ¬ ((∀ d, (run w).result = .ok d ↔ (run v).result = .ok d ∧ d.fits .genericObject = true) ∨
        ∀ d, (run w).result = .ok d → d.fits .number = true) := by
  intro parameter call v w host run
  have hv : (run v).result = .error (.resultMismatch "get_property" .number .text) := rfl
  have hw : (run w).result = .ok (.text "Ann") := rfl
  refine ⟨rfl, rfl, rfl, hv, hw, fun h => ?_⟩
  rcases h with hfilters | hfits
  · have hsame := ((hfilters _).mp hw).1
    rw [hv] at hsame
    cases hsame
  · cases hfits _ hw

end Rulebook
