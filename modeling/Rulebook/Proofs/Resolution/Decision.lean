import Rulebook.Proofs.Evaluation.Effects

/-! # The rule that decides a resolution

A rule passes when it yields no value. Rules are tried in the worlds that the rules before them
leave behind, so `Passed` runs through them step by step. A resolution goes through a leading part
of the rules that passes; then either no rule is left, or the next one yields a value or fails, and
its run is the end of the resolution. The rules after that one have no part in it.
-/

set_option autoImplicit false

namespace Rulebook

variable {World : Type} {host : Host World} {ctx : Context}

/-- Tried one after the other from world `w`, all rules pass. The invocations made on the way are
`is` and the world left behind is `w'`. -/
inductive Passed (host : Host World) (ctx : Context) :
    List Rule → World → List Invocation → World → Prop where
  | nil {w : World} : Passed host ctx [] w [] w
  | cons {r : Rule} {rest : List Rule} {w w' : World} {is : List Invocation} :
      (r.apply host ctx w).result = .ok none →
      Passed host ctx rest (r.apply host ctx w).world is w' →
      Passed host ctx (r :: rest) w ((r.apply host ctx w).invocations ++ is) w'

/-- From world `w`, the rules `before` pass and `r`, which is tried next in world `w'`, does
not. -/
structure Decided (host : Host World) (ctx : Context) (before : List Rule) (r : Rule) (w : World)
    (is : List Invocation) (w' : World) : Prop where
  passed : Passed host ctx before w is w'
  decides : (r.apply host ctx w').result ≠ .ok none

variable {rules before after rest : List Rule} {r : Rule} {w w' : World} {is : List Invocation}

/-! ## Passing -/

theorem Passed.of_mem (h : Passed host ctx rules w is w') (hr : r ∈ rules) :
    ∃ w₁, (r.apply host ctx w₁).result = .ok none := by
  induction h with
  | nil => cases hr
  | cons hhead _ ih =>
    rcases List.mem_cons.mp hr with rfl | hr
    · exact ⟨_, hhead⟩
    · exact ih hr

theorem Passed.invocations_among (h : Passed host ctx rules w is w') :
    ∀ i ∈ is, i.Among (rules.flatMap Rule.calls) := by
  induction h with
  | nil => exact fun _ hi => nomatch hi
  | @cons r rest w _ _ _ _ ih =>
    intro i hi
    rw [List.flatMap_cons]
    rcases List.mem_append.mp hi with hi | hi
    · exact (r.apply_follows.among hi).mono (List.subset_append_left _ _)
    · exact (ih i hi).mono (List.subset_append_right _ _)

/-- Only functions of the rules up to the deciding one are run. -/
theorem Decided.invocations_among (h : Decided host ctx before r w is w') :
    ∀ i ∈ is ++ (r.apply host ctx w').invocations,
      i.Among ((before ++ [r]).flatMap Rule.calls) := by
  intro i hi
  rw [List.flatMap_append, List.flatMap_singleton]
  rcases List.mem_append.mp hi with hi | hi
  · exact (h.passed.invocations_among i hi).mono (List.subset_append_left _ _)
  · exact (r.apply_follows.among hi).mono (List.subset_append_right _ _)

/-- A rule without a condition never passes. -/
theorem Rule.apply_ne_none (h : r.isFallback = true) (w : World) :
    (r.apply host ctx w).result ≠ .ok none := by
  intro hpass
  obtain ⟨c, hc, -⟩ := condition_of_pass hpass
  rw [Option.isNone_iff_eq_none.mp h] at hc
  cases hc

/-- All rules pass, or some rule is the first that does not. -/
theorem passed_or_decided (host : Host World) (ctx : Context) (rules : List Rule) (w : World) :
    (∃ is w', Passed host ctx rules w is w') ∨
      ∃ before r after is w', rules = before ++ r :: after ∧ Decided host ctx before r w is w' := by
  induction rules generalizing w with
  | nil => exact .inl ⟨[], w, .nil⟩
  | cons r rest ih =>
    by_cases hr : (r.apply host ctx w).result = .ok none
    · rcases ih (r.apply host ctx w).world with ⟨is, w', h⟩ | ⟨before, r', after, is, w', hs, h⟩
      · exact .inl ⟨_, w', .cons hr h⟩
      · refine .inr ⟨r :: before, r', after, _, w', ?_, .cons hr h.passed, h.decides⟩
        rw [hs]
        rfl
    · exact .inr ⟨[], r, rest, [], w, rfl, .nil, hr⟩

/-! ## Resolving -/

namespace RuleSet

theorem firstMatch_cons_of_pass (h : (r.apply host ctx w).result = .ok none) :
    firstMatch host ctx (r :: rest) w =
      (firstMatch host ctx rest (r.apply host ctx w).world).preceded
        (r.apply host ctx w).invocations :=
  Eval.bind_ok h _

theorem firstMatch_cons_of_ne (h : (r.apply host ctx w).result ≠ .ok none) :
    firstMatch host ctx (r :: rest) w = r.apply host ctx w := by
  rw [firstMatch]
  cases hr : (r.apply host ctx w).result with
  | error e =>
    rw [Eval.bind_error hr]
    rw [← hr]
  | ok value =>
    cases value with
    | none => exact absurd hr h
    | some d =>
      rw [Eval.bind_ok hr]
      simp only [Eval.pure_apply, List.append_nil]
      rw [← hr]

/-- Rules that pass only add their invocations and the world that they leave behind. -/
theorem firstMatch_append_of_passed (h : Passed host ctx before w is w') :
    firstMatch host ctx (before ++ rest) w = (firstMatch host ctx rest w').preceded is := by
  induction h with
  | nil => rfl
  | cons hhead _ ih =>
    rw [List.cons_append, firstMatch_cons_of_pass hhead, ih, Run.preceded_append]

theorem firstMatch_of_passed (h : Passed host ctx rules w is w') :
    firstMatch host ctx rules w = ⟨.ok none, is, w'⟩ := by
  have hend : firstMatch host ctx (rules ++ []) w = _ := firstMatch_append_of_passed h
  rw [List.append_nil] at hend
  rw [hend, firstMatch, Eval.pure_apply, Run.preceded, List.append_nil]

theorem firstMatch_of_decided (h : Decided host ctx before r w is w') :
    firstMatch host ctx (before ++ r :: after) w = (r.apply host ctx w').preceded is := by
  rw [firstMatch_append_of_passed h.passed, firstMatch_cons_of_ne h.decides]

theorem firstMatch_eq_none_iff :
    (firstMatch host ctx rules w).result = .ok none ↔ ∃ is w', Passed host ctx rules w is w' := by
  constructor
  · intro h
    rcases passed_or_decided host ctx rules w with hpassed | ⟨before, r, after, is, w', hs, hd⟩
    · exact hpassed
    · rw [hs, firstMatch_of_decided hd] at h
      exact absurd h hd.decides
  · rintro ⟨is, w', h⟩
    rw [firstMatch_of_passed h]

end RuleSet

end Rulebook
