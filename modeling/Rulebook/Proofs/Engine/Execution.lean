import Rulebook.Proofs.Engine.Consistency

/-! # What an execution comes to

An engine that holds a list of rules has the rules of an id, in order, as its candidates, and an
execution resolves them. Since evaluation never fails with a configuration error, the failure that
an id is unknown means that no rule of this id was ever accepted.
-/

set_option autoImplicit false

namespace Rulebook

variable {World : Type} {host : Host World} {ctx : Context}

/-- A resolution without a match is what the outcome tells, and nothing else. -/
theorem Outcome.map_eq_noMatch_iff {result : Except EvalError (Option Datum)} :
    result.map ofOption = .ok noMatch ↔ result = .ok none := by
  cases result with
  | error e => exact iff_of_false nofun nofun
  | ok value =>
    cases value with
    | none => exact iff_of_true rfl rfl
    | some d => exact iff_of_false nofun nofun

namespace Engine.Holds

variable {engine : Engine} {rules : List Rule} {id : String}

theorem ruleSet_of_unknown (h : engine.Holds rules) (hid : Rule.inOrder id rules = []) :
    engine.ruleSet id = .error (.unknownRule id) := by
  have hnone : ¬(engine.rules.lookup id).isSome = true := by
    rw [h.known_iff]
    rintro ⟨r, hr, hrid⟩
    exact Rule.inOrder_eq_nil_iff.mp hid r hr hrid
  rw [ruleSet, Option.not_isSome_iff_eq_none.mp hnone]

theorem ruleSet_of_known (h : engine.Holds rules) (hid : Rule.inOrder id rules ≠ []) :
    ∃ set, engine.ruleSet id = .ok set ∧ set.rules = Rule.inOrder id rules := by
  obtain ⟨r, hr⟩ := List.exists_mem_of_ne_nil _ hid
  have hsome : (engine.rules.lookup id).isSome = true :=
    (h.known_iff id).mpr ⟨r, Rule.mem_inOrder.mp hr⟩
  obtain ⟨set, hset⟩ := Option.isSome_iff_exists.mp hsome
  have hrules := h.stored_rules id
  rw [stored, hset] at hrules
  refine ⟨set, ?_, hrules⟩
  rw [ruleSet, hset]

theorem candidates_eq (h : engine.Holds rules) (id : String) :
    engine.candidates id =
      if (Rule.inOrder id rules).isEmpty then .error (.unknownRule id)
      else .ok (Rule.inOrder id rules) := by
  by_cases hid : Rule.inOrder id rules = []
  · rw [candidates_of_error (h.ruleSet_of_unknown hid), hid]
    rfl
  · obtain ⟨set, hset, hrules⟩ := h.ruleSet_of_known hid
    rw [candidates_of_ok hset, hrules, if_neg (by rwa [List.isEmpty_iff])]

/-- The execution of a known id is the resolution of its rules in order. -/
theorem execute_eq (h : engine.Holds rules) (hid : Rule.inOrder id rules ≠ []) (w : World) :
    engine.execute host ctx id w =
      (RuleSet.firstMatch host ctx (Rule.inOrder id rules) w).map Outcome.ofOption := by
  obtain ⟨set, hset, hrules⟩ := h.ruleSet_of_known hid
  rw [execute_of_ok hset, Eval.bind_pure_apply, RuleSet.resolve, hrules]

theorem execute_unknown_iff (h : engine.Holds rules) (w : World) :
    (engine.execute host ctx id w).result = .error (.unknownRule id) ↔
      ∀ r ∈ rules, r.id ≠ id := by
  rw [← Rule.inOrder_eq_nil_iff]
  constructor
  · intro hrun
    by_contra hid
    rw [h.execute_eq hid] at hrun
    cases hres : (RuleSet.firstMatch host ctx (Rule.inOrder id rules) w).result with
    | ok value =>
      rw [Run.map_result, hres] at hrun
      cases hrun
    | error e =>
      rw [Run.map_result, hres] at hrun
      cases hrun
      have hclass := (RuleSet.firstMatch_follows _).isConfiguration_eq_false hres
      cases hclass
  · intro hid
    rw [execute_of_error (h.ruleSet_of_unknown hid)]
    rfl

theorem execute_noMatch_iff (h : engine.Holds rules) (hid : Rule.inOrder id rules ≠ [])
    (w : World) :
    (engine.execute host ctx id w).result = .ok .noMatch ↔
      ∃ is w', Passed host ctx (Rule.inOrder id rules) w is w' := by
  rw [h.execute_eq hid, ← RuleSet.firstMatch_eq_none_iff]
  exact Outcome.map_eq_noMatch_iff

theorem execute_of_decided (h : engine.Holds rules) {before after : List Rule} {r : Rule}
    {w w' : World} {is : List Invocation} (hs : Rule.inOrder id rules = before ++ r :: after)
    (hd : Decided host ctx before r w is w') :
    engine.execute host ctx id w =
      ((r.apply host ctx w').preceded is).map Outcome.ofOption := by
  have hid : Rule.inOrder id rules ≠ [] := by
    rw [hs]
    exact List.append_ne_nil_of_right_ne_nil _ (List.cons_ne_nil _ _)
  rw [h.execute_eq hid, hs, RuleSet.firstMatch_of_decided hd]

/-- An id with a fallback always has an answer. -/
theorem execute_ne_noMatch (h : engine.Holds rules) {r : Rule} (hr : r ∈ rules)
    (hfallback : r.isFallback = true) (w : World) :
    (engine.execute host ctx r.id w).result ≠ .ok .noMatch := by
  have hmem : r ∈ Rule.inOrder r.id rules := Rule.mem_inOrder.mpr ⟨hr, rfl⟩
  intro hno
  obtain ⟨is, w', hpassed⟩ := (h.execute_noMatch_iff (List.ne_nil_of_mem hmem) w).mp hno
  obtain ⟨w₁, hpass⟩ := hpassed.of_mem hmem
  exact Rule.apply_ne_none hfallback w₁ hpass

end Engine.Holds

/-! ## Main statement -/

/-- After every history of requests to an engine that is changed in place, the rules accepted are
those submitted less the second fallbacks of an id, and the candidates of an id are the accepted
rules of the id in order. An execution fails with that the id is unknown exactly if there are none.
Otherwise the first candidate that does not pass decides it: by its value or by its failure. There
is no match exactly if all candidates pass, and an accepted fallback never does. Functions are run
only for the candidates up to the deciding one. -/
theorem execution_follows_history (registry : Registry) (world : World)
    (history : List (Request World)) (id : String) :
    let s := Session.start registry world
    let engine := (s.afterInPlace history).engine
    let accepted := s.acceptedInPlace history
    let rules := Rule.inOrder id accepted
    accepted = (history.filterMap Request.rule?).foldl Rule.accept [] ∧
    (engine.candidates id = if rules.isEmpty then .error (.unknownRule id) else .ok rules) ∧
    ∀ (host : Host World) (ctx : Context) (w : World),
      let run := engine.execute host ctx id w
      (run.result = .error (.unknownRule id) ↔ ∀ r ∈ accepted, r.id ≠ id) ∧
      (rules ≠ [] →
        (run.result = .ok .noMatch ↔ ∃ is w', Passed host ctx rules w is w') ∧
        (run.result = .ok .noMatch ∨ ∃ before r after is w',
          rules = before ++ r :: after ∧ Decided host ctx before r w is w')) ∧
      (∀ before r after is w', rules = before ++ r :: after →
        Decided host ctx before r w is w' →
        (∀ v, (r.apply host ctx w').result = .ok (some v) → run.result = .ok (.matched v)) ∧
        (∀ e, (r.apply host ctx w').result = .error e → run.result = .error e) ∧
        run.invocations = is ++ (r.apply host ctx w').invocations ∧
        ∀ i ∈ run.invocations, i.Among ((before ++ [r]).flatMap Rule.calls)) ∧
      ((∃ r ∈ accepted, r.id = id ∧ r.isFallback = true) → run.result ≠ .ok .noMatch) := by
  intro s engine accepted rules
  have hstart : s.engine.Consistent := .start registry
  have h : engine.Holds accepted := Session.holds_acceptedInPlace hstart (.start registry) history
  refine ⟨Session.append_acceptedInPlace hstart (.start registry) history, h.candidates_eq id,
    fun host ctx w => ?_⟩
  intro run
  refine ⟨h.execute_unknown_iff w, fun hid => ?_, ?_, ?_⟩
  · have hiff : run.result = .ok .noMatch ↔ ∃ is w', Passed host ctx rules w is w' :=
      h.execute_noMatch_iff hid w
    refine ⟨hiff, ?_⟩
    rcases passed_or_decided host ctx rules w with hpassed | hdecided
    · exact .inl (hiff.mpr hpassed)
    · exact .inr hdecided
  · intro before r after is w' hs hd
    have hrun : run = _ := h.execute_of_decided hs hd
    have hinvocations : run.invocations = is ++ (r.apply host ctx w').invocations := by
      rw [hrun, Run.map_invocations, Run.preceded_invocations]
    refine ⟨fun v hv => ?_, fun e he => ?_, hinvocations, hinvocations ▸ hd.invocations_among⟩
    · rw [hrun, Run.map_result, Run.preceded_result, hv]
      rfl
    · rw [hrun, Run.map_result, Run.preceded_result, he]
      rfl
  · rintro ⟨r, hr, rfl, hfallback⟩
    exact h.execute_ne_noMatch hr hfallback w

/-- A fallback that was registered first is tried last; it answers when the rule before it passes.
The second fallback was refused. -/
theorem execution_follows_history_to_fallback :
    let text (label : String) : Expr := .constant (.ofDatum (.text label))
    let opened : Condition :=
      ⟨.element ⟨"open", .boolean, by decide⟩, .eq, .constant (.ofDatum (.bool true))⟩
    let gate := Rule.conditioned "door" opened (text "in") 5
    let wall := Rule.fallback "door" (text "out")
    let history : List (Request Unit) :=
      [.addRule wall, .addRule (.fallback "door" (text "off")), .registerFunction .property,
        .addRule gate]
    let engine := ((Session.start ∅ ()).afterInPlace history).engine
    let host := Host.echo fun _ => ⟨.text, .text⟩
    let run := engine.execute host ⟨[("open", .bool false)]⟩ "door" ()
    engine.candidates "door" = .ok [gate, wall] ∧ run.result = .ok (.matched (.text "out")) ∧
      run.result ≠ .ok .noMatch := by
  intro text opened gate wall history engine host run
  have haccepted : (Session.start ∅ ()).acceptedInPlace history = [wall, gate] :=
    Session.acceptedInPlace_eq (.start ∅) history
  have hrules : Rule.inOrder "door" [wall, gate] = [gate, wall] :=
    calc Rule.inOrder "door" [wall, gate]
      _ = insertLast Rule.le gate (Rule.inOrder "door" [wall]) :=
        Rule.inOrder_append_self [wall] gate
      _ = insertLast Rule.le gate (insertLast Rule.le wall (Rule.inOrder "door" [])) :=
        congrArg _ (Rule.inOrder_append_self [] wall)
      _ = [gate, wall] := by
        rw [Rule.inOrder_nil]
        rfl
  have hdecided : Decided host ⟨[("open", .bool false)]⟩ [gate] wall () [] () :=
    ⟨.cons rfl .nil, nofun⟩
  obtain ⟨-, hcandidates, h⟩ := execution_follows_history ∅ () history "door"
  obtain ⟨-, -, hdecides, hfallback⟩ := h host ⟨[("open", .bool false)]⟩ ()
  rw [haccepted] at hcandidates hdecides hfallback
  rw [hrules] at hcandidates hdecides
  exact ⟨hcandidates, (hdecides [gate] wall [] [] () rfl hdecided).1 _ rfl,
    hfallback ⟨wall, List.mem_cons_self, rfl, rfl⟩⟩

end Rulebook
