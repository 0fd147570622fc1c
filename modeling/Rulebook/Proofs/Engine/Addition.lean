import Rulebook.Proofs.Engine.Execution

/-! # Additions to an engine

In an engine that a caller can have, an addition is all or nothing. A refused rule leaves the engine
as it was, although the entry of its id is opened before the rule is looked at: a rule is refused
only for a fallback that is there already. An accepted rule goes between the candidates of its id,
and other ids do not notice it.
-/

set_option autoImplicit false

namespace Rulebook

variable {World : Type}

namespace Engine

variable {engine left : Engine} {rules : List Rule} {rule : Rule} {id : String} {e : EvalError}

theorem candidates_getD (engine : Engine) (id : String) :
    (engine.candidates id).toOption.getD [] = (engine.stored id).rules := by
  rw [candidates, ruleSet, stored]
  cases engine.rules.lookup id with
  | none => rfl
  | some set => rfl

theorem addRule_eq_error_iff :
    engine.addRule rule = .error e ↔
      rule.isFallback = true ∧ (∃ r ∈ (engine.stored rule.id).rules, r.isFallback = true) ∧
        e = .duplicateFallback rule.id := by
  rw [← List.any_eq_true, ← and_assoc, ← Bool.and_eq_true]
  constructor
  · exact addRule_eq_error
  · rintro ⟨hsecond, rfl⟩
    cases hadd : engine.addRule rule with
    | error e => rw [(addRule_eq_error hadd).2]
    | ok left =>
      obtain ⟨set, hset, -⟩ := addRule_eq_ok hadd
      have hfree := (RuleSet.insert_eq_ok.mp hset).1
      rw [RuleSet.hasFallback, hsecond] at hfree
      cases hfree

theorem registry_of_addRule (hadd : engine.addRule rule = .ok left) :
    left.registry = engine.registry := by
  obtain ⟨set, -, rfl⟩ := addRule_eq_ok hadd
  rfl

/-- What is stored under another id is not touched. -/
theorem sameUnder_of_addRule (hadd : engine.addRule rule = .ok left) (hid : id ≠ rule.id) :
    engine.SameUnder id left := by
  obtain ⟨set, -, rfl⟩ := addRule_eq_ok hadd
  apply SameUnder.of_candidates
  rw [candidates, candidates, ruleSet, ruleSet, Keyed.lookup_insert_of_ne hid]

theorem addRuleInPlace_eq_error_iff (hordered : Keyed.Ordered engine.rules) :
    (engine.addRuleInPlace rule).1 = .error e ↔ engine.addRule rule = .error e := by
  rw [addRuleInPlace_eq hordered]
  cases engine.addRule rule <;> simp [Except.map]

theorem addRule_of_addRuleInPlace (hordered : Keyed.Ordered engine.rules)
    (h : (engine.addRuleInPlace rule).1 = .ok ()) :
    engine.addRule rule = .ok (engine.addRuleInPlace rule).2 := by
  rw [addRuleInPlace_eq hordered] at h ⊢
  cases hadd : engine.addRule rule with
  | error e =>
    rw [hadd] at h
    cases h
  | ok left => rfl

namespace Holds

theorem candidates_eq_ok (h : engine.Holds rules) (hid : id ∈ engine.ruleIds) :
    ∃ r rest, engine.candidates id = .ok (r :: rest) := by
  obtain ⟨r, hr⟩ := h.mem_ruleIds_iff.mp hid
  have hne : Rule.inOrder id rules ≠ [] := List.ne_nil_of_mem (Rule.mem_inOrder.mpr hr)
  obtain ⟨first, rest, hfirst⟩ := List.exists_cons_of_ne_nil hne
  refine ⟨first, rest, ?_⟩
  rw [h.candidates_eq, hfirst]
  rfl

theorem id_eq_of_candidates (h : engine.Holds rules) {found : List Rule}
    (hfound : engine.candidates id = .ok found) {r : Rule} (hr : r ∈ found) : r.id = id := by
  rw [h.candidates_eq] at hfound
  split at hfound
  · cases hfound
  · cases hfound
    exact (Rule.mem_inOrder.mp hr).2

/-- An accepted rule goes behind the candidates that may be tried before it. -/
theorem candidates_addRule (h : engine.Holds rules) (hadd : engine.addRule rule = .ok left) :
    left.candidates rule.id = .ok (insertLast Rule.le rule (engine.stored rule.id).rules) := by
  obtain ⟨set, hset, rfl⟩ := addRule_eq_ok hadd
  have hlast : ∀ c ∈ (engine.stored rule.id).candidates, c.sequence ≤ engine.nextSequence :=
    fun c hc => Nat.le_of_lt (h.sequence_lt rule.id c hc)
  rw [← RuleSet.rules_insert hset hlast, candidates, ruleSet, Keyed.lookup_insert_self]
  rfl

end Holds

end Engine

namespace Session

/-- The counter goes up with additions only. -/
theorem nextSequence_serve_le (s : Session World) (request : Request World) :
    (s.serve request).engine.nextSequence ≤
      s.engine.nextSequence + request.rule?.toList.length := by
  rcases s.engine_serve request with hsame | ⟨rule, rfl, hadd⟩ | ⟨f, rfl, hreg⟩
  · rw [hsame]
    exact Nat.le_add_right _ _
  · obtain ⟨set, -, hleft⟩ := Engine.addRule_eq_ok hadd
    rw [hleft]
    exact Nat.le_refl _
  · obtain ⟨registry, -, hleft⟩ := Engine.registerFunction_eq_ok hreg
    rw [hleft]
    exact Nat.le_refl _

theorem nextSequence_after_le (s : Session World) (history : List (Request World)) :
    (s.after history).engine.nextSequence ≤
      s.engine.nextSequence + (history.filterMap Request.rule?).length := by
  induction history generalizing s with
  | nil => exact Nat.le_refl _
  | cons request rest ih =>
    have hfirst := s.nextSequence_serve_le request
    have hrest := ih (s.serve request)
    rw [List.filterMap_cons]
    cases hrule : request.rule? with
    | none =>
      rw [hrule] at hfirst
      exact hrest.trans (Nat.add_le_add_right hfirst _)
    | some rule =>
      rw [hrule, Option.toList_some, List.length_singleton] at hfirst
      rw [List.length_cons]
      exact hrest.trans (by omega)

end Session

/-! ## Main statement -/

/-- After every history of requests to an engine that is changed in place: each id has a candidate,
candidates carry their id, and their numbers are distinct and below the counter, which counts no
more than the additions asked for. An addition fails exactly for a second fallback of its id, and
then nothing is changed. Otherwise its rule is put between the candidates of its id, and functions
and all other ids are as before. -/
theorem addition_is_atomic_and_local (registry : Registry) (world : World)
    (history : List (Request World)) :
    let engine := ((Session.start registry world).afterInPlace history).engine
    (∀ id ∈ engine.ruleIds, ∃ r rest, engine.candidates id = .ok (r :: rest)) ∧
    (∀ id rules, engine.candidates id = .ok rules → ∀ r ∈ rules, r.id = id) ∧
    engine.numbers.Nodup ∧
    (∀ n ∈ engine.numbers, n < engine.nextSequence) ∧
    engine.nextSequence ≤ (history.filterMap Request.rule?).length ∧
    ∀ rule : Rule,
      let previous := (engine.candidates rule.id).toOption.getD []
      let added := engine.addRuleInPlace rule
      (∀ e, added.1 = .error e ↔ rule.isFallback = true ∧
        (∃ r ∈ previous, r.isFallback = true) ∧ e = .duplicateFallback rule.id) ∧
      (∀ e, added.1 = .error e → added.2 = engine) ∧
      (added.1 = .ok () →
        (∃ before after, previous = before ++ after ∧
          added.2.candidates rule.id = .ok (before ++ rule :: after)) ∧
        added.2.registry = engine.registry ∧
        ∀ id, id ≠ rule.id → engine.SameUnder id added.2) := by
  intro engine
  have hstart : (Session.start registry world).engine.Consistent := .start registry
  have hconsistent : engine.Consistent := Session.consistent_afterInPlace hstart history
  have hholds : engine.Holds _ := Session.holds_afterInPlace hstart (.start registry) history
  have hcount := Session.nextSequence_after_le (Session.start registry world) history
  rw [← Session.afterInPlace_eq hstart] at hcount
  refine ⟨fun id => hholds.candidates_eq_ok, fun id rules h r => hholds.id_eq_of_candidates h,
    hconsistent.nodup_numbers, fun n => hconsistent.number_lt, hcount.trans_eq (Nat.zero_add _),
    fun rule => ?_⟩
  intro previous added
  have hprevious : previous = (engine.stored rule.id).rules := engine.candidates_getD rule.id
  have herror (e : EvalError) : added.1 = .error e ↔ engine.addRule rule = .error e :=
    Engine.addRuleInPlace_eq_error_iff hconsistent.ordered
  rw [hprevious]
  refine ⟨fun e => (herror e).trans Engine.addRule_eq_error_iff, fun e he => ?_, fun hok => ?_⟩
  · have hrefused := Engine.addRuleInPlace_of_error hconsistent.ordered ((herror e).mp he)
    exact congrArg Prod.snd hrefused
  · have hadd : engine.addRule rule = .ok added.2 :=
      Engine.addRule_of_addRuleInPlace hconsistent.ordered hok
    exact ⟨⟨_, _, List.takeWhile_append_dropWhile.symm, hholds.candidates_addRule hadd⟩,
      Engine.registry_of_addRule hadd, fun id => Engine.sameUnder_of_addRule hadd⟩

/-- A condition goes before the fallback that was there first. A second fallback is refused and
leaves no trace. -/
theorem addition_is_atomic_and_local_before_fallback :
    let text (label : String) : Expr := .constant (.ofDatum (.text label))
    let opened : Condition :=
      ⟨.element ⟨"open", .boolean, by decide⟩, .eq, .constant (.ofDatum (.bool true))⟩
    let gate := Rule.conditioned "door" opened (text "in") 5
    let wall := Rule.fallback "door" (text "out")
    let second := Rule.fallback "door" (text "off")
    let engine := ((Session.start ∅ ()).afterInPlace [.addRule wall, .addRule second]).engine
    engine.candidates "door" = .ok [wall] ∧
      (engine.addRuleInPlace second).1 = .error (.duplicateFallback "door") ∧
      (engine.addRuleInPlace second).2 = engine ∧
      (engine.addRuleInPlace gate).1 = .ok () ∧
      (engine.addRuleInPlace gate).2.candidates "door" = .ok [gate, wall] ∧
      engine.SameUnder "window" (engine.addRuleInPlace gate).2 := by
  intro text opened gate wall second engine
  have hstart : (Session.start ∅ ()).engine.Consistent := .start ∅
  have hengine : engine = { registry := ∅, rules := [("door", ⟨[⟨0, wall⟩]⟩)], nextSequence := 1 } :=
    congrArg Session.engine (Session.afterInPlace_eq hstart _)
  obtain ⟨-, -, -, -, -, h⟩ := addition_is_atomic_and_local ∅ () [.addRule wall, .addRule second]
  obtain ⟨herror, hkept, -⟩ := h second
  obtain ⟨-, -, hadded⟩ := h gate
  have hcandidates : engine.candidates "door" = .ok [wall] := by
    rw [hengine]
    rfl
  have hwall : wall ∈ (engine.candidates second.id).toOption.getD [] := by
    rw [show engine.candidates second.id = .ok [wall] from hcandidates]
    exact List.mem_cons_self
  have hrefused : (engine.addRuleInPlace second).1 = .error (.duplicateFallback "door") :=
    (herror _).mpr ⟨rfl, ⟨wall, hwall, rfl⟩, rfl⟩
  have hadd : engine.addRule gate = .ok {
      registry := ∅
      rules := Keyed.insert "door" ⟨[⟨1, gate⟩, ⟨0, wall⟩]⟩ [("door", ⟨[⟨0, wall⟩]⟩)]
      nextSequence := 2 } := by
    rw [hengine]
    rfl
  have haccepted : (engine.addRuleInPlace gate).1 = .ok () := by
    rw [Engine.addRuleInPlace_of_ok hadd]
  have hgate : (engine.addRuleInPlace gate).2.candidates "door" = .ok [gate, wall] := by
    rw [Engine.addRuleInPlace_of_ok hadd, Engine.candidates, Engine.ruleSet,
      Keyed.lookup_insert_self]
    rfl
  obtain ⟨-, -, hother⟩ := hadded haccepted
  exact ⟨hcandidates, hrefused, hkept _ hrefused, haccepted, hgate, hother "window" (by decide)⟩

end Rulebook
