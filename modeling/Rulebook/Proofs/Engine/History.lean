import Rulebook.Proofs.Resolution.Decision
import Rulebook.Proofs.Resolution.Order

/-! # An engine after a history of requests

Callers add rules, register functions and execute ids, in any order; what is refused changes
nothing. The engine stores the rules of each id apart from those of other ids and keeps every list
in order by numbers that it draws from one counter. `Engine.Holds` links this state to the plain
list of all rules accepted so far: one request keeps it, hence every history does. Which rules are
accepted is decided by what was submitted, through `Rule.accept`.
-/

set_option autoImplicit false

namespace Rulebook

variable {World : Type}

/-! ## Sessions -/

/-- What a caller may ask of an engine. The types and the behaviour of functions may be others at
every execution. -/
inductive Request (World : Type) where
  | addRule (rule : Rule)
  | registerFunction (f : FunctionRef)
  | execute (host : Host World) (ctx : Context) (id : String)

/-- An engine together with the world that functions work in. -/
structure Session (World : Type) where
  engine : Engine
  world : World

def Request.rule? : Request World → Option Rule
  | addRule rule => some rule
  | registerFunction _ => none
  | execute .. => none

namespace Session

/-- A session with an engine that has no rules yet. -/
def start (registry : Registry) (world : World) : Session World :=
  ⟨{ registry }, world⟩

/-- The session after one request. -/
def serve (s : Session World) : Request World → Session World
  | .addRule rule => { s with engine := (s.engine.addRule rule).toOption.getD s.engine }
  | .registerFunction f => { s with engine := (s.engine.registerFunction f).toOption.getD s.engine }
  | .execute host ctx id => { s with world := (s.engine.execute host ctx id s.world).world }

def after (s : Session World) (history : List (Request World)) : Session World :=
  history.foldl serve s

/-- The rule that the engine accepts with a request, if any. -/
def accepts (s : Session World) : Request World → List Rule
  | .addRule rule => if (s.engine.addRule rule).isOk then [rule] else []
  | .registerFunction _ => []
  | .execute .. => []

/-- The rules that the engine accepts during a history, as they were registered. -/
def accepted (s : Session World) : List (Request World) → List Rule
  | [] => []
  | request :: rest => s.accepts request ++ (s.serve request).accepted rest

end Session

/-- Some rules with one more, unless that is a second fallback of its id. -/
def Rule.accept (rules : List Rule) (rule : Rule) : List Rule :=
  if rule.isFallback && rules.any (fun r => r.id == rule.id && r.isFallback) then rules
  else rules ++ [rule]

/-! ## What an engine holds -/

namespace Engine

/-- The rule set under an id; the empty one if nothing is stored there. -/
def stored (engine : Engine) (id : String) : RuleSet :=
  (engine.rules.lookup id).getD ∅

/-- The engine holds exactly these rules, which were registered in this order. -/
structure Holds (engine : Engine) (rules : List Rule) : Prop where
  stored_rules : ∀ id, (engine.stored id).rules = Rule.inOrder id rules
  known_iff : ∀ id, (engine.rules.lookup id).isSome = true ↔ ∃ r ∈ rules, r.id = id
  sequence_lt : ∀ id, ∀ c ∈ (engine.stored id).candidates, c.sequence < engine.nextSequence

variable {engine engine' : Engine} {rules : List Rule} {rule : Rule}

theorem addRule_eq_ok (h : engine.addRule rule = .ok engine') :
    ∃ set, (engine.stored rule.id).insert engine.nextSequence rule = .ok set ∧
      engine' = { engine with
        rules := Keyed.insert rule.id set engine.rules
        nextSequence := engine.nextSequence + 1 } := by
  unfold addRule at h
  cases hi : (engine.stored rule.id).insert engine.nextSequence rule with
  | error e =>
    rw [stored] at hi
    rw [hi] at h
    cases h
  | ok set =>
    rw [stored] at hi
    rw [hi] at h
    cases h
    exact ⟨set, rfl, rfl⟩

theorem addRule_eq_error {e : EvalError} (h : engine.addRule rule = .error e) :
    (rule.isFallback && (engine.stored rule.id).hasFallback) = true ∧
      e = .duplicateFallback rule.id := by
  unfold addRule at h
  cases hi : (engine.stored rule.id).insert engine.nextSequence rule with
  | error e' =>
    rw [stored] at hi
    rw [hi] at h
    cases h
    exact RuleSet.insert_eq_error.mp hi
  | ok set =>
    rw [stored] at hi
    rw [hi] at h
    cases h

theorem registerFunction_eq_ok {f : FunctionRef} (h : engine.registerFunction f = .ok engine') :
    ∃ registry, engine.registry.register f = .ok registry ∧ engine' = { engine with registry } := by
  unfold registerFunction at h
  cases hr : engine.registry.register f with
  | error e =>
    rw [hr] at h
    cases h
  | ok registry =>
    rw [hr] at h
    cases h
    exact ⟨registry, rfl, rfl⟩

namespace Holds

theorem start (registry : Registry) : Holds { registry } [] where
  stored_rules id := (Rule.inOrder_nil id).symm
  known_iff _ := by simp
  sequence_lt _ _ hc := nomatch hc

theorem hasFallback_eq (h : engine.Holds rules) (id : String) :
    (engine.stored id).hasFallback = rules.any fun r => r.id == id && r.isFallback := by
  rw [RuleSet.hasFallback, h.stored_rules, Bool.eq_iff_iff, List.any_eq_true, List.any_eq_true]
  simp only [Rule.mem_inOrder, Bool.and_eq_true, beq_iff_eq, and_assoc]

theorem addRule (h : engine.Holds rules) (hadd : engine.addRule rule = .ok engine') :
    engine'.Holds (rules ++ [rule]) := by
  obtain ⟨set, hset, rfl⟩ := addRule_eq_ok hadd
  -- The entry of the rule's id is the new set, and every other entry is as before.
  have hself := Keyed.lookup_insert_self rule.id set engine.rules
  have hother {id : String} (hid : id ≠ rule.id) := Keyed.lookup_insert_of_ne hid set engine.rules
  refine ⟨fun id => ?_, fun id => ?_, fun id c hc => ?_⟩
  · rw [stored]
    by_cases hid : id = rule.id
    · subst hid
      have hlast : ∀ c ∈ (engine.stored rule.id).candidates, c.sequence ≤ engine.nextSequence :=
        fun c hc => Nat.le_of_lt (h.sequence_lt rule.id c hc)
      rw [hself, Option.getD_some, RuleSet.rules_insert hset hlast, h.stored_rules,
        Rule.inOrder_append_self]
    · rw [hother hid, Rule.inOrder_append_of_ne hid]
      exact h.stored_rules id
  · by_cases hid : id = rule.id
    · subst hid
      rw [hself]
      simp
    · rw [hother hid, h.known_iff]
      simp [Ne.symm hid]
  · rw [stored] at hc
    by_cases hid : id = rule.id
    · subst hid
      obtain ⟨-, rfl⟩ := RuleSet.insert_eq_ok.mp hset
      rw [hself, Option.getD_some, (insertLast_perm _ _).mem_iff] at hc
      rcases List.mem_cons.mp hc with rfl | hc
      · exact Nat.lt_succ_self _
      · exact Nat.lt_succ_of_lt (h.sequence_lt rule.id c hc)
    · rw [hother hid] at hc
      exact Nat.lt_succ_of_lt (h.sequence_lt id c hc)

/-- A rule is accepted unless it is a second fallback of its id. -/
theorem accept_eq (h : engine.Holds rules) (rule : Rule) :
    Rule.accept rules rule = rules ++ if (engine.addRule rule).isOk then [rule] else [] := by
  rw [Rule.accept, ← h.hasFallback_eq rule.id]
  cases hadd : engine.addRule rule with
  | error e =>
    rw [if_pos (addRule_eq_error hadd).1]
    exact (List.append_nil rules).symm
  | ok engine' =>
    obtain ⟨set, hset, -⟩ := addRule_eq_ok hadd
    rw [(RuleSet.insert_eq_ok.mp hset).1]
    rfl

theorem registerFunction {f : FunctionRef} (h : engine.Holds rules)
    (hreg : engine.registerFunction f = .ok engine') : engine'.Holds rules := by
  obtain ⟨registry, -, rfl⟩ := registerFunction_eq_ok hreg
  exact ⟨h.stored_rules, h.known_iff, h.sequence_lt⟩

end Holds

end Engine

/-! ## Histories -/

namespace Session

variable {s : Session World} {rules : List Rule}

/-- One request adds to what the engine holds the rule that it got accepted. -/
theorem holds_serve (h : s.engine.Holds rules) (request : Request World) :
    (s.serve request).engine.Holds (rules ++ s.accepts request) := by
  cases request with
  | addRule rule =>
    cases hadd : s.engine.addRule rule with
    | error e =>
      simp only [serve, accepts, hadd, Except.isOk, Except.toBool, Bool.false_eq_true, if_false,
        List.append_nil]
      exact h
    | ok engine' =>
      simp only [serve, accepts, hadd, Except.isOk, Except.toBool, if_true]
      exact h.addRule hadd
  | registerFunction f =>
    rw [accepts, List.append_nil]
    cases hreg : s.engine.registerFunction f with
    | error e =>
      simp only [serve, hreg]
      exact h
    | ok engine' =>
      simp only [serve, hreg]
      exact h.registerFunction hreg
  | execute host ctx id =>
    rw [accepts, List.append_nil]
    exact h

theorem holds_after (h : s.engine.Holds rules) (history : List (Request World)) :
    (s.after history).engine.Holds (rules ++ s.accepted history) := by
  induction history generalizing s rules with
  | nil =>
    rw [accepted, List.append_nil]
    exact h
  | cons request rest ih =>
    rw [accepted, ← List.append_assoc]
    exact ih (holds_serve h request)

/-- What is accepted is decided by the rules submitted so far alone. -/
theorem append_accepted (h : s.engine.Holds rules) (history : List (Request World)) :
    rules ++ s.accepted history = (history.filterMap Request.rule?).foldl Rule.accept rules := by
  induction history generalizing s rules with
  | nil =>
    rw [accepted, List.append_nil]
    rfl
  | cons request rest ih =>
    rw [accepted, ← List.append_assoc, ih (holds_serve h request)]
    cases request with
    | addRule rule =>
      show _ = (rest.filterMap Request.rule?).foldl Rule.accept (Rule.accept rules rule)
      rw [h.accept_eq rule]
      rfl
    | registerFunction f =>
      rw [accepts, List.append_nil]
      rfl
    | execute host ctx id =>
      rw [accepts, List.append_nil]
      rfl

end Session

end Rulebook
