import Mathlib.Data.List.Sort
import Rulebook.Proofs.Engine.History

/-! # What an engine keeps

An engine stores a rule set for each id and numbers rules across all ids. In every engine that a
caller can have, each id is stored once and the numbers in use are exactly those that the counter
has passed (`Engine.Consistent`). What can be asked about an id is told by its candidates alone
(`Engine.SameUnder.of_candidates`), numbers and the sets of other ids have no part in it.

An addition in place opens the entry of its id before it knows whether the rule is accepted. What is
refused still leaves no trace there, so a history comes to the same engine and the same accepted
rules in place (`Session.afterInPlace_eq`, `Session.acceptedInPlace_eq`).
-/

set_option autoImplicit false

namespace Rulebook

/-! ## Entries under keys -/

namespace Keyed

variable {α β : Type} {entries : List (String × α)} {key : String} {value : α}

theorem insert_insert (key : String) (u v : α) (entries : List (String × α)) :
    insert key v (insert key u entries) = insert key v entries := by
  induction entries with
  | nil => simp [insert]
  | cons e rest ih =>
    simp only [insert]
    split
    · simp [insert]
    · next hlt =>
      split
      · simp [insert]
      · next hne => simp [insert, hlt, hne, ih]

theorem lookup_isSome_iff : (entries.lookup key).isSome = true ↔ key ∈ keys entries := by
  rw [List.lookup_isSome_iff, keys, List.mem_map]
  exact exists_congr fun e => and_congr_right fun _ => beq_iff_eq.trans eq_comm

/-- An insertion puts an entry in the place of the one under its key, if any. -/
theorem insert_eq_splice (h : Ordered entries) (key : String) (value : α) :
    ∃ before after, entries = before ++ ((entries.lookup key).map (key, ·)).toList ++ after ∧
      insert key value entries = before ++ (key, value) :: after := by
  induction entries with
  | nil => exact ⟨[], [], rfl, rfl⟩
  | cons e rest ih =>
    obtain ⟨k, v⟩ := e
    obtain ⟨hk, hrest⟩ := List.pairwise_cons.mp h
    rw [insert]
    split
    · next hlt =>
      have hnone : ((k, v) :: rest).lookup key = none := by
        rw [← Option.not_isSome_iff_eq_none, lookup_isSome_iff]
        intro hmem
        rcases List.mem_cons.mp hmem with rfl | hmem
        · exact String.lt_irrefl _ hlt
        · exact String.lt_irrefl _ (String.lt_trans hlt (hk key hmem))
      rw [hnone]
      exact ⟨[], (k, v) :: rest, rfl, rfl⟩
    · split
      · next heq =>
        subst heq
        rw [List.lookup_cons_self]
        exact ⟨[], rest, rfl, rfl⟩
      · next hne =>
        obtain ⟨before, after, hentries, hinsert⟩ := ih hrest
        have hother : ((k, v) :: rest).lookup key = rest.lookup key := by
          rw [List.lookup_cons, beq_false_of_ne hne]
        rw [hother, hinsert]
        refine ⟨(k, v) :: before, after, ?_, rfl⟩
        rw [List.cons_append, List.cons_append, ← hentries]

theorem insert_of_lookup (h : Ordered entries) (hv : entries.lookup key = some value) :
    insert key value entries = entries := by
  obtain ⟨before, after, hentries, hinsert⟩ := insert_eq_splice h key value
  rw [hinsert, hentries, hv]
  simp

/-- Counted over all entries, an insertion adds what the new value has more than the old one. -/
theorem flatMap_insert_perm (h : Ordered entries) {f : α → List β} {b : β}
    (hb : (f value).Perm (b :: ((entries.lookup key).map f).getD [])) :
    ((insert key value entries).flatMap fun e => f e.2).Perm
      (b :: entries.flatMap fun e => f e.2) := by
  obtain ⟨before, after, hentries, hinsert⟩ := insert_eq_splice h key value
  have hold : (((entries.lookup key).map (key, ·)).toList.flatMap fun e => f e.2) =
      ((entries.lookup key).map f).getD [] := by
    cases entries.lookup key <;> simp
  rw [hinsert, List.flatMap_append, List.flatMap_cons]
  conv_rhs => rw [hentries, List.flatMap_append, List.flatMap_append, hold, List.append_assoc]
  exact ((hb.append_right _).append_left _).trans List.perm_middle

end Keyed

/-- The numbers that candidates were registered under. -/
def RuleSet.numbers (set : RuleSet) : List Nat :=
  set.candidates.map (·.sequence)

theorem RuleSet.numbers_insert {set new : RuleSet} {sequence : Nat} {rule : Rule}
    (h : set.insert sequence rule = .ok new) : new.numbers.Perm (sequence :: set.numbers) := by
  obtain ⟨-, rfl⟩ := RuleSet.insert_eq_ok.mp h
  exact (insertLast_perm _ _).map _

/-! ## What candidates tell -/

namespace Engine

/-- Whatever is asked about the id, both engines give the same answer. -/
structure SameUnder (id : String) (a b : Engine) : Prop where
  candidates_eq : a.candidates id = b.candidates id
  dependencies_eq : a.dependencies id = b.dependencies id
  missingReferences_eq : ∀ ctx, a.missingReferences id ctx = b.missingReferences id ctx
  execute_eq : ∀ {World : Type} (host : Host World) (ctx : Context),
    a.execute host ctx id = b.execute host ctx id

/-- All questions about an id go to its candidates. -/
theorem SameUnder.of_candidates {a b : Engine} {id : String}
    (h : a.candidates id = b.candidates id) : a.SameUnder id b := by
  cases ha : a.ruleSet id with
  | error e =>
    rw [candidates_of_error ha] at h
    cases hb : b.ruleSet id with
    | ok set =>
      rw [candidates_of_ok hb] at h
      cases h
    | error e' =>
      rw [candidates_of_error hb] at h
      cases h
      have hdependencies : a.dependencies id = b.dependencies id := by
        rw [dependencies, dependencies, ha, hb]
      refine ⟨?_, hdependencies, fun ctx => ?_, fun host ctx => ?_⟩
      · rw [candidates_of_error ha, candidates_of_error hb]
      · rw [missingReferences, missingReferences, hdependencies]
      · rw [execute_of_error ha, execute_of_error hb]
  | ok set =>
    rw [candidates_of_ok ha] at h
    cases hb : b.ruleSet id with
    | error e =>
      rw [candidates_of_error hb] at h
      cases h
    | ok set' =>
      rw [candidates_of_ok hb, Except.ok.injEq] at h
      have hdependencies : a.dependencies id = b.dependencies id := by
        rw [dependencies_of_ok ha, dependencies_of_ok hb, RuleSet.references, h, RuleSet.references]
      refine ⟨?_, hdependencies, fun ctx => ?_, fun host ctx => ?_⟩
      · rw [candidates_of_ok ha, candidates_of_ok hb, h]
      · rw [missingReferences, missingReferences, hdependencies]
      · rw [execute_of_ok ha, execute_of_ok hb, RuleSet.resolve, h, RuleSet.resolve]

/-! ## Consistent engines -/

/-- The numbers of all candidates, of all ids. -/
def numbers (engine : Engine) : List Nat :=
  engine.rules.flatMap fun e => e.2.numbers

/-- Ids are stored once each, in order, and the numbers in use are those that the counter has
passed. -/
structure Consistent (engine : Engine) : Prop where
  ordered : Keyed.Ordered engine.rules
  numbers_perm : engine.numbers.Perm (List.range engine.nextSequence)

variable {engine left : Engine} {rule : Rule} {e : EvalError}

namespace Consistent

theorem start (registry : Registry) : Consistent { registry } where
  ordered := List.Pairwise.nil
  numbers_perm := .refl _

theorem addRule (h : engine.Consistent) (hadd : engine.addRule rule = .ok left) :
    left.Consistent := by
  obtain ⟨set, hset, rfl⟩ := addRule_eq_ok hadd
  refine ⟨Keyed.ordered_insert h.ordered rule.id set, ?_⟩
  have hold : (engine.stored rule.id).numbers =
      ((engine.rules.lookup rule.id).map RuleSet.numbers).getD [] := by
    rw [stored]
    cases engine.rules.lookup rule.id <;> rfl
  have hnew := RuleSet.numbers_insert hset
  rw [hold] at hnew
  refine (Keyed.flatMap_insert_perm h.ordered hnew).trans ?_
  rw [List.range_succ]
  exact (h.numbers_perm.cons _).trans (List.perm_append_singleton _ _).symm

theorem registerFunction {f : FunctionRef} (h : engine.Consistent)
    (hreg : engine.registerFunction f = .ok left) : left.Consistent := by
  obtain ⟨registry, -, rfl⟩ := registerFunction_eq_ok hreg
  exact ⟨h.ordered, h.numbers_perm⟩

theorem nodup_numbers (h : engine.Consistent) : engine.numbers.Nodup :=
  h.numbers_perm.nodup_iff.mpr List.nodup_range

theorem number_lt (h : engine.Consistent) {n : Nat} (hn : n ∈ engine.numbers) :
    n < engine.nextSequence :=
  List.mem_range.mp (h.numbers_perm.mem_iff.mp hn)

end Consistent

theorem Holds.mem_ruleIds_iff {rules : List Rule} {id : String} (h : engine.Holds rules) :
    id ∈ engine.ruleIds ↔ ∃ r ∈ rules, r.id = id :=
  Keyed.lookup_isSome_iff.symm.trans (h.known_iff id)

/-! ## Additions in place -/

theorem addRuleInPlace_of_ok (h : engine.addRule rule = .ok left) :
    engine.addRuleInPlace rule = (.ok (), left) := by
  obtain ⟨set, hset, rfl⟩ := addRule_eq_ok h
  rw [stored] at hset
  simp only [addRuleInPlace, hset, Keyed.insert_insert]

/-- The entry that is opened for a refused rule was there before, for it holds a fallback. -/
theorem addRuleInPlace_of_error (hordered : Keyed.Ordered engine.rules)
    (h : engine.addRule rule = .error e) : engine.addRuleInPlace rule = (.error e, engine) := by
  obtain ⟨hsecond, rfl⟩ := addRule_eq_error h
  have hset : (engine.stored rule.id).insert engine.nextSequence rule =
      .error (.duplicateFallback rule.id) := RuleSet.insert_eq_error.mpr ⟨hsecond, rfl⟩
  cases hlookup : engine.rules.lookup rule.id with
  | none =>
    rw [stored, hlookup, Bool.and_eq_true] at hsecond
    cases hsecond.2
  | some set =>
    rw [stored, hlookup, Option.getD_some] at hset
    simp only [addRuleInPlace, hlookup, hset, Option.getD_some,
      Keyed.insert_of_lookup hordered hlookup]

/-- An addition in place is refused where `addRule` is, and then leaves the engine as it was. -/
theorem addRuleInPlace_eq (hordered : Keyed.Ordered engine.rules) (rule : Rule) :
    engine.addRuleInPlace rule =
      ((engine.addRule rule).map fun _ => (), (engine.addRule rule).toOption.getD engine) := by
  cases hadd : engine.addRule rule with
  | error e => exact addRuleInPlace_of_error hordered hadd
  | ok left => exact addRuleInPlace_of_ok hadd

end Engine

/-! ## Sessions -/

namespace Session

variable {World : Type} {s : Session World}

/-- The session after one request to an engine that is changed in place. -/
def serveInPlace (s : Session World) : Request World → Session World
  | .addRule rule => { s with engine := (s.engine.addRuleInPlace rule).2 }
  | .registerFunction f => s.serve (.registerFunction f)
  | .execute host ctx id => s.serve (.execute host ctx id)

def afterInPlace (s : Session World) (history : List (Request World)) : Session World :=
  history.foldl serveInPlace s

/-- The rule that an engine which is changed in place accepts with a request, if any. -/
def acceptsInPlace (s : Session World) : Request World → List Rule
  | .addRule rule => if (s.engine.addRuleInPlace rule).1.isOk then [rule] else []
  | .registerFunction _ => []
  | .execute .. => []

/-- The rules that it accepts during a history, as they were registered. -/
def acceptedInPlace (s : Session World) : List (Request World) → List Rule
  | [] => []
  | request :: rest => s.acceptsInPlace request ++ (s.serveInPlace request).acceptedInPlace rest

/-- A request changes the engine only by a rule or a function that it accepts. -/
theorem engine_serve (s : Session World) (request : Request World) :
    (s.serve request).engine = s.engine ∨
      (∃ rule, request = .addRule rule ∧
        s.engine.addRule rule = .ok (s.serve request).engine) ∨
      ∃ f, request = .registerFunction f ∧
        s.engine.registerFunction f = .ok (s.serve request).engine := by
  cases request with
  | addRule rule =>
    rw [serve]
    cases hadd : s.engine.addRule rule with
    | error e => exact .inl rfl
    | ok left => exact .inr (.inl ⟨rule, rfl, hadd⟩)
  | registerFunction f =>
    rw [serve]
    cases hreg : s.engine.registerFunction f with
    | error e => exact .inl rfl
    | ok left => exact .inr (.inr ⟨f, rfl, hreg⟩)
  | execute host ctx id => exact .inl rfl

theorem consistent_serve (h : s.engine.Consistent) (request : Request World) :
    (s.serve request).engine.Consistent := by
  rcases s.engine_serve request with hsame | ⟨rule, -, hadd⟩ | ⟨f, -, hreg⟩
  · rwa [hsame]
  · exact h.addRule hadd
  · exact h.registerFunction hreg

theorem consistent_after (h : s.engine.Consistent) (history : List (Request World)) :
    (s.after history).engine.Consistent := by
  induction history generalizing s with
  | nil => exact h
  | cons request rest ih => exact ih (consistent_serve h request)

/-- What is refused leaves no trace in place either. -/
theorem serveInPlace_eq (h : s.engine.Consistent) (request : Request World) :
    s.serveInPlace request = s.serve request := by
  cases request with
  | addRule rule => rw [serveInPlace, Engine.addRuleInPlace_eq h.ordered, serve]
  | registerFunction f => rfl
  | execute host ctx id => rfl

theorem afterInPlace_eq (h : s.engine.Consistent) (history : List (Request World)) :
    s.afterInPlace history = s.after history := by
  induction history generalizing s with
  | nil => rfl
  | cons request rest ih =>
    show (s.serveInPlace request).afterInPlace rest = (s.serve request).after rest
    rw [serveInPlace_eq h, ih (consistent_serve h request)]

theorem consistent_afterInPlace (h : s.engine.Consistent) (history : List (Request World)) :
    (s.afterInPlace history).engine.Consistent := by
  rw [afterInPlace_eq h]
  exact consistent_after h history

theorem acceptsInPlace_eq (h : s.engine.Consistent) (request : Request World) :
    s.acceptsInPlace request = s.accepts request := by
  cases request with
  | addRule rule =>
    rw [acceptsInPlace, Engine.addRuleInPlace_eq h.ordered, accepts]
    cases s.engine.addRule rule <;> rfl
  | registerFunction f => rfl
  | execute host ctx id => rfl

theorem acceptedInPlace_eq (h : s.engine.Consistent) (history : List (Request World)) :
    s.acceptedInPlace history = s.accepted history := by
  induction history generalizing s with
  | nil => rfl
  | cons request rest ih =>
    rw [acceptedInPlace, accepted, acceptsInPlace_eq h, serveInPlace_eq h,
      ih (consistent_serve h request)]

variable {rules : List Rule}

theorem append_acceptedInPlace (h : s.engine.Consistent) (hholds : s.engine.Holds rules)
    (history : List (Request World)) :
    rules ++ s.acceptedInPlace history =
      (history.filterMap Request.rule?).foldl Rule.accept rules := by
  rw [acceptedInPlace_eq h, append_accepted hholds]

theorem holds_acceptedInPlace (h : s.engine.Consistent) (hholds : s.engine.Holds rules)
    (history : List (Request World)) :
    (s.afterInPlace history).engine.Holds (rules ++ s.acceptedInPlace history) := by
  rw [afterInPlace_eq h, acceptedInPlace_eq h]
  exact holds_after hholds history

theorem holds_afterInPlace (h : s.engine.Consistent) (hholds : s.engine.Holds rules)
    (history : List (Request World)) :
    (s.afterInPlace history).engine.Holds
      ((history.filterMap Request.rule?).foldl Rule.accept rules) := by
  rw [← append_acceptedInPlace h hholds]
  exact holds_acceptedInPlace h hholds history

end Session

end Rulebook
