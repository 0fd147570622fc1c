import Mathlib.Data.Prod.Lex
import Rulebook.Proofs.Resolution.Bisection
import Rulebook.Proofs.Resolution.Order

/-! # Insertions into a rule set

Rules may be inserted under any sequence numbers, also repeated or descending ones. The candidates
are then the stable sort, by `Candidate.key`, of the insertions that were accepted
(`RuleSet.Represents`): one insertion keeps this, hence every run of insertions does. A fallback has
the greatest key component by component, so the only one that is accepted stands last.
-/

set_option autoImplicit false

namespace Rulebook

/-! ## Keys -/

/-- What candidates are sorted by: weight, then conditions before fallbacks, then sequence. -/
def Candidate.key (c : Candidate) : Int ×ₗ Bool ×ₗ Nat :=
  toLex (c.rule.weight.toInt, toLex (c.rule.isFallback, c.sequence))

namespace Candidate

theorem key_le_iff {a b : Candidate} :
    a.key ≤ b.key ↔ a.rule.weight.toInt < b.rule.weight.toInt ∨
      a.rule.weight.toInt = b.rule.weight.toInt ∧
        (a.rule.isFallback < b.rule.isFallback ∨
          a.rule.isFallback = b.rule.isFallback ∧ a.sequence ≤ b.sequence) := by
  rw [key, key, Prod.Lex.toLex_le_toLex, Prod.Lex.toLex_le_toLex]

theorem le_iff_key {a b : Candidate} : a.le b = true ↔ a.key ≤ b.key := by
  rw [key_le_iff]
  simp only [le, Bool.or_eq_true, Bool.and_eq_true, decide_eq_true_eq, beq_iff_eq,
    Int32.lt_iff_toInt_lt, ← Int32.toInt_inj]

theorem le_trans (a b c : Candidate) (hab : a.le b = true) (hbc : b.le c = true) :
    a.le c = true := by
  rw [le_iff_key] at *
  exact hab.trans hbc

theorem le_total (a b : Candidate) : (a.le b || b.le a) = true := by
  rw [Bool.or_eq_true, le_iff_key, le_iff_key]
  exact LinearOrder.le_total a.key b.key

/-- Candidates are tied when they have the same key. -/
theorem tied_iff {a b : Candidate} : tied le a b = true ↔ b.key = a.key := by
  rw [tied, Bool.and_eq_true, le_iff_key, le_iff_key]
  exact ⟨fun h => le_antisymm h.2 h.1, fun h => ⟨h.ge, h.le⟩⟩

end Candidate

/-! ## Rules that can be built -/

/-- A rule that `conditioned` or `fallback` returns. -/
inductive Rule.Constructed : Rule → Prop where
  | conditioned (id : String) (condition : Condition) (action : Expr) (weight : Int32) :
      Constructed (.conditioned id condition action weight)
  | fallback (id : String) (action : Expr) : Constructed (.fallback id action)

theorem Rule.Constructed.weight_le {r : Rule} (h : r.Constructed) (hr : r.isFallback = true)
    (w : Int32) : w.toInt ≤ r.weight.toInt := by
  cases h with
  | conditioned => cases hr
  | fallback => exact Int32.toInt_le w

/-- Nothing but a fallback can come after a fallback. -/
theorem Candidate.isFallback_of_le {a b : Candidate} (ha : a.rule.Constructed)
    (hf : a.rule.isFallback = true) (hab : a.key ≤ b.key) : b.rule.isFallback = true := by
  have hweight : b.rule.weight.toInt ≤ a.rule.weight.toInt := ha.weight_le hf b.rule.weight
  rw [key_le_iff, hf] at hab
  rcases hab with hlt | ⟨-, hlt | ⟨heq, -⟩⟩
  · omega
  · exact absurd (Bool.lt_iff.mp hlt).1 (by decide)
  · exact heq.symm

/-! ## Runs of insertions -/

namespace RuleSet

/-- The set after an insertion; one that is refused leaves it as it was. -/
def offer (set : RuleSet) (c : Candidate) : RuleSet :=
  (set.insert c.sequence c.rule).toOption.getD set

/-- The set after a run of insertions into the empty set. -/
def ofInsertions (insertions : List Candidate) : RuleSet :=
  insertions.foldl offer ∅

/-- The insertions of a run that a set accepts. -/
def accepted (set : RuleSet) : List Candidate → List Candidate
  | [] => []
  | c :: rest =>
    (if (set.insert c.sequence c.rule).isOk then [c] else []) ++ (set.offer c).accepted rest

/-- The candidates are these insertions in order, and at most one of them is a fallback. -/
structure Represents (set : RuleSet) (insertions : List Candidate) : Prop where
  candidates_eq : set.candidates = insertions.mergeSort Candidate.le
  fallbacks_le : insertions.countP (·.rule.isFallback) ≤ 1

variable {set new : RuleSet} {insertions : List Candidate} {c : Candidate} {e : EvalError}

namespace Represents

theorem pairwise (h : set.Represents insertions) :
    set.candidates.Pairwise (Candidate.le · · = true) := by
  rw [h.candidates_eq]
  exact List.pairwise_mergeSort Candidate.le_trans Candidate.le_total insertions

theorem perm (h : set.Represents insertions) : set.candidates.Perm insertions := by
  rw [h.candidates_eq]
  exact List.mergeSort_perm insertions Candidate.le

theorem filter_key (h : set.Represents insertions) (c : Candidate) :
    set.candidates.filter (·.key = c.key) = insertions.filter (·.key = c.key) := by
  have htied : (fun b : Candidate => decide (b.key = c.key)) = tied Candidate.le c := by
    funext b
    rw [Bool.eq_iff_iff, decide_eq_true_eq, Candidate.tied_iff]
  rw [htied, h.candidates_eq, filter_mergeSort Candidate.le_trans Candidate.le_total]

theorem hasFallback_iff (h : set.Represents insertions) :
    set.hasFallback = true ↔ ∃ c ∈ insertions, c.rule.isFallback = true := by
  rw [hasFallback, rules, List.any_map, List.any_eq_true]
  exact exists_congr fun c => and_congr_left fun _ => h.perm.mem_iff

theorem countP_isFallback_le (h : set.Represents insertions) :
    set.candidates.countP (·.rule.isFallback) ≤ 1 := by
  rw [h.perm.countP_eq]
  exact h.fallbacks_le

/-- Nothing stands behind a fallback. -/
theorem eq_nil_of_isFallback (h : set.Represents insertions)
    (hrules : ∀ c ∈ insertions, c.rule.Constructed) {before after : List Candidate}
    (hs : set.candidates = before ++ c :: after) (hc : c.rule.isFallback = true) : after = [] := by
  have hmem : c ∈ insertions := by
    rw [← h.perm.mem_iff, hs]
    exact List.mem_append_right _ List.mem_cons_self
  have hsorted := h.pairwise
  have hcount := h.countP_isFallback_le
  rw [hs, List.pairwise_append, List.pairwise_cons] at hsorted
  rw [hs, List.countP_append, List.countP_cons, if_pos hc] at hcount
  have hafter : after.countP (·.rule.isFallback) = 0 := by omega
  rw [List.countP_eq_zero] at hafter
  rw [List.eq_nil_iff_forall_not_mem]
  intro a ha
  have hle : c.key ≤ a.key := Candidate.le_iff_key.mp (hsorted.2.1.1 a ha)
  exact hafter a ha (Candidate.isFallback_of_le (hrules c hmem) hc hle)

protected theorem empty : Represents ∅ [] where
  candidates_eq := List.mergeSort_nil.symm
  fallbacks_le := Nat.zero_le _

theorem insert (h : set.Represents insertions) (hi : set.insert c.sequence c.rule = .ok new) :
    new.Represents (insertions ++ [c]) := by
  obtain ⟨hfree, rfl⟩ := insert_eq_ok.mp hi
  refine ⟨?_, ?_⟩
  · rw [h.candidates_eq]
    exact insertLast_mergeSort Candidate.le_trans Candidate.le_total c insertions
  · rw [List.countP_append, List.countP_singleton]
    cases hc : c.rule.isFallback with
    | false => exact h.fallbacks_le
    | true =>
      -- A fallback is let in only if there is none.
      rw [hc, Bool.true_and] at hfree
      have hnone : insertions.countP (·.rule.isFallback) = 0 := by
        rw [List.countP_eq_zero]
        intro b hb hbf
        have hhas : set.hasFallback = true := h.hasFallback_iff.mpr ⟨b, hb, hbf⟩
        rw [hfree] at hhas
        cases hhas
      rw [hnone, if_pos rfl]

theorem offer (h : set.Represents insertions) (c : Candidate) :
    (set.offer c).Represents
      (insertions ++ if (set.insert c.sequence c.rule).isOk then [c] else []) := by
  rw [RuleSet.offer]
  cases hi : set.insert c.sequence c.rule with
  | error e =>
    have hkept : insertions ++ [] = insertions := List.append_nil insertions
    exact hkept.symm ▸ h
  | ok new => exact h.insert hi

theorem foldl_offer (h : set.Represents insertions) (run : List Candidate) :
    (run.foldl RuleSet.offer set).Represents (insertions ++ set.accepted run) := by
  induction run generalizing set insertions with
  | nil =>
    rw [accepted, List.append_nil]
    exact h
  | cons c rest ih =>
    rw [accepted, ← List.append_assoc]
    exact ih (h.offer c)

theorem insert_eq_error_iff (h : set.Represents insertions) :
    set.insert c.sequence c.rule = .error e ↔
      c.rule.isFallback = true ∧ (∃ b ∈ insertions, b.rule.isFallback = true) ∧
        e = .duplicateFallback c.rule.id := by
  rw [insert_eq_error, Bool.and_eq_true, h.hasFallback_iff, and_assoc]

/-- The place that an insertion goes to can be found by halving. -/
theorem insert_eq_insertIdx (h : set.Represents insertions)
    (hi : set.insert c.sequence c.rule = .ok new) :
    new.candidates =
      set.candidates.insertIdx (partitionPoint (·.key ≤ c.key) set.candidates) c := by
  obtain ⟨-, rfl⟩ := insert_eq_ok.mp hi
  have hkey : (fun b : Candidate => decide (b.key ≤ c.key)) = (Candidate.le · c) := by
    funext b
    rw [Bool.eq_iff_iff, decide_eq_true_eq, Candidate.le_iff_key]
  rw [hkey]
  exact insertLast_eq_insertIdx Candidate.le_trans h.pairwise c

end Represents

theorem accepted_sublist (set : RuleSet) (run : List Candidate) :
    (set.accepted run).Sublist run := by
  induction run generalizing set with
  | nil => exact List.Sublist.slnil
  | cons c rest ih =>
    rw [accepted]
    split
    · exact (ih (set.offer c)).cons_cons c
    · exact (ih (set.offer c)).cons c

theorem represents_ofInsertions (run : List Candidate) :
    (ofInsertions run).Represents (accepted ∅ run) :=
  Represents.empty.foldl_offer run

theorem ofInsertions_append (run : List Candidate) (c : Candidate) :
    ofInsertions (run ++ [c]) = (ofInsertions run).offer c := by
  rw [ofInsertions, List.foldl_append]
  rfl

end RuleSet

/-! ## Main statement -/

/-- After every run of insertions into the empty set, under any sequence numbers: the candidates are
the accepted insertions, sorted by key, those of one key as they were inserted. At most one of them
is a fallback, and among rules that can be built it stands last. One more insertion is refused
exactly if its rule is a fallback and one was accepted before, and then changes nothing; otherwise
its place can be found by halving. -/
theorem insertions_keep_order (run : List Candidate) :
    let set := RuleSet.ofInsertions run
    let accepted := RuleSet.accepted ∅ run
    set.candidates.Pairwise (·.key ≤ ·.key) ∧
    (∀ c : Candidate,
      set.candidates.filter (·.key = c.key) = accepted.filter (·.key = c.key)) ∧
    set.candidates.Perm accepted ∧
    set.candidates.countP (·.rule.isFallback) ≤ 1 ∧
    ((∀ c ∈ run, c.rule.Constructed) → ∀ before c after, set.candidates = before ++ c :: after →
      c.rule.isFallback = true → after = []) ∧
    ∀ c : Candidate,
      (∀ e, set.insert c.sequence c.rule = .error e ↔
        c.rule.isFallback = true ∧ (∃ b ∈ accepted, b.rule.isFallback = true) ∧
          e = .duplicateFallback c.rule.id) ∧
      (∀ e, set.insert c.sequence c.rule = .error e → RuleSet.ofInsertions (run ++ [c]) = set) ∧
      ∀ new, set.insert c.sequence c.rule = .ok new →
        RuleSet.ofInsertions (run ++ [c]) = new ∧ new.candidates =
          set.candidates.insertIdx (partitionPoint (·.key ≤ c.key) set.candidates) c := by
  intro set accepted
  have h : set.Represents accepted := RuleSet.represents_ofInsertions run
  refine ⟨h.pairwise.imp Candidate.le_iff_key.mp, h.filter_key, h.perm, h.countP_isFallback_le,
    fun hrules before c after hs hc => ?_,
    fun c => ⟨fun e => h.insert_eq_error_iff, fun e he => ?_, fun new hnew => ⟨?_, ?_⟩⟩⟩
  · have hsub := RuleSet.accepted_sublist ∅ run
    exact h.eq_nil_of_isFallback (fun b hb => hrules b (hsub.subset hb)) hs hc
  · rw [RuleSet.ofInsertions_append, RuleSet.offer, he]
    rfl
  · rw [RuleSet.ofInsertions_append, RuleSet.offer, hnew]
    rfl
  · exact h.insert_eq_insertIdx hnew

/-- Conditions of the greatest weight go before a fallback that was inserted first, and among
themselves by sequence. The second fallback is refused. -/
theorem insertions_keep_order_fallback_first :
    let text (label : String) : Expr := .constant (.ofDatum (.text label))
    let opened : Condition :=
      ⟨.element ⟨"open", .boolean, by decide⟩, .eq, .constant (.ofDatum (.bool true))⟩
    let wall : Candidate := ⟨7, .fallback "door" (text "out")⟩
    let gate : Candidate := ⟨9, .conditioned "door" opened (text "in") Rule.fallbackWeight⟩
    let stairs : Candidate := ⟨2, .conditioned "door" opened (text "up") Rule.fallbackWeight⟩
    let second : Candidate := ⟨0, .fallback "door" (text "off")⟩
    let set := RuleSet.ofInsertions [wall, gate, stairs]
    set.candidates.map (·.sequence) = [2, 9, 7] ∧
      (∀ before c after, set.candidates = before ++ c :: after → c.rule.isFallback = true →
        after = []) ∧
      set.insert second.sequence second.rule = .error (.duplicateFallback "door") ∧
      RuleSet.ofInsertions [wall, gate, stairs, second] = set := by
  intro text opened wall gate stairs second set
  have hrules : ∀ c ∈ [wall, gate, stairs], c.rule.Constructed := by
    simp only [List.forall_mem_cons]
    exact ⟨.fallback .., .conditioned .., .conditioned .., List.forall_mem_nil _⟩
  have hset : set.candidates.map (·.sequence) = [2, 9, 7] := by decide
  obtain ⟨-, -, -, -, hlast, hnext⟩ := insertions_keep_order [wall, gate, stairs]
  obtain ⟨herror, hkept, -⟩ := hnext second
  have hrefused : set.insert second.sequence second.rule = .error (.duplicateFallback "door") :=
    (herror _).mpr ⟨rfl, ⟨wall, List.mem_cons_self, rfl⟩, rfl⟩
  exact ⟨hset, hlast hrules, hrefused, hkept _ hrefused⟩

end Rulebook
