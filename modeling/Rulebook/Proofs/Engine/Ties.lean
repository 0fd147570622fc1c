import Rulebook.Proofs.Engine.Execution
import Rulebook.Proofs.Resolution.Insertion

/-! # Registration order

Rules are tied when they have the same id, weight and kind. An engine numbers them in the order in
which they are accepted, and so keeps the order of tied rules; the order in which rules that are not
tied are registered leaves no trace. Two histories whose submitted rules agree tie by tie
(`Rule.SameTies`) thus lead to engines that give the same answers about every id, although the same
rule may have different numbers in the two.
-/

set_option autoImplicit false

namespace Rulebook

/-! ## Ties -/

namespace Rule

/-- Whether a rule stands under this id and key. -/
def under (id : String) (weight : Int32) (fallback : Bool) (r : Rule) : Bool :=
  r.id == id && r.weight == weight && r.isFallback == fallback

/-- Under each id and key, both lists have the same rules in the same order. -/
def SameTies (rules rules' : List Rule) : Prop :=
  ∀ id weight fallback,
    rules.filter (under id weight fallback) = rules'.filter (under id weight fallback)

variable {rules rules' : List Rule} {r s : Rule} {id : String} {weight : Int32} {fallback : Bool}

theorem under_iff :
    under id weight fallback r = true ↔
      r.id = id ∧ r.weight = weight ∧ r.isFallback = fallback := by
  rw [under, Bool.and_eq_true, Bool.and_eq_true, beq_iff_eq, beq_iff_eq, beq_iff_eq, and_assoc]

theorem tied_iff :
    tied le r s = true ↔ s.weight = r.weight ∧ s.isFallback = r.isFallback := by
  rw [tied, Bool.and_eq_true, le_iff, le_iff, ← Int32.toInt_inj]
  cases r.isFallback <;> cases s.isFallback <;> simp <;> omega

/-- Among the rules of an id, those tied to a rule are those of its key. -/
theorem filter_tied (id : String) (r : Rule) (rules : List Rule) :
    (rules.filter (·.id == id)).filter (tied le r) =
      rules.filter (under id r.weight r.isFallback) := by
  rw [List.filter_filter]
  refine congrArg (rules.filter ·) (funext fun s => ?_)
  rw [Bool.eq_iff_iff, Bool.and_eq_true, tied_iff, under_iff, beq_iff_eq, and_comm]

namespace SameTies

theorem trans {rules'' : List Rule} (h : SameTies rules rules') (h' : SameTies rules' rules'') :
    SameTies rules rules'' :=
  fun id weight fallback => (h id weight fallback).trans (h' id weight fallback)

/-- Neighbours that are not tied may be exchanged. -/
theorem exchange (h : under r.id r.weight r.isFallback s = false) (before after : List Rule) :
    SameTies (before ++ r :: s :: after) (before ++ s :: r :: after) := by
  intro id weight fallback
  rw [List.filter_append, List.filter_append]
  congr 1
  by_cases hr : under id weight fallback r = true
  · have hs : ¬under id weight fallback s = true := by
      obtain ⟨rfl, rfl, rfl⟩ := under_iff.mp hr
      rw [h]
      exact Bool.false_ne_true
    rw [List.filter_cons_of_pos hr, List.filter_cons_of_neg hs, List.filter_cons_of_neg hs,
      List.filter_cons_of_pos hr]
  · rw [List.filter_cons_of_neg hr, List.filter_cons, List.filter_cons, List.filter_cons_of_neg hr]

theorem mem_iff (h : SameTies rules rules') : r ∈ rules ↔ r ∈ rules' := by
  have hself : under r.id r.weight r.isFallback r = true := under_iff.mpr ⟨rfl, rfl, rfl⟩
  have hfilter := congrArg (r ∈ ·) (h r.id r.weight r.isFallback)
  rwa [eq_iff_iff, List.mem_filter, List.mem_filter, and_iff_left hself, and_iff_left hself]
    at hfilter

/-- The order of an id is determined by its ties. -/
theorem inOrder_eq (h : SameTies rules rules') (id : String) :
    inOrder id rules = inOrder id rules' := by
  refine eq_of_tied le_total (List.pairwise_mergeSort le_trans le_total _)
    (List.pairwise_mergeSort le_trans le_total _) fun r => ?_
  rw [inOrder, inOrder, filter_mergeSort le_trans le_total, filter_mergeSort le_trans le_total,
    filter_tied, filter_tied]
  exact h id r.weight r.isFallback

end SameTies

/-! ## Ties of accepted rules -/

theorem Constructed.weight_eq (h : r.Constructed) (hr : r.isFallback = true) :
    r.weight = fallbackWeight := by
  cases h with
  | conditioned => cases hr
  | fallback => rfl

theorem constructed_accept (hrules : ∀ s ∈ rules, s.Constructed) (hr : r.Constructed) :
    ∀ s ∈ accept rules r, s.Constructed := by
  rw [accept]
  split
  · exact hrules
  · rw [List.forall_mem_append, List.forall_mem_singleton]
    exact ⟨hrules, hr⟩

/-- Whether a rule is a second fallback can be told from the rules of its own key: the fallbacks of
an id all have the same weight. -/
theorem any_filter_under (hrules : ∀ s ∈ rules, s.Constructed) (hr : r.Constructed)
    (hfallback : r.isFallback = true) (hunder : under id weight fallback r = true) :
    (rules.filter (under id weight fallback)).any (fun s => s.id == r.id && s.isFallback) =
      rules.any fun s => s.id == r.id && s.isFallback := by
  obtain ⟨rfl, rfl, rfl⟩ := under_iff.mp hunder
  rw [Bool.eq_iff_iff, List.any_eq_true, List.any_eq_true]
  refine exists_congr fun s => and_congr_left fun hs => ?_
  rw [List.mem_filter, and_iff_left_iff_imp]
  intro hmem
  rw [Bool.and_eq_true, beq_iff_eq] at hs
  have hweight : s.weight = r.weight :=
    ((hrules s hmem).weight_eq hs.2).trans (hr.weight_eq hfallback).symm
  exact under_iff.mpr ⟨hs.1, hweight, hs.2.trans hfallback.symm⟩

/-- A rule changes only what is accepted under its own id and key, and how it does so is decided
there. -/
theorem filter_accept (hrules : ∀ s ∈ rules, s.Constructed) (hr : r.Constructed) :
    (accept rules r).filter (under id weight fallback) =
      if under id weight fallback r then accept (rules.filter (under id weight fallback)) r
      else rules.filter (under id weight fallback) := by
  split
  · next hunder =>
    rw [accept, accept]
    cases hfallback : r.isFallback with
    | false =>
      rw [Bool.false_and, Bool.false_and, if_neg Bool.false_ne_true, if_neg Bool.false_ne_true,
        List.filter_append, List.filter_cons_of_pos hunder, List.filter_nil]
    | true =>
      rw [any_filter_under hrules hr hfallback hunder]
      split
      · rfl
      · rw [List.filter_append, List.filter_cons_of_pos hunder, List.filter_nil]
  · next hunder =>
    rw [accept]
    split
    · rfl
    · rw [List.filter_append, List.filter_cons_of_neg hunder, List.filter_nil, List.append_nil]

theorem filter_foldl_accept {accepted : List Rule} (haccepted : ∀ s ∈ accepted, s.Constructed)
    (hrules : ∀ s ∈ rules, s.Constructed) :
    (rules.foldl accept accepted).filter (under id weight fallback) =
      (rules.filter (under id weight fallback)).foldl accept
        (accepted.filter (under id weight fallback)) := by
  induction rules generalizing accepted with
  | nil => rfl
  | cons r rest ih =>
    obtain ⟨hr, hrest⟩ := List.forall_mem_cons.mp hrules
    rw [List.foldl_cons, ih (constructed_accept haccepted hr) hrest, filter_accept haccepted hr,
      List.filter_cons]
    split
    · rw [List.foldl_cons]
    · rfl

/-- What is accepted agrees tie by tie as soon as what is submitted does. -/
theorem SameTies.foldl_accept (h : SameTies rules rules') (hrules : ∀ s ∈ rules, s.Constructed) :
    SameTies (rules.foldl accept []) (rules'.foldl accept []) := by
  have hrules' : ∀ s ∈ rules', s.Constructed := fun s hs => hrules s (h.mem_iff.mpr hs)
  have hnil : ∀ s ∈ ([] : List Rule), s.Constructed := List.forall_mem_nil _
  intro id weight fallback
  rw [filter_foldl_accept hnil hrules, filter_foldl_accept hnil hrules', h id weight fallback]

end Rule

/-! ## Engines with the same ties -/

namespace Engine

variable {engine engine' : Engine} {rules rules' : List Rule}

theorem ruleIds_eq_of_sameTies (h : engine.Holds rules) (h' : engine'.Holds rules')
    (hordered : Keyed.Ordered engine.rules) (hordered' : Keyed.Ordered engine'.rules)
    (hties : Rule.SameTies rules rules') : engine.ruleIds = engine'.ruleIds := by
  refine List.Pairwise.eq_of_mem_iff hordered hordered' fun id => ?_
  rw [h.mem_ruleIds_iff, h'.mem_ruleIds_iff]
  exact exists_congr fun r => and_congr_left fun _ => hties.mem_iff

theorem sameUnder_of_sameTies (h : engine.Holds rules) (h' : engine'.Holds rules')
    (hties : Rule.SameTies rules rules') (id : String) : engine.SameUnder id engine' := by
  apply SameUnder.of_candidates
  rw [h.candidates_eq, h'.candidates_eq, hties.inOrder_eq id]

end Engine

/-! ## Main statement -/

/-- Take two histories that submit, under each id and key, the same rules in the same order, and
that are otherwise mixed up in any way, refused fallbacks and requests of other kinds included. The
two engines list the same ids, and whatever is asked about an id has the same answer in both. -/
theorem registration_order_matters_among_ties {World World' : Type} (registry registry' : Registry)
    (world : World) (world' : World') (history : List (Request World))
    (history' : List (Request World'))
    (hrules : ∀ r ∈ history.filterMap Request.rule?, r.Constructed)
    (hties : Rule.SameTies (history.filterMap Request.rule?)
      (history'.filterMap Request.rule?)) :
    let engine := ((Session.start registry world).afterInPlace history).engine
    let engine' := ((Session.start registry' world').afterInPlace history').engine
    engine.ruleIds = engine'.ruleIds ∧ ∀ id, engine.SameUnder id engine' := by
  intro engine engine'
  have hstart : (Session.start registry world).engine.Consistent := .start registry
  have hstart' : (Session.start registry' world').engine.Consistent := .start registry'
  have hconsistent : engine.Consistent := Session.consistent_afterInPlace hstart history
  have hconsistent' : engine'.Consistent := Session.consistent_afterInPlace hstart' history'
  have h : engine.Holds _ := Session.holds_afterInPlace hstart (.start registry) history
  have h' : engine'.Holds _ := Session.holds_afterInPlace hstart' (.start registry') history'
  have haccepted := hties.foldl_accept hrules
  exact ⟨Engine.ruleIds_eq_of_sameTies h h' hconsistent.ordered hconsistent'.ordered haccepted,
    Engine.sameUnder_of_sameTies h h' haccepted⟩

/-- A condition and a rule of another id are moved across fallbacks. The fallback that is refused
stays behind the accepted one. -/
theorem registration_order_matters_among_ties_mixed :
    let text (label : String) : Expr := .constant (.ofDatum (.text label))
    let opened : Condition :=
      ⟨.element ⟨"open", .boolean, by decide⟩, .eq, .constant (.ofDatum (.bool true))⟩
    let gate := Rule.conditioned "door" opened (text "in") 5
    let pane := Rule.conditioned "window" opened (text "air") 5
    let wall := Rule.fallback "door" (text "out")
    let second := Rule.fallback "door" (text "off")
    let history : List (Request Unit) :=
      [.addRule wall, .addRule pane, .addRule second, .addRule gate]
    let history' : List (Request Unit) :=
      [.addRule gate, .addRule wall, .registerFunction .property, .addRule second, .addRule pane]
    let engine := ((Session.start ∅ ()).afterInPlace history).engine
    let engine' := ((Session.start ∅ ()).afterInPlace history').engine
    engine'.candidates "door" = .ok [gate, wall] ∧ engine.ruleIds = engine'.ruleIds ∧
      engine.SameUnder "door" engine' := by
  intro text opened gate pane wall second history history' engine engine'
  have hrules : ∀ r ∈ history.filterMap Request.rule?, r.Constructed := by
    simp only [history, List.filterMap_cons, List.filterMap_nil, Request.rule?,
      List.forall_mem_cons]
    exact ⟨.fallback .., .conditioned .., .fallback .., .conditioned .., List.forall_mem_nil _⟩
  have hties : Rule.SameTies [wall, pane, second, gate] [gate, wall, second, pane] :=
    have h₁ : Rule.SameTies _ [wall, pane, gate, second] := .exchange rfl [wall, pane] []
    have h₂ : Rule.SameTies _ [wall, gate, pane, second] := .exchange rfl [wall] [second]
    have h₃ : Rule.SameTies _ [gate, wall, pane, second] := .exchange rfl [] [pane, second]
    have h₄ : Rule.SameTies _ [gate, wall, second, pane] := .exchange rfl [gate, wall] []
    h₁.trans (h₂.trans (h₃.trans h₄))
  obtain ⟨hids, hsame⟩ :=
    registration_order_matters_among_ties ∅ ∅ () () history history' hrules hties
  refine ⟨?_, hids, hsame "door"⟩
  have hstart : (Session.start ∅ ()).engine.Consistent := .start ∅
  have h : engine'.Holds [gate, wall, pane] := Session.holds_afterInPlace hstart (.start ∅) history'
  have hsorted : [gate, wall].Pairwise (Rule.le · · = true) := by decide
  rw [h.candidates_eq]
  have horder : Rule.inOrder "door" [gate, wall, pane] = [gate, wall] :=
    List.mergeSort_of_pairwise hsorted
  rw [horder]
  rfl

end Rulebook
