import Mathlib.Data.List.Infix
import Rulebook.Proofs.Operator.Algebra

/-! # Operators on texts

Six operators compare texts. Native or raw, a text is seen as its characters, and each of the six
tests one relation between two lists of characters (`Operator.text_iff`): being equal, being a part,
a start or an end, or the contrary of one of them. What holds of parts, starts and ends of lists
holds of texts.
-/

set_option autoImplicit false

namespace Rulebook

namespace Datum

/-- The text that operators see in a datum: a text itself, or a raw one. -/
inductive Textual : Datum → String → Prop where
  | text (s : String) : Textual (.text s) s
  | raw (s : String) : Textual (.json (.str s)) s

variable {d : Datum} {s : String}

theorem textual_iff : d.Textual s ↔ d.asText? = some s := by
  constructor
  · rintro (s | s)
    · rfl
    · rfl
  · intro h
    cases d with
    | text t =>
      cases h
      exact .text s
    | json j =>
      cases j with
      | str t =>
        cases h
        exact .raw s
      | _ => cases h
    | _ => cases h

theorem Textual.asNumber?_eq_none (h : d.Textual s) : d.asNumber? = none := by
  cases h with
  | text s => rfl
  | raw s => rfl

end Datum

namespace Operator

/-- The relation between the characters of two texts that an operator tests, if any. -/
def textRelation? : Operator → Option (List Char → List Char → Prop)
  | eq => some (· = ·)
  | ne => some (· ≠ ·)
  | contains => some fun whole part => part <:+: whole
  | notContains => some fun whole part => ¬ part <:+: whole
  | startsWith => some fun whole part => part <+: whole
  | endsWith => some fun whole part => part <:+ whole
  | lt | le | gt | ge => none

variable {op : Operator} {l m r : Datum} {s t u : String} {rel : List Char → List Char → Prop}

theorem matches_texts (hl : l.Textual s) (hr : r.Textual t) :
    l.matches r = true ↔ s.toList = t.toList := by
  rw [Datum.matches_eq, hl.asNumber?_eq_none, Datum.textual_iff.mp hl, Datum.textual_iff.mp hr]
  exact beq_iff_eq.trans String.toList_inj.symm

theorem search_texts (op : Operator) (hl : l.Textual s) (hr : r.Textual t) :
    op.search l r = .ok (Text.isPartOf t.toList s.toList) := by
  cases hl <;> simp only [search, Datum.textual_iff.mp hr]

theorem texts_eq (op : Operator) (hl : l.Textual s) (hr : r.Textual t) :
    op.texts l r = .ok (s, t) := by
  rw [texts, Datum.textual_iff.mp hl, Datum.textual_iff.mp hr]

/-- An operator on two texts has an answer, and tests its relation on their characters. -/
theorem text_iff (h : op.textRelation? = some rel) (hl : l.Textual s) (hr : r.Textual t) :
    ∃ b, op.apply l r = .ok b ∧ (b = true ↔ rel s.toList t.toList) := by
  cases op <;> cases h
  case eq => exact ⟨_, rfl, matches_texts hl hr⟩
  case ne => exact ⟨_, rfl, by rw [Bool.not_eq_true', ← Bool.not_eq_true, matches_texts hl hr]⟩
  case contains => exact ⟨_, search_texts contains hl hr, Text.isPartOf_iff⟩
  case notContains =>
    refine ⟨!Text.isPartOf t.toList s.toList, ?_, ?_⟩
    · rw [apply, search_texts notContains hl hr, Except.map]
    · rw [Bool.not_eq_true', ← Bool.not_eq_true, Text.isPartOf_iff]
  case startsWith =>
    refine ⟨t.toList.isPrefixOf s.toList, ?_, List.isPrefixOf_iff_prefix⟩
    rw [apply, texts_eq startsWith hl hr, Except.map]
  case endsWith =>
    refine ⟨t.toList.isSuffixOf s.toList, ?_, List.isSuffixOf_iff_suffix⟩
    rw [apply, texts_eq endsWith hl hr, Except.map]

theorem text_eq_true_iff (h : op.textRelation? = some rel) (hl : l.Textual s) (hr : r.Textual t) :
    op.apply l r = .ok true ↔ rel s.toList t.toList := by
  obtain ⟨b, hb, hiff⟩ := text_iff h hl hr
  rw [hb, Except.ok.injEq, hiff]

theorem contains_iff (hl : l.Textual s) (hr : r.Textual t) :
    contains.apply l r = .ok true ↔ t.toList <:+: s.toList := by
  have hrel : contains.textRelation? = some fun whole part => part <:+: whole := rfl
  exact (text_eq_true_iff hrel hl hr :)

theorem startsWith_iff (hl : l.Textual s) (hr : r.Textual t) :
    startsWith.apply l r = .ok true ↔ t.toList <+: s.toList := by
  have hrel : startsWith.textRelation? = some fun whole part => part <+: whole := rfl
  exact (text_eq_true_iff hrel hl hr :)

theorem endsWith_iff (hl : l.Textual s) (hr : r.Textual t) :
    endsWith.apply l r = .ok true ↔ t.toList <:+ s.toList := by
  have hrel : endsWith.textRelation? = some fun whole part => part <:+ whole := rfl
  exact (text_eq_true_iff hrel hl hr :)

/-- Starts and ends are for texts only. -/
theorem affix_isOk_iff (h : op ∈ [startsWith, endsWith]) :
    (∃ b, op.apply l r = .ok b) ↔ (∃ s, l.Textual s) ∧ ∃ t, r.Textual t := by
  constructor
  · rintro ⟨b, hb⟩
    have htexts : ∃ p, op.texts l r = .ok p := by
      simp only [List.mem_cons, List.not_mem_nil, or_false] at h
      rcases h with rfl | rfl
      · exact (map_eq_ok_iff.mp hb).imp fun _ => And.left
      · exact (map_eq_ok_iff.mp hb).imp fun _ => And.left
    obtain ⟨p, hp⟩ := htexts
    rw [← toOption_eq_some_iff, toOption_texts] at hp
    obtain ⟨s, hs, hp⟩ := Option.bind_eq_some_iff.mp hp
    obtain ⟨t, ht, -⟩ := Option.map_eq_some_iff.mp hp
    exact ⟨⟨s, Datum.textual_iff.mpr hs⟩, t, Datum.textual_iff.mpr ht⟩
  · rintro ⟨⟨s, hl⟩, t, hr⟩
    have hrel : ∃ rel, op.textRelation? = some rel := by
      simp only [List.mem_cons, List.not_mem_nil, or_false] at h
      rcases h with rfl | rfl
      · exact ⟨_, rfl⟩
      · exact ⟨_, rfl⟩
    obtain ⟨rel, hrel⟩ := hrel
    obtain ⟨b, hb, -⟩ := text_iff hrel hl hr
    exact ⟨b, hb⟩

/-! ## Laws -/

theorem contains_antisymm (hl : l.Textual s) (hm : m.Textual t) (h : contains.apply l m = .ok true)
    (h' : contains.apply m l = .ok true) : eq.apply l m = .ok true := by
  rw [contains_iff hl hm] at h
  rw [contains_iff hm hl] at h'
  rw [text_eq_true_iff rfl hl hm]
  exact List.infix_antisymm h' h

theorem contains_of_affix (hl : l.Textual s) (hm : m.Textual t) :
    ∀ op ∈ [startsWith, endsWith], op.apply l m = .ok true → contains.apply l m = .ok true := by
  simp only [List.forall_mem_cons, startsWith_iff hl hm, endsWith_iff hl hm, contains_iff hl hm]
  exact ⟨List.IsPrefix.isInfix, List.IsSuffix.isInfix, List.forall_mem_nil _⟩

theorem text_trans (hl : l.Textual s) (hm : m.Textual t) (hr : r.Textual u) :
    ∀ op ∈ [contains, startsWith, endsWith], op.apply l m = .ok true → op.apply m r = .ok true →
      op.apply l r = .ok true := by
  simp only [List.forall_mem_cons, contains_iff hl hm, contains_iff hm hr, contains_iff hl hr,
    startsWith_iff hl hm, startsWith_iff hm hr, startsWith_iff hl hr, endsWith_iff hl hm,
    endsWith_iff hm hr, endsWith_iff hl hr]
  exact ⟨fun h h' => h'.trans h, fun h h' => h'.trans h, fun h h' => h'.trans h,
    List.forall_mem_nil _⟩

/-- Of two starts of one text, the longer one starts with the other. -/
theorem affix_comparable (hl : l.Textual s) (hm : m.Textual t) (hr : r.Textual u) :
    ∀ op ∈ [startsWith, endsWith], op.apply l m = .ok true → op.apply l r = .ok true →
      op.apply m r = .ok true ∨ op.apply r m = .ok true := by
  simp only [List.forall_mem_cons, startsWith_iff hl hm, startsWith_iff hl hr,
    startsWith_iff hm hr, startsWith_iff hr hm, endsWith_iff hl hm, endsWith_iff hl hr,
    endsWith_iff hm hr, endsWith_iff hr hm]
  exact ⟨fun h h' => List.prefix_or_prefix_of_prefix h' h,
    fun h h' => List.suffix_or_suffix_of_suffix h' h, List.forall_mem_nil _⟩

end Operator

/-! ## Main statement -/

/-- The laws of the operators on three texts. -/
structure Operator.TextLaws (l m r : Datum) : Prop where
  contains_refl : contains.apply l l = .ok true
  /-- Two texts that contain each other are equal. -/
  contains_antisymm : contains.apply l m = .ok true → contains.apply m l = .ok true →
    eq.apply l m = .ok true
  /-- A start or an end of a text is a part of it. -/
  contains_of_affix : ∀ op ∈ [startsWith, endsWith], op.apply l m = .ok true →
    contains.apply l m = .ok true
  trans : ∀ op ∈ [contains, startsWith, endsWith], op.apply l m = .ok true →
    op.apply m r = .ok true → op.apply l r = .ok true
  /-- Of two starts of one text, one starts with the other; so with ends. -/
  comparable : ∀ op ∈ [startsWith, endsWith], op.apply l m = .ok true → op.apply l r = .ok true →
    op.apply m r = .ok true ∨ op.apply r m = .ok true

/-- Parts, starts and ends of texts behave as such, be the texts native or raw, and only of texts
can starts and ends be asked for. -/
theorem text_operators_cohere (l m r : Datum) :
    (∀ op ∈ [Operator.startsWith, Operator.endsWith],
      (∃ b, op.apply l r = .ok b) ↔ (∃ s, l.Textual s) ∧ ∃ t, r.Textual t) ∧
    ∀ {s t u}, l.Textual s → m.Textual t → r.Textual u → Operator.TextLaws l m r := by
  refine ⟨fun op => Operator.affix_isOk_iff, fun hl hm hr => ?_⟩
  exact {
    contains_refl := (Operator.contains_iff hl hl).mpr List.infix_rfl
    contains_antisymm := Operator.contains_antisymm hl hm
    contains_of_affix := Operator.contains_of_affix hl hm
    trans := Operator.text_trans hl hm hr
    comparable := Operator.affix_comparable hl hm hr }

/-- A raw text between two native ones. -/
theorem text_operators_cohere_mixed :
    let l : Datum := .text "né😀e\u0301"
    let m : Datum := .json (.str "né😀")
    let r : Datum := .text "né"
    Operator.startsWith.apply l m = .ok true ∧ Operator.startsWith.apply m r = .ok true ∧
      Operator.startsWith.apply l r = .ok true ∧ Operator.contains.apply l m = .ok true := by
  intro l m r
  have hlm : Operator.startsWith.apply l m = .ok true := by decide
  have hmr : Operator.startsWith.apply m r = .ok true := by decide
  have hlaws := (text_operators_cohere l m r).2 (.text _) (.raw _) (.text _)
  exact ⟨hlm, hmr, hlaws.trans _ (by decide) hlm hmr,
    hlaws.contains_of_affix _ (by decide) hlm⟩

end Rulebook
