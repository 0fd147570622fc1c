import Mathlib.Data.List.TakeWhile

/-! # Keeping a list in order, stably

A new element goes after all elements that may stand before it. Built up in this way, a list is at
every time the stable sort of what was put in (`insertLast_mergeSort`).

Two elements are tied when each may stand before the other. A sorted list is determined by its ties:
`eq_of_tied` compares two sorted lists by the elements tied to each element, in their order. Neither
a stable sort nor an insertion at the end changes that order.
-/

set_option autoImplicit false

namespace Rulebook

variable {α : Type} (le : α → α → Bool)

/-- Puts an element into a list after all leading elements that may stand before it. -/
def insertLast (x : α) (l : List α) : List α :=
  l.takeWhile (le · x) ++ x :: l.dropWhile (le · x)

/-- Whether each of two elements may stand before the other. -/
def tied (a b : α) : Bool :=
  le a b && le b a

variable {le}

theorem insertLast_cons_of_le {x y : α} {l : List α} (h : le y x = true) :
    insertLast le x (y :: l) = y :: insertLast le x l := by
  rw [insertLast, List.takeWhile_cons_of_pos (p := (le · x)) h,
    List.dropWhile_cons_of_pos (p := (le · x)) h]
  rfl

theorem insertLast_cons_of_not_le {x y : α} {l : List α} (h : le y x = false) :
    insertLast le x (y :: l) = x :: y :: l := by
  have h' : ¬le y x = true := by simp [h]
  rw [insertLast, List.takeWhile_cons_of_neg (p := (le · x)) h',
    List.dropWhile_cons_of_neg (p := (le · x)) h']
  rfl

theorem insertLast_perm (x : α) (l : List α) : (insertLast le x l).Perm (x :: l) := by
  refine List.perm_middle.trans (List.Perm.cons x ?_)
  rw [List.takeWhile_append_dropWhile]

/-- An insertion compares the new element only with members of the list. -/
theorem map_insertLast {β : Type} {le' : β → β → Bool} {f : α → β} {x : α} {l : List α}
    (h : ∀ y ∈ l, le y x = le' (f y) (f x)) :
    (insertLast le x l).map f = insertLast le' (f x) (l.map f) := by
  induction l with
  | nil => rfl
  | cons y l ih =>
    obtain ⟨hy, hl⟩ := List.forall_mem_cons.mp h
    rw [List.map_cons]
    cases hle : le y x with
    | true => rw [insertLast_cons_of_le hle, insertLast_cons_of_le (hy ▸ hle), List.map_cons, ih hl]
    | false => rw [insertLast_cons_of_not_le hle, insertLast_cons_of_not_le (hy ▸ hle)]; rfl

section Order

variable (trans : ∀ a b c, le a b = true → le b c = true → le a c = true)
  (total : ∀ a b, (le a b || le b a) = true)

include total

theorem le_of_not_le {a b : α} (h : le a b = false) : le b a = true := by
  have := total a b
  rwa [h, Bool.false_or] at this

theorem tied_self (a : α) : tied le a a = true := by
  have := total a a
  rw [Bool.or_self] at this
  rw [tied, this, Bool.and_self]

include trans

theorem insertLast_pairwise {x : α} {l : List α} (h : l.Pairwise (le · · = true)) :
    (insertLast le x l).Pairwise (le · · = true) := by
  induction l with
  | nil => exact List.pairwise_singleton _ x
  | cons y l ih =>
    rw [List.pairwise_cons] at h
    cases hy : le y x with
    | true =>
      rw [insertLast_cons_of_le hy, List.pairwise_cons]
      refine ⟨fun z hz => ?_, ih h.2⟩
      rcases List.mem_cons.mp ((insertLast_perm x l).mem_iff.mp hz) with rfl | hz
      · exact hy
      · exact h.1 z hz
    | false =>
      have hx : le x y = true := le_of_not_le total hy
      rw [insertLast_cons_of_not_le hy, List.pairwise_cons, List.pairwise_cons]
      refine ⟨fun z hz => ?_, h⟩
      rcases List.mem_cons.mp hz with rfl | hz
      · exact hx
      · exact trans x y z hx (h.1 z hz)

omit total in
/-- An insertion puts the new element behind the elements that it is tied to. -/
theorem filter_insertLast {x : α} {l : List α} (h : l.Pairwise (le · · = true)) (a : α) :
    (insertLast le x l).filter (tied le a) = (l ++ [x]).filter (tied le a) := by
  induction l with
  | nil => rfl
  | cons y l ih =>
    rw [List.pairwise_cons] at h
    cases hy : le y x with
    | true =>
      rw [insertLast_cons_of_le hy, List.cons_append, List.filter_cons, List.filter_cons, ih h.2]
    | false =>
      rw [insertLast_cons_of_not_le hy, List.filter_append, List.filter_cons]
      split
      · next ha =>
        -- Everything from here on comes after `x`, and so after `a`, without being tied to it.
        have hnil : (y :: l).filter (tied le a) = [] := by
          rw [List.filter_eq_nil_iff]
          intro z hz hza
          rw [tied, Bool.and_eq_true] at ha hza
          have hyz : le y z = true ∨ y = z := by
            rcases List.mem_cons.mp hz with rfl | hz
            · exact .inr rfl
            · exact .inl (h.1 z hz)
          have hyx : le y x = true := by
            rcases hyz with hyz | rfl
            · exact trans y z x hyz (trans z a x hza.2 ha.1)
            · exact trans y a x hza.2 ha.1
          rw [hy] at hyx
          cases hyx
        rw [hnil, List.filter_cons_of_pos ha]
        rfl
      · next ha => rw [List.filter_cons_of_neg ha, List.filter_nil, List.append_nil]

omit total in
/-- All that may stand before a new element leads a sorted list. -/
theorem not_le_of_mem_dropWhile {x : α} {l : List α} (h : l.Pairwise (le · · = true)) :
    ∀ a ∈ l.dropWhile (le · x), le a x = false := by
  induction l with
  | nil => exact fun _ ha => nomatch ha
  | cons y l ih =>
    rw [List.pairwise_cons] at h
    cases hy : le y x with
    | true =>
      rw [List.dropWhile_cons_of_pos (p := (le · x)) hy]
      exact ih h.2
    | false =>
      have hy' : ¬le y x = true := by simp [hy]
      rw [List.dropWhile_cons_of_neg (p := (le · x)) hy']
      refine List.forall_mem_cons.mpr ⟨hy, fun z hz => ?_⟩
      cases hz' : le z x with
      | false => rfl
      | true => exact absurd (trans y z x (h.1 z hz) hz') hy'

omit trans in
/-- A sorted list is determined by the order of tied elements. -/
theorem eq_of_tied {l₁ l₂ : List α} (h₁ : l₁.Pairwise (le · · = true))
    (h₂ : l₂.Pairwise (le · · = true))
    (h : ∀ a, l₁.filter (tied le a) = l₂.filter (tied le a)) : l₁ = l₂ := by
  have refl := tied_self total
  have mem_of_filter_eq {l l' : List α} (hl : ∀ a, l.filter (tied le a) = l'.filter (tied le a))
      {a : α} (ha : a ∈ l) : a ∈ l' := by
    have : a ∈ l.filter (tied le a) := List.mem_filter.mpr ⟨ha, refl a⟩
    rw [hl] at this
    exact (List.mem_filter.mp this).1
  have head_le {a b : α} {l : List α} (hl : (a :: l).Pairwise (le · · = true))
      (hb : b ∈ a :: l) : le a b = true := by
    rcases List.mem_cons.mp hb with rfl | hb
    · have := refl b
      rw [tied, Bool.and_self] at this
      exact this
    · exact (List.pairwise_cons.mp hl).1 b hb
  induction l₁ generalizing l₂ with
  | nil =>
    refine (List.eq_nil_iff_forall_not_mem.mpr fun a ha => ?_).symm
    exact List.not_mem_nil (mem_of_filter_eq (fun a => (h a).symm) ha)
  | cons a l₁ ih =>
    cases l₂ with
    | nil => exact absurd (mem_of_filter_eq h (List.mem_cons_self ..)) List.not_mem_nil
    | cons b l₂ =>
      have hab : tied le a b = true := by
        rw [tied, Bool.and_eq_true]
        exact ⟨head_le h₁ (mem_of_filter_eq (fun a => (h a).symm) (List.mem_cons_self ..)),
          head_le h₂ (mem_of_filter_eq h (List.mem_cons_self ..))⟩
      have heq : a = b := by
        have := h a
        rw [List.filter_cons_of_pos (refl a), List.filter_cons_of_pos hab] at this
        exact (List.cons.inj this).1
      subst heq
      refine congrArg (a :: ·) (ih (List.pairwise_cons.mp h₁).2 (List.pairwise_cons.mp h₂).2 ?_)
      intro c
      have := h c
      rw [List.filter_cons, List.filter_cons] at this
      split at this
      · exact (List.cons.inj this).2
      · exact this

/-- A stable sort keeps the order of tied elements. -/
theorem filter_mergeSort (a : α) (l : List α) :
    (l.mergeSort le).filter (tied le a) = l.filter (tied le a) := by
  have htied : (l.filter (tied le a)).Pairwise (le · · = true) := by
    refine List.pairwise_of_forall_mem_list fun b hb c hc => ?_
    have hb := (List.mem_filter.mp hb).2
    have hc := (List.mem_filter.mp hc).2
    rw [tied, Bool.and_eq_true] at hb hc
    exact trans b a c hb.2 hc.1
  have hsub := (List.sublist_mergeSort trans total htied List.filter_sublist).filter (tied le a)
  simp only [List.filter_filter, Bool.and_self] at hsub
  exact (hsub.eq_of_length ((List.mergeSort_perm l le).filter _).length_eq.symm).symm

theorem insertLast_mergeSort (x : α) (l : List α) :
    insertLast le x (l.mergeSort le) = (l ++ [x]).mergeSort le := by
  have hsorted := List.pairwise_mergeSort trans total l
  refine eq_of_tied total (insertLast_pairwise trans total hsorted)
    (List.pairwise_mergeSort trans total _) fun a => ?_
  rw [filter_insertLast trans hsorted, filter_mergeSort trans total, List.filter_append,
    filter_mergeSort trans total, List.filter_append]

end Order

end Rulebook
