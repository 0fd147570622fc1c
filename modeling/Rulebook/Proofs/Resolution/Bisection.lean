import Rulebook.Proofs.Resolution.StableSort

/-! # The place of an insertion, found by halving

A test splits a list when it holds up to some position and fails from there on. That position is
found by halving the range in which it must lie (`partitionPoint_eq`). In a list that is in order,
the test "may stand before `x`" splits the list, and its position is where `insertLast` puts `x`
(`insertLast_eq_insertIdx`). In a list that is not in order the search finds no meaningful place.
-/

set_option autoImplicit false

namespace Rulebook

variable {α : Type}

/-- Searches the positions from `lo` up to `hi` for the first one at which the test fails. -/
def bisect (p : α → Bool) (l : List α) (lo hi : Nat) : Nat :=
  if lo < hi then
    let mid := (lo + hi) / 2
    if l[mid]?.any p then bisect p l (mid + 1) hi else bisect p l lo mid
  else lo
termination_by hi - lo

/-- The first position of a list at which the test fails, if the test splits the list. -/
def partitionPoint (p : α → Bool) (l : List α) : Nat :=
  bisect p l 0 l.length

variable {p : α → Bool} {l : List α}

/-- The range keeps the position at which the test splits the list. -/
theorem bisect_eq {k lo hi : Nat} (hsplit : ∀ i (h : i < l.length), p l[i] = true ↔ i < k)
    (hlo : lo ≤ k) (hhi : k ≤ hi) (hlen : hi ≤ l.length) : bisect p l lo hi = k := by
  fun_induction bisect p l lo hi with
  | case1 lo hi hlt mid hmid ih =>
    have hmem : mid < l.length := by omega
    rw [List.getElem?_eq_getElem hmem, Option.any_some, hsplit mid hmem] at hmid
    exact ih hmid hhi hlen
  | case2 lo hi hlt mid hmid ih =>
    have hmem : mid < l.length := by omega
    rw [List.getElem?_eq_getElem hmem, Option.any_some, hsplit mid hmem] at hmid
    exact ih hlo (Nat.le_of_not_lt hmid) (Nat.le_of_lt hmem)
  | case3 lo hi hge => omega

/-- A test that holds before every element at which it holds splits the list behind its longest
prefix of such elements. -/
theorem getElem_iff_lt_length_takeWhile
    (hmono : l.Pairwise fun a b => p b = true → p a = true) (i : Nat) (hi : i < l.length) :
    p l[i] = true ↔ i < (l.takeWhile p).length := by
  induction l generalizing i with
  | nil => cases hi
  | cons a l ih =>
    obtain ⟨ha, hl⟩ := List.pairwise_cons.mp hmono
    cases hpa : p a with
    | true =>
      rw [List.takeWhile_cons_of_pos hpa, List.length_cons]
      cases i with
      | zero => exact iff_of_true hpa (Nat.zero_lt_succ _)
      | succ i =>
        have hi' : i < l.length := Nat.lt_of_succ_lt_succ hi
        exact (ih hl i hi').trans Nat.succ_lt_succ_iff.symm
    | false =>
      have hfail : ¬p a = true := by rw [hpa]; exact Bool.false_ne_true
      rw [List.takeWhile_cons_of_neg hfail]
      refine iff_of_false ?_ (Nat.not_lt_zero i)
      rcases List.mem_cons.mp (List.getElem_mem hi) with heq | hmem
      · rw [heq]
        exact hfail
      · exact fun hp => hfail (ha _ hmem hp)

theorem partitionPoint_eq (hmono : l.Pairwise fun a b => p b = true → p a = true) :
    partitionPoint p l = (l.takeWhile p).length :=
  bisect_eq (getElem_iff_lt_length_takeWhile hmono) (Nat.zero_le _)
    (List.takeWhile_sublist p).length_le (Nat.le_refl _)

theorem insertLast_eq_insertIdx_takeWhile (le : α → α → Bool) (x : α) (l : List α) :
    insertLast le x l = l.insertIdx (l.takeWhile (le · x)).length x := by
  induction l with
  | nil => rfl
  | cons y l ih =>
    cases hy : le y x with
    | true =>
      rw [insertLast_cons_of_le hy, List.takeWhile_cons_of_pos (p := (le · x)) hy, ih]
      rfl
    | false =>
      have hy' : ¬le y x = true := by rw [hy]; exact Bool.false_ne_true
      rw [insertLast_cons_of_not_le hy, List.takeWhile_cons_of_neg (p := (le · x)) hy']
      rfl

/-- In a list that is in order, halving finds the place of an insertion. -/
theorem insertLast_eq_insertIdx {le : α → α → Bool}
    (trans : ∀ a b c, le a b = true → le b c = true → le a c = true)
    (h : l.Pairwise (le · · = true)) (x : α) :
    insertLast le x l = l.insertIdx (partitionPoint (le · x) l) x := by
  have hmono : l.Pairwise fun a b => le b x = true → le a x = true :=
    h.imp fun {a b} hab => trans a b x hab
  rw [partitionPoint_eq hmono, insertLast_eq_insertIdx_takeWhile]

end Rulebook
