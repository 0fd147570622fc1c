import Mathlib.Data.List.Forall2
import Rulebook.Datum.HashInput

/-! # Equality and hash sets

A hash set keeps its elements in buckets. A digest of the hash input names the bucket of an
element, and only there is an equal one looked for. `HashConsistent` says what equality and hash
input of a type must do for this to work, and what follows for every digest: no two elements that
are held are equal, and every element that was added is equal to one that is held.

Hash inputs are written one after the other without a mark between them. `Spelled` says that the
words of an element end by themselves and are those of its equals alone; lists and entries of
spelled parts are spelled (`Spelled.flatMap`, `Spelled.entry`).
-/

set_option autoImplicit false

namespace Rulebook

variable {α : Type} {same : α → α → Bool} {words : α → List HashWord}

/-! ## Words that end by themselves -/

/-- Two hash inputs that begin with the words of `a` and of `b` are the same exactly if `a` equals
`b` and they go on alike. -/
def Spelled (same : α → α → Bool) (words : α → List HashWord) (a : α) : Prop :=
  ∀ b l m, words a ++ l = words b ++ m ↔ same a b = true ∧ l = m

theorem Spelled.words_eq_iff {a : α} (h : Spelled same words a) (b : α) :
    words a = words b ↔ same a b = true := by
  have hab := h b [] []
  simpa using hab

/-- An entry is spelled by its key and the words of what stands under it. -/
theorem Spelled.entry {e : String × α} (h : Spelled same words e.2) :
    Spelled (fun a b => a.1 == b.1 && same a.2 b.2) (fun a => .text a.1 :: words a.2) e := by
  intro b l m
  simp [h b.2 l m, and_assoc]

theorem Spelled.flatMap {as bs : List α} (h : ∀ a ∈ as, Spelled same words a)
    (hlen : as.length = bs.length) (l m : List HashWord) :
    as.flatMap words ++ l = bs.flatMap words ++ m ↔
      List.Forall₂ (fun a b => same a b = true) as bs ∧ l = m := by
  induction as generalizing bs with
  | nil =>
    obtain rfl : bs = [] := List.eq_nil_of_length_eq_zero hlen.symm
    simp
  | cons a as ih =>
    cases bs with
    | nil => cases hlen
    | cons b bs =>
      obtain ⟨ha, has⟩ := List.forall_mem_cons.mp h
      have hrest := ih has (Nat.succ.inj hlen)
      rw [List.flatMap_cons, List.flatMap_cons, List.append_assoc, List.append_assoc,
        ha b _ _, hrest, List.forall₂_cons, and_assoc]

/-- A list is spelled by its length and the words of its parts. -/
theorem Spelled.sized {as bs : List α} (h : ∀ a ∈ as, Spelled same words a)
    (l m : List HashWord) :
    HashWord.size as.length :: (as.flatMap words ++ l) =
        .size bs.length :: (bs.flatMap words ++ m) ↔
      List.Forall₂ (fun a b => same a b = true) as bs ∧ l = m := by
  rw [List.cons.injEq, HashWord.size.injEq]
  constructor
  · rintro ⟨hlen, heq⟩
    exact (Spelled.flatMap h hlen l m).mp heq
  · intro hall
    exact ⟨hall.1.length_eq, (Spelled.flatMap h hall.1.length_eq l m).mpr hall⟩

/-! ## Buckets -/

/-- The table after one more element: in the bucket that its digest names, unless an equal one is
there. -/
def Bucket.add (same : α → α → Bool) (words : α → List HashWord) (digest : List HashWord → Nat)
    (table : Nat → List α) (a : α) : Nat → List α :=
  fun i => if i = digest (words a) ∧ (table i).any (same a) = false then a :: table i else table i

/-- The table after a run of additions to the empty one. -/
def Bucket.ofRun (same : α → α → Bool) (words : α → List HashWord)
    (digest : List HashWord → Nat) (run : List α) : Nat → List α :=
  run.foldl (Bucket.add same words digest) fun _ => []

/-- Equality is an equivalence, the hash input tells equals from others, and hash sets hold each
element once, whatever the digest. -/
structure HashConsistent (same : α → α → Bool) (words : α → List HashWord) : Prop where
  equivalence : Equivalence fun a b => same a b = true
  words_eq_iff : ∀ a b, words a = words b ↔ same a b = true
  held_once : ∀ digest run i, (Bucket.ofRun same words digest run i).Pairwise (same · · = false)
  held_in_one : ∀ digest run i j, ∀ a ∈ Bucket.ofRun same words digest run i,
    ∀ b ∈ Bucket.ofRun same words digest run j, same a b = true → i = j
  held : ∀ digest run, ∀ a ∈ run,
    ∃ b ∈ Bucket.ofRun same words digest run (digest (words a)), same a b = true

/-- What every addition keeps: elements stand in the bucket of their digest, and no two of one
bucket are equal. -/
structure Bucket.Sound (same : α → α → Bool) (words : α → List HashWord)
    (digest : List HashWord → Nat) (table : Nat → List α) : Prop where
  digest_eq : ∀ i, ∀ a ∈ table i, digest (words a) = i
  pairwise : ∀ i, (table i).Pairwise (same · · = false)

namespace Bucket

variable {digest : List HashWord → Nat} {table : Nat → List α}

theorem add_of_new {a : α} (h : (table (digest (words a))).any (same a) = false) :
    add same words digest table a (digest (words a)) = a :: table (digest (words a)) :=
  if_pos ⟨rfl, h⟩

theorem mem_add {a b : α} {i : Nat} :
    b ∈ add same words digest table a i → b = a ∧ i = digest (words a) ∨ b ∈ table i := by
  rw [add]
  split
  · next h =>
    intro hb
    exact (List.mem_cons.mp hb).imp (fun heq => ⟨heq, h.1⟩) id
  · exact .inr

theorem subset_add {a b : α} {i : Nat} (hb : b ∈ table i) :
    b ∈ add same words digest table a i := by
  rw [add]
  split
  · exact List.mem_cons_of_mem _ hb
  · exact hb

/-- The step of the invariant. -/
theorem Sound.add (h : Sound same words digest table) (a : α) :
    Sound same words digest (add same words digest table a) where
  digest_eq i b hb := by
    rcases mem_add hb with ⟨rfl, hi⟩ | hb
    · exact hi.symm
    · exact h.digest_eq i b hb
  pairwise i := by
    rw [Bucket.add]
    split
    · next hnew =>
      refine List.pairwise_cons.mpr ⟨fun b hb => ?_, h.pairwise i⟩
      exact Bool.eq_false_iff.mpr (List.any_eq_false.mp hnew.2 b hb)
    · exact h.pairwise i

theorem sound_ofRun (run : List α) : Sound same words digest (ofRun same words digest run) := by
  have hrun (table : Nat → List α) (h : Sound same words digest table) :
      Sound same words digest (run.foldl (Bucket.add same words digest) table) := by
    induction run generalizing table with
    | nil => exact h
    | cons a run ih => exact ih _ (h.add a)
  exact hrun _ ⟨fun _ _ hb => absurd hb List.not_mem_nil, fun _ => .nil⟩

/-- What has once been added stays held, itself or an equal of it. -/
theorem exists_ofRun (refl : ∀ a, same a a = true) (run : List α) :
    ∀ a ∈ run, ∃ b ∈ ofRun same words digest run (digest (words a)), same a b = true := by
  have hstays (b : α) (i : Nat) (table : Nat → List α) (hb : b ∈ table i) (rest : List α) :
      b ∈ rest.foldl (Bucket.add same words digest) table i := by
    induction rest generalizing table with
    | nil => exact hb
    | cons c rest ih => exact ih _ (subset_add hb)
  have hadded (a : α) (table : Nat → List α) :
      ∃ b ∈ Bucket.add same words digest table a (digest (words a)), same a b = true := by
    cases h : (table (digest (words a))).any (same a) with
    | true =>
      obtain ⟨b, hb, hab⟩ := List.any_eq_true.mp h
      exact ⟨b, subset_add hb, hab⟩
    | false => exact ⟨a, by rw [add_of_new h]; exact List.mem_cons_self, refl a⟩
  intro a ha
  obtain ⟨before, after, rfl⟩ := List.append_of_mem ha
  rw [ofRun, List.foldl_append, List.foldl_cons]
  obtain ⟨b, hb, hab⟩ := hadded a (before.foldl (Bucket.add same words digest) fun _ => [])
  exact ⟨b, hstays b _ _ hb after, hab⟩

end Bucket

/-- A type whose elements are all spelled has a consistent equality. -/
theorem HashConsistent.of_spelled (h : ∀ a, Spelled same words a) :
    HashConsistent same words := by
  have hwords (a b : α) : words a = words b ↔ same a b = true := (h a).words_eq_iff b
  have hrefl (a : α) : same a a = true := (hwords a a).mp rfl
  refine ⟨⟨hrefl, fun hab => ?_, fun hab hbc => ?_⟩, hwords, fun digest run i => ?_,
    fun digest run i j a ha b hb hab => ?_, fun digest run => Bucket.exists_ofRun hrefl run⟩
  · exact (hwords _ _).mp ((hwords _ _).mpr hab).symm
  · exact (hwords _ _).mp (((hwords _ _).mpr hab).trans ((hwords _ _).mpr hbc))
  · exact (Bucket.sound_ofRun run).pairwise i
  · have hsound : Bucket.Sound same words digest (Bucket.ofRun same words digest run) :=
      Bucket.sound_ofRun run
    rw [← hsound.digest_eq i a ha, ← hsound.digest_eq j b hb, (hwords a b).mpr hab]

end Rulebook
