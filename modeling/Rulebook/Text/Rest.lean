/-! # What is left of a text

A reader takes something from the front of a text and returns it with what is left. That the latter
is shorter is part of the type `Rest`, so readers can call each other and come to an end.

* `Rest.tail`, `Rest.behind`: the text after its first character, or after a few.
* `Rest.of?`: a text, if it is shorter.
* `Rest.within`, `Rest.andThen`: what is left of a rest, seen from the whole text.
* `length_dropWhile_le`, `length_lt_of_dropWhile`: what is left after skipping characters.
-/

set_option autoImplicit false

namespace Rulebook.Text

theorem length_dropWhile_le (p : Char → Bool) (s : List Char) :
    (s.dropWhile p).length ≤ s.length :=
  (List.dropWhile_sublist p).length_le

theorem length_lt_of_eq_cons {s t r : List Char} {c : Char} (h : t = c :: r)
    (ht : t.length ≤ s.length) : r.length < s.length := by
  subst h
  exact ht

theorem length_lt_of_dropWhile {p : Char → Bool} {s r : List Char} {c : Char}
    (h : s.dropWhile p = c :: r) : r.length < s.length :=
  length_lt_of_eq_cons h (length_dropWhile_le p s)

theorem length_lt_of_append (c : Char) (front s : List Char) :
    s.length < (c :: (front ++ s)).length := by
  rw [List.length_cons, List.length_append]
  omega

/-- What is left of a text after something was read from it. -/
structure Rest (s : List Char) where
  text : List Char
  shorter : text.length < s.length

namespace Rest

/-- What is left, if it is shorter. -/
def of? (s rest : List Char) : Option (Rest s) :=
  if h : rest.length < s.length then some ⟨rest, h⟩ else none

def tail (c : Char) (r : List Char) : Rest (c :: r) :=
  ⟨r, Nat.lt_succ_self _⟩

def behind (c : Char) (front r : List Char) : Rest (c :: (front ++ r)) :=
  ⟨r, length_lt_of_append c front r⟩

/-- The same rest, seen from a longer text. -/
def within {s t : List Char} (rest : Rest t) (h : t.length < s.length) : Rest s :=
  ⟨rest.text, Nat.lt_trans rest.shorter h⟩

def andThen {s : List Char} (rest : Rest s) (next : Rest rest.text) : Rest s :=
  next.within rest.shorter

def after {s : List Char} (c : Char) (rest : Rest s) : Rest (c :: s) :=
  rest.within (Nat.lt_succ_self _)

def skip {s : List Char} (p : Char → Bool) (rest : Rest s) : Rest s :=
  ⟨rest.text.dropWhile p, Nat.lt_of_le_of_lt (length_dropWhile_le p rest.text) rest.shorter⟩

end Rest

end Rulebook.Text
