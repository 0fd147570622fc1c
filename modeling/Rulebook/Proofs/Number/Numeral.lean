import Mathlib.Data.List.Basic
import Rulebook.Number.Numeral

/-! # Reading numerals

A numeral of fewer than 28 places whose digits stay below `2 ^ 96` is read digit by digit: the
magnitude is what its digits spell, the scale is the number of places (`ofString_plain`). With an
exponent the scale moves by the power (`ofString_scientific`).
-/

set_option autoImplicit false

namespace Rulebook.Decimal

/-- Sign, magnitude and scale. -/
def parts (d : Decimal) : Bool × Nat × Nat :=
  (d.negative, d.magnitude, d.scale)

theorem parts_eq_iff {d : Decimal} {negative : Bool} {magnitude scale : Nat} :
    d.parts = (negative, magnitude, scale) ↔
      d.negative = negative ∧ d.magnitude = magnitude ∧ d.scale = scale := by
  simp [parts]

theorem ofParts_parts {negative : Bool} {magnitude scale : Nat}
    (hm : magnitude < 0x1000000000000000000000000) (hs : scale ≤ 28) :
    (ofParts negative magnitude scale).map parts = .ok (negative, magnitude, scale) := by
  rw [ofParts, ofParts?, dif_pos ⟨hm, hs⟩]
  rfl

theorem parts_of_ofParts {negative : Bool} {magnitude scale : Nat} {d : Decimal}
    (h : ofParts negative magnitude scale = .ok d) : d.parts = (negative, magnitude, scale) := by
  unfold ofParts ofParts? at h
  split at h
  · next heq =>
    cases h
    split at heq
    · cases heq
      rfl
    · cases heq
  · cases h

/-! ## Digits -/

section Digits

variable {c : Char} {ds : List Char}

theorem digit?_of_isDigit (h : c.isDigit = true) : digit? c = some (c.toNat - '0'.toNat) :=
  if_pos h

theorem le_ofDigitChars (ds : List Char) (m : Nat) : m ≤ Nat.ofDigitChars 10 ds m := by
  induction ds generalizing m with
  | nil => exact Nat.le_refl m
  | cons c ds ih =>
    rw [Nat.ofDigitChars_cons]
    exact Nat.le_trans (by omega) (ih _)

/-- What is left to read after a digit that fits. -/
theorem scan_digit (negative : Bool) (rest : List Char) (hc : c.isDigit = true) {m k : Nat}
    {f s : Bool} (hk : f = true → k + 1 < 28)
    (hm : 10 * m + (c.toNat - '0'.toNat) < 0x1000000000000000000000000) :
    scan negative ⟨m, k, f, s⟩ (c :: rest) =
      scan negative ⟨10 * m + (c.toNat - '0'.toNat), if f then k + 1 else 0, f, true⟩ rest := by
  rw [Nat.mul_comm] at hm ⊢
  rw [scan, digit?_of_isDigit hc]
  dsimp only
  rw [if_pos hm, if_neg]
  split
  · next h =>
    have := hk h
    omega
  · omega

/-- A run of digits is appended to what has been read. -/
theorem scan_digits (negative : Bool) (rest : List Char) (hds : ∀ c ∈ ds, c.isDigit = true)
    {m k : Nat} {f s : Bool} (hk : f = true → k + ds.length < 28)
    (hm : Nat.ofDigitChars 10 ds m < 0x1000000000000000000000000) (hne : ds ≠ []) :
    scan negative ⟨m, k, f, s⟩ (ds ++ rest) =
      scan negative ⟨Nat.ofDigitChars 10 ds m, if f then k + ds.length else 0, f, true⟩ rest := by
  induction ds generalizing m k s with
  | nil => exact absurd rfl hne
  | cons c ds ih =>
    obtain ⟨hc, hds'⟩ := List.forall_mem_cons.mp hds
    rw [Nat.ofDigitChars_cons] at hm ⊢
    rw [List.length_cons] at hk ⊢
    have hfits := Nat.lt_of_le_of_lt (le_ofDigitChars ds _) hm
    rw [List.cons_append, scan_digit negative _ hc (fun h => by have := hk h; omega) hfits]
    cases ds with
    | nil => rfl
    | cons c' ds' =>
      rw [ih hds' ?_ hm (List.cons_ne_nil _ _)]
      · split <;> simp [Nat.add_assoc, Nat.add_comm]
      · intro h
        have := hk h
        rw [if_pos h]
        omega

/-! ## Numerals -/

/-- Digits with a point before the last ones, if there are any after it. -/
def plain (whole fraction : List Char) : List Char :=
  whole ++ if fraction = [] then [] else '.' :: fraction

variable {whole fraction : List Char}

theorem close_parts (negative f : Bool) {m k : Nat} (hm : m < 0x1000000000000000000000000)
    (hk : k ≤ 28) : ((Reading.mk m k f true).close negative false).map parts =
      .ok (negative && m != 0, m, k) := by
  have heq : (Reading.mk m k f true).close negative false = ofParts (negative && m != 0) m k :=
    if_pos hm
  rw [heq]
  exact ofParts_parts hm hk

theorem scan_point (negative : Bool) (m k : Nat) (s : Bool) (rest : List Char) :
    scan negative ⟨m, k, false, s⟩ ('.' :: rest) = scan negative ⟨m, k, true, s⟩ rest := by
  rw [scan]
  rfl

/-- A numeral is read up to whatever follows it. -/
theorem scan_plain_append (negative : Bool) (rest : List Char) (hwhole : whole ≠ [])
    (hds : ∀ c ∈ whole ++ fraction, c.isDigit = true) (hlen : fraction.length < 28)
    (hm : Nat.ofDigitChars 10 (whole ++ fraction) 0 < 0x1000000000000000000000000) :
    scan negative {} (plain whole fraction ++ rest) =
      scan negative ⟨Nat.ofDigitChars 10 (whole ++ fraction) 0, fraction.length,
        decide (fraction ≠ []), true⟩ rest := by
  rw [List.forall_mem_append] at hds
  rw [Nat.ofDigitChars_append] at hm ⊢
  have hm' := Nat.lt_of_le_of_lt (le_ofDigitChars fraction _) hm
  have hstart : scan negative {} (plain whole fraction ++ rest) =
      scan negative ⟨Nat.ofDigitChars 10 whole 0, 0, false, true⟩
        ((if fraction = [] then [] else '.' :: fraction) ++ rest) := by
    rw [plain, List.append_assoc]
    exact scan_digits (f := false) negative _ hds.1 (fun h => absurd h Bool.false_ne_true) hm' hwhole
  rw [hstart]
  by_cases hfraction : fraction = []
  · subst hfraction
    rfl
  · have hrest := scan_digits (f := true) (s := true) (k := 0) negative rest hds.2
      (fun _ => by omega) hm hfraction
    rw [if_pos rfl, Nat.zero_add] at hrest
    rw [if_neg hfraction, List.cons_append, scan_point, hrest, decide_eq_true hfraction]

theorem scan_plain (negative : Bool) (hwhole : whole ≠ [])
    (hds : ∀ c ∈ whole ++ fraction, c.isDigit = true) (hlen : fraction.length < 28)
    (hm : Nat.ofDigitChars 10 (whole ++ fraction) 0 < 0x1000000000000000000000000) :
    (scan negative {} (plain whole fraction)).map parts =
      .ok (negative && Nat.ofDigitChars 10 (whole ++ fraction) 0 != 0,
        Nat.ofDigitChars 10 (whole ++ fraction) 0, fraction.length) := by
  have hread := scan_plain_append negative [] hwhole hds hlen hm
  rw [List.append_nil] at hread
  rw [hread, scan]
  exact close_parts negative _ hm (Nat.le_of_lt hlen)

/-- The numeral with its sign. -/
def signed (negative : Bool) (numeral : List Char) : List Char :=
  (if negative then ['-'] else []) ++ numeral

theorem parse_signed (negative : Bool) {c : Char} {rest : List Char} (hc : c.isDigit = true) :
    parse (signed negative (c :: rest)) = scan negative {} (c :: rest) := by
  cases negative with
  | true => rfl
  | false =>
    show parse (c :: rest) = scan false {} (c :: rest)
    unfold parse
    split
    · next heq =>
      obtain ⟨rfl, -⟩ := List.cons.inj heq
      exact absurd hc (by decide)
    · next heq =>
      obtain ⟨rfl, -⟩ := List.cons.inj heq
      exact absurd hc (by decide)
    · rfl

/-- What a numeral without an exponent is read as. -/
theorem parse_plain (negative : Bool) (hwhole : whole ≠ [])
    (hds : ∀ c ∈ whole ++ fraction, c.isDigit = true) (hlen : fraction.length < 28)
    (hm : Nat.ofDigitChars 10 (whole ++ fraction) 0 < 0x1000000000000000000000000) :
    ∃ d, parse (signed negative (plain whole fraction)) = .ok d ∧
      d.parts = (negative && Nat.ofDigitChars 10 (whole ++ fraction) 0 != 0,
        Nat.ofDigitChars 10 (whole ++ fraction) 0, fraction.length) := by
  have hscan := scan_plain negative hwhole hds hlen hm
  obtain ⟨c, rest, rfl⟩ := List.exists_cons_of_ne_nil hwhole
  have hparse : parse (signed negative (plain (c :: rest) fraction)) =
      scan negative {} (plain (c :: rest) fraction) :=
    parse_signed negative (hds c (by simp))
  rw [hparse]
  cases h : scan negative {} (plain (c :: rest) fraction) with
  | error e =>
    rw [h] at hscan
    cases hscan
  | ok d =>
    rw [h] at hscan
    exact ⟨d, rfl, Except.ok.inj hscan⟩

/-! ## Exponents -/

theorem isExponentMark_of_isDigit (hc : c.isDigit = true) : isExponentMark c = false := by
  cases hmark : isExponentMark c with
  | false => rfl
  | true =>
    rw [isExponentMark, Bool.or_eq_true, beq_iff_eq, beq_iff_eq] at hmark
    rcases hmark with rfl | rfl
    · exact absurd hc (by decide)
    · exact absurd hc (by decide)

/-- No character of a numeral marks an exponent. -/
theorem isExponentMark_of_mem (negative : Bool) (hds : ∀ c ∈ whole ++ fraction, c.isDigit = true)
    (hc : c ∈ signed negative (plain whole fraction)) : isExponentMark c = false := by
  rw [List.forall_mem_append] at hds
  rw [signed, plain] at hc
  rcases List.mem_append.mp hc with hsign | hc
  · cases negative with
    | true =>
      obtain rfl : c = '-' := List.mem_singleton.mp hsign
      rfl
    | false => cases hsign
  · rcases List.mem_append.mp hc with hc | hc
    · exact isExponentMark_of_isDigit (hds.1 c hc)
    · split at hc
      · cases hc
      · rcases List.mem_cons.mp hc with rfl | hc
        · rfl
        · exact isExponentMark_of_isDigit (hds.2 c hc)

/-- A numeral without an exponent has its digits as magnitude and its places as scale. -/
theorem ofString_plain {s : String} {negative : Bool}
    (hs : s.toList = signed negative (plain whole fraction)) (hwhole : whole ≠ [])
    (hds : ∀ c ∈ whole ++ fraction, c.isDigit = true) (hlen : fraction.length < 28) {m : Nat}
    (hm : Nat.ofDigitChars 10 (whole ++ fraction) 0 = m) (hlt : m < 0x1000000000000000000000000) :
    ∃ d, ofString s = .ok d ∧ d.parts = (negative && m != 0, m, fraction.length) := by
  have hmarks : ¬ s.toList.any isExponentMark = true := by
    rw [hs, List.any_eq_true, not_exists]
    rintro c ⟨hc, hmark⟩
    rw [isExponentMark_of_mem negative hds hc] at hmark
    cases hmark
  obtain ⟨d, hd, hparts⟩ := parse_plain negative hwhole hds hlen (hm ▸ hlt)
  rw [hm] at hparts
  refine ⟨d, ?_, hparts⟩
  rw [ofString, if_neg hmarks, hs, hd]

theorem foldlM_digits (hds : ∀ c ∈ ds, c.isDigit = true) (n : Nat) :
    ds.foldlM (fun n c => (digit? c).map (10 * n + ·)) n = some (Nat.ofDigitChars 10 ds n) := by
  induction ds generalizing n with
  | nil => rfl
  | cons c ds ih =>
    obtain ⟨hc, hds'⟩ := List.forall_mem_cons.mp hds
    rw [List.foldlM_cons, digit?_of_isDigit hc, Nat.ofDigitChars_cons]
    exact ih hds' _

theorem isDigit_toDigits (n : Nat) : ∀ c ∈ Nat.toDigits 10 n, c.isDigit = true :=
  fun _ hc => Nat.isDigit_of_mem_toDigits (by decide) (by decide) hc

theorem isDigit_replicate (n : Nat) : ∀ c ∈ List.replicate n '0', c.isDigit = true := by
  intro c hc
  rw [List.eq_of_mem_replicate hc]
  rfl

/-- The power of ten is a natural number of 32 bits. -/
theorem power?_eq (n : Nat) :
    power? (Nat.toDigits 10 n) = (if n < 0x100000000 then some n else none) ∧
      power? ('+' :: Nat.toDigits 10 n) = if n < 0x100000000 then some n else none := by
  have hne : Nat.toDigits 10 n ≠ [] := Nat.toDigits_ne_nil
  have hread : (if (Nat.toDigits 10 n).isEmpty then none else do
      let power ← (Nat.toDigits 10 n).foldlM (fun n c => (digit? c).map (10 * n + ·)) 0
      if power < 0x100000000 then some power else none) =
        if n < 0x100000000 then some n else none := by
    rw [if_neg (by simp), foldlM_digits (isDigit_toDigits n), Nat.ofDigitChars_ten_toDigits]
    rfl
  have hhead : (Nat.toDigits 10 n).head? ≠ some '+' := by
    intro h
    exact absurd (isDigit_toDigits n '+' (List.mem_of_mem_head? h)) (by decide)
  refine ⟨?_, hread⟩
  rw [power?, if_neg hhead]
  exact hread

section Scientific

variable {s : String} {numeral exponent : List Char} {d : Decimal}
  (hs : s.toList = numeral ++ 'e' :: exponent) (hmarks : ∀ c ∈ numeral, isExponentMark c = false)
  (hd : parse numeral = .ok d)

include hs

/-- A text with an exponent is read as one. -/
theorem ofString_marked : ofString s = parseScientific s.toList := by
  rw [ofString, if_pos]
  rw [hs]
  simp [isExponentMark]

include hmarks hd

/-- A numeral with an exponent is the numeral before it, shifted by the power. -/
theorem ofString_scientific {n : Nat} :
    (exponent = '-' :: Nat.toDigits 10 n →
      ofString s = if n < 0x100000000 then d.shiftDown n else .error .malformed) ∧
      (exponent = '+' :: Nat.toDigits 10 n →
        ofString s = if n < 0x100000000 then d.shiftUp n else .error .malformed) := by
  have hdrop : (numeral ++ 'e' :: exponent).dropWhile (fun c => !isExponentMark c) =
      'e' :: exponent := by
    rw [List.dropWhile_append_of_pos fun c hc => by rw [hmarks c hc]; rfl]
    rfl
  have htake : (numeral ++ 'e' :: exponent).takeWhile (fun c => !isExponentMark c) = numeral := by
    rw [List.takeWhile_append_of_pos fun c hc => by rw [hmarks c hc]; rfl]
    exact List.append_nil numeral
  obtain ⟨hpower, hpower'⟩ := power?_eq n
  rw [ofString_marked hs, hs, parseScientific, hdrop, htake]
  simp only [hd]
  constructor
  · rintro rfl
    simp only [List.head?_cons, beq_self_eq_true, if_true, List.drop_succ_cons, List.drop_zero,
      hpower]
    split_ifs <;> rfl
  · rintro rfl
    have hplus : (some '+' == some '-') = false := rfl
    simp only [List.head?_cons, hplus, Bool.false_eq_true, if_false, hpower']
    split_ifs <;> rfl

end Scientific

end Digits

end Rulebook.Decimal
