import Rulebook.Proofs.Number.DoubleText
import Rulebook.Proofs.Number.Shift

/-! # The texts in which floats are printed

A float is printed as digits around a point, or as such a numeral with a power of ten behind it.
`FloatText` is such a text in its parts, `FloatText.value` the number that it denotes, digit by
digit, and `FloatText.Printed` the form that printing gives it; the text of every double has this
form (`Double.exists_floatText`).

Reading a text of this form loses no digit of the numeral: all that can fail or round is the shift
by the power of ten (`FloatText.Printed.ofString_text`).
-/

set_option autoImplicit false

namespace Rulebook

open Decimal

/-- A numeral with digits before and perhaps after a point, and perhaps a power of ten. -/
structure FloatText where
  negative : Bool
  whole : List Char
  fraction : List Char
  exponent : Option ℤ
deriving DecidableEq, Repr

namespace FloatText

/-- The numeral before the power of ten. -/
def numeral (t : FloatText) : List Char :=
  signed t.negative (plain t.whole t.fraction)

def mark : Option ℤ → List Char
  | none => []
  | some e => 'e' :: (if e < 0 then '-' else '+') :: Nat.toDigits 10 e.natAbs

def text (t : FloatText) : String :=
  String.ofList (t.numeral ++ mark t.exponent)

/-- The number that the digits spell without the point. -/
def significand (t : FloatText) : Nat :=
  Nat.ofDigitChars 10 (t.whole ++ t.fraction) 0

def power (t : FloatText) : ℤ :=
  t.exponent.getD 0

def magnitude (t : FloatText) : ℚ :=
  t.significand * 10 ^ (t.power - t.fraction.length)

/-- The number that the text denotes. -/
def value (t : FloatText) : ℚ :=
  if t.negative then -t.magnitude else t.magnitude

/-- Without a power of ten: `0.0`, or a number whose first digit stands between the fifth place
after the point and the sixteenth before it. -/
def IsPlain (t : FloatText) : Prop :=
  t.exponent = none ∧ t.whole ≠ [] ∧ t.fraction ≠ [] ∧
    (t.whole = ['0'] ∧ t.fraction = ['0'] ∨
      ∃ k : ℤ, -5 ≤ k ∧ k ≤ 15 ∧ 10 ^ k ≤ t.magnitude ∧ t.magnitude < 10 ^ (k + 1))

/-- With the place of the first digit as the power of ten, where that is none of these places: one
digit other than zero stands before the point. -/
def IsScientific (t : FloatText) : Prop :=
  ∃ e c, t.exponent = some e ∧ (e < -5 ∨ 15 < e) ∧ t.whole = [c] ∧ c ≠ '0'

/-- The form in which floats are printed, with at most 17 significant digits. -/
structure Printed (t : FloatText) : Prop where
  digits : ∀ c ∈ t.whole ++ t.fraction, c.isDigit = true
  significant : t.significand < 10 ^ 17
  layout : t.IsPlain ∨ t.IsScientific

variable {t : FloatText}

/-! ## Digits and places -/

theorem one_le_digit {c : Char} (hdigit : c.isDigit = true) (hc : c ≠ '0') :
    1 ≤ c.toNat - '0'.toNat := by
  by_contra hlt
  have hle : c.toNat ≤ '0'.toNat := by omega
  have hge : '0'.toNat ≤ c.toNat := by
    rw [Char.isDigit, Bool.and_eq_true, decide_eq_true_eq] at hdigit
    exact hdigit.1
  exact hc (Char.toNat_inj.mp (hle.antisymm hge))

theorem ofDigitChars_lt {ds : List Char} (hds : ∀ c ∈ ds, c.isDigit = true) (m : Nat) :
    Nat.ofDigitChars 10 ds m < 10 ^ ds.length * (m + 1) := by
  induction ds generalizing m with
  | nil => simp
  | cons c ds ih =>
    obtain ⟨hc, hds'⟩ := List.forall_mem_cons.mp hds
    have hdigit : c.toNat - '0'.toNat ≤ 9 := by
      rw [Char.isDigit, Bool.and_eq_true, decide_eq_true_eq, decide_eq_true_eq] at hc
      exact Nat.sub_le_sub_right hc.2 _
    rw [Nat.ofDigitChars_cons, List.length_cons]
    calc Nat.ofDigitChars 10 ds (10 * m + (c.toNat - '0'.toNat))
        < 10 ^ ds.length * (10 * m + (c.toNat - '0'.toNat) + 1) := ih hds' _
      _ ≤ 10 ^ ds.length * (10 * (m + 1)) := Nat.mul_le_mul_left _ (by omega)
      _ = 10 ^ (ds.length + 1) * (m + 1) := by ring

theorem IsScientific.le_significand (h : t.IsScientific)
    (hdigits : ∀ c ∈ t.whole ++ t.fraction, c.isDigit = true) :
    10 ^ t.fraction.length ≤ t.significand := by
  obtain ⟨e, c, -, -, hwhole, hc⟩ := h
  have hdigit : c.isDigit = true := hdigits c (by simp [hwhole])
  have hpos := one_le_digit hdigit hc
  rw [significand, hwhole, List.singleton_append, Nat.ofDigitChars_cons, Nat.mul_zero, Nat.zero_add,
    Nat.ofDigitChars_eq_ofDigitChars_zero]
  calc 10 ^ t.fraction.length ≤ 10 ^ t.fraction.length * (c.toNat - '0'.toNat) :=
        Nat.le_mul_of_pos_right _ hpos
    _ ≤ _ := Nat.le_add_right _ _

/-- A number of up to `n` digits has its first one at most that many places before its last. -/
theorem lt_of_le_magnitude {k : ℤ} {n : Nat} (hn : t.significand < 10 ^ n)
    (hlow : (10 : ℚ) ^ k ≤ t.magnitude) : k < n + (t.power - t.fraction.length) := by
  have hsignificand : (t.significand : ℚ) < 10 ^ n := by exact_mod_cast hn
  have hlt : (10 : ℚ) ^ k < 10 ^ (n + (t.power - t.fraction.length)) :=
    calc (10 : ℚ) ^ k ≤ t.significand * 10 ^ (t.power - t.fraction.length) := hlow
      _ < 10 ^ n * 10 ^ (t.power - t.fraction.length) :=
          mul_lt_mul_of_pos_right hsignificand (ten_zpow_pos _)
      _ = 10 ^ (n + (t.power - t.fraction.length)) := by
          rw [zpow_add₀ (by decide), zpow_natCast]
  exact (zpow_lt_zpow_iff_right₀ (by norm_num)).mp hlt

namespace Printed

theorem whole_ne (h : t.Printed) : t.whole ≠ [] := by
  rcases h.layout with ⟨-, hwhole, -⟩ | ⟨e, c, -, -, hwhole, -⟩
  · exact hwhole
  · rw [hwhole]
    exact List.cons_ne_nil c []

/-- Seventeen digits from the fifth place on end before the twenty-second. -/
theorem places_lt (h : t.Printed) : t.fraction.length < 22 := by
  rcases h.layout with ⟨hexponent, -, -, ⟨-, hfraction⟩ | ⟨k, hk, -, hlow, -⟩⟩ | hscientific
  · rw [hfraction]
    decide
  · have hexp := lt_of_le_magnitude h.significant hlow
    rw [power, hexponent, Option.getD_none] at hexp
    omega
  · have hlt := (hscientific.le_significand h.digits).trans_lt h.significant
    have hexp := (Nat.pow_lt_pow_iff_right (by decide)).mp hlt
    omega

/-! ## Reading -/

/-- No digit of the numeral is lost. -/
theorem parse_numeral (h : t.Printed) : ∃ d, parse t.numeral = .ok d ∧
    d.parts = (t.negative && t.significand != 0, t.significand, t.fraction.length) := by
  have hplaces := h.places_lt
  have hsignificant := h.significant
  exact parse_plain t.negative h.whole_ne h.digits (by omega) (by unfold significand at *; omega)

end Printed

end FloatText

namespace Decimal

/-- Reads a numeral without a power of ten, and where that fails one with it. -/
def parseEither (numeral : List Char) : Except DecimalError Decimal :=
  tryCatch (parse numeral) fun _ => parseScientific numeral

end Decimal

namespace FloatText

variable {t : FloatText} {d : Decimal}

theorem text_toList (t : FloatText) : t.text.toList = t.numeral ++ mark t.exponent :=
  String.toList_ofList

/-- The text is read as its numeral, shifted by the power of ten. -/
theorem Printed.ofString_text (h : t.Printed) {d : Decimal} (hd : parse t.numeral = .ok d) :
    ofString t.text = d.shift t.power := by
  have htext := t.text_toList
  have hmarks (c : Char) (hc : c ∈ t.numeral) : isExponentMark c = false :=
    isExponentMark_of_mem t.negative h.digits hc
  rw [power]
  cases hexponent : t.exponent with
  | none =>
    rw [hexponent, mark, List.append_nil] at htext
    have hplain : ¬ t.text.toList.any isExponentMark = true := by
      rw [htext, List.any_eq_true, not_exists]
      rintro c ⟨hc, hmark⟩
      rw [hmarks c hc] at hmark
      cases hmark
    rw [ofString, if_neg hplain, htext, hd, Option.getD_none, shift_zero]
  | some e =>
    rw [hexponent, mark] at htext
    obtain ⟨hdown, hup⟩ := ofString_scientific (n := e.natAbs) htext hmarks hd
    rw [Option.getD_some, shift]
    by_cases hneg : e < 0
    · rw [if_pos hneg]
      exact hdown (by rw [if_pos hneg])
    · rw [if_neg hneg]
      exact hup (by rw [if_neg hneg])

/-- A reader of numerals stops at the mark of an exponent. -/
theorem Printed.parse_marked (h : t.Printed) (rest : List Char) :
    parse (t.numeral ++ 'e' :: rest) = .error .malformed := by
  have hplaces := h.places_lt
  have hsignificant := h.significant
  have hscan := scan_plain_append t.negative ('e' :: rest) h.whole_ne h.digits (by omega)
    (by unfold significand at *; omega)
  obtain ⟨c, whole, hwhole⟩ := List.exists_cons_of_ne_nil h.whole_ne
  have hdigit : c.isDigit = true := h.digits c (by simp [hwhole])
  have hparse : parse (t.numeral ++ 'e' :: rest) =
      scan t.negative {} (plain t.whole t.fraction ++ 'e' :: rest) := by
    rw [numeral, signed, List.append_assoc, hwhole]
    exact parse_signed t.negative hdigit
  rw [hparse, hscan, scan]
  rfl

/-- Reading first without and then with a power of ten comes to the same. -/
theorem Printed.parseEither_text (h : t.Printed) :
    parseEither t.text.toList = ofString t.text := by
  obtain ⟨d, hd, -⟩ := h.parse_numeral
  have htext := t.text_toList
  cases hexponent : t.exponent with
  | none =>
    have hread := h.ofString_text hd
    rw [power, hexponent, Option.getD_none, shift_zero] at hread
    rw [hexponent, mark, List.append_nil] at htext
    rw [parseEither, hread, htext, hd]
    rfl
  | some e =>
    rw [hexponent, mark] at htext
    rw [parseEither, ofString_marked htext, htext, h.parse_marked]
    rfl

/-! ## Values -/

theorem abs_value (t : FloatText) : |t.value| = t.magnitude := by
  have hnonneg : 0 ≤ t.magnitude := by
    unfold magnitude
    positivity
  rw [value]
  split
  · rw [abs_neg, abs_of_nonneg hnonneg]
  · exact abs_of_nonneg hnonneg

theorem hasPlaces_value (h : t.fraction.length ≤ t.power + 28) : HasPlaces t.value := by
  have hplaces (n : ℤ) := hasPlaces_of_power n (k := t.power - t.fraction.length) (by omega)
  rw [value, magnitude]
  split
  · have hneg := hplaces (-t.significand)
    push_cast at hneg
    rwa [neg_mul] at hneg
  · exact hplaces t.significand

/-- The text denotes its numeral, times the power of ten. -/
theorem value_of_parts
    (h : d.parts = (t.negative && t.significand != 0, t.significand, t.fraction.length)) :
    t.value = d.value * 10 ^ t.power := by
  have hten : (10 : ℚ) ≠ 0 := by norm_num
  rw [Decimal.value_of_parts h, value, magnitude, cast_tenPow, zpow_sub₀ hten, zpow_natCast]
  by_cases hzero : t.significand = 0
  · simp [hzero]
  · have hsign : (t.negative && t.significand != 0) = t.negative := by
      rw [bne_iff_ne.mpr hzero, Bool.and_true]
    rw [hsign]
    split <;> ring

theorem Printed.ofString_error (h : t.Printed) (hd : ofString t.text = .ok d) :
    |d.value - t.value| ≤ 1 / 2 / 10 ^ 28 := by
  obtain ⟨e, he, hparts⟩ := h.parse_numeral
  rw [h.ofString_text he] at hd
  rw [value_of_parts hparts]
  exact shift_error hd

theorem Printed.exists_ofString_iff (h : t.Printed) :
    (∃ d, ofString t.text = .ok d) ↔ -28 ≤ t.power ∧ t.magnitude < 2 ^ 96 := by
  obtain ⟨d, hd, hparts⟩ := h.parse_numeral
  obtain ⟨-, hmag, hscale⟩ := parts_eq_iff.mp hparts
  have hvalue : |d.value| * 10 ^ t.power = t.magnitude := by
    rw [← t.abs_value, value_of_parts hparts, abs_mul, abs_of_pos (ten_zpow_pos _)]
  have hone : 1 ≤ |d.value| ∨ t.power = 0 := by
    rcases h.layout with ⟨hplain, -⟩ | hscientific
    · exact .inr (by rw [power, hplain, Option.getD_none])
    · refine .inl ?_
      rw [d.abs_value, one_le_div (cast_tenPow_pos _), hmag, hscale]
      exact_mod_cast hscientific.le_significand h.digits
  rw [h.ofString_text hd, exists_shift_iff hone, hvalue]

/-- A number that is not below `10 ^ k` has no smaller power of ten behind it. -/
theorem Printed.le_power (h : t.Printed) {k : ℤ} (hk : k ≤ 0) (hlow : (10 : ℚ) ^ k ≤ t.magnitude) :
    k ≤ t.power := by
  rcases h.layout with ⟨hplain, -⟩ | ⟨e, c, -, -, hwhole, -⟩
  · rwa [power, hplain, Option.getD_none]
  · have hlt := ofDigitChars_lt h.digits 0
    rw [hwhole, List.singleton_append, List.length_cons, Nat.zero_add, Nat.mul_one,
      ← List.singleton_append, ← hwhole] at hlt
    have hexp := lt_of_le_magnitude hlt hlow
    omega

/-- Without a power of ten every place is kept. -/
theorem Printed.exists_ofString_of_plain (h : t.Printed) (hplain : t.exponent = none) :
    ∃ d, ofString t.text = .ok d ∧ d.value = t.value := by
  obtain ⟨d, hd, hparts⟩ := h.parse_numeral
  have hpower : t.power = 0 := by rw [power, hplain, Option.getD_none]
  refine ⟨d, ?_, ?_⟩
  · rw [h.ofString_text hd, hpower, shift_zero]
  · rw [value_of_parts hparts, hpower, zpow_zero, mul_one]

/-! ## Doubles -/

/-- The digits of a number other than zero do not begin with a zero. -/
theorem toDigits_eq_cons {n : Nat} (hn : 0 < n) :
    ∃ c rest, Nat.toDigits 10 n = c :: rest ∧ c ≠ '0' := by
  obtain ⟨c, rest, hdigits⟩ := List.exists_cons_of_ne_nil (Nat.toDigits_ne_nil (n := n) (b := 10))
  refine ⟨c, rest, hdigits, ?_⟩
  rintro rfl
  have hle := Double.le_digits hn
  have hvalue : Nat.ofDigitChars 10 ('0' :: rest) 0 = n := by
    rw [← hdigits, Nat.ofDigitChars_ten_toDigits]
  have hdigit : ∀ c ∈ rest, c.isDigit = true := fun c hc =>
    isDigit_toDigits n c (by simp [hdigits, hc])
  have hrest := ofDigitChars_lt hdigit 0
  rw [hdigits, List.length_cons, Nat.add_sub_cancel] at hle
  rw [Nat.ofDigitChars_cons] at hvalue
  simp at hvalue
  omega

section Layout

variable {g : Digits} (negative : Bool)

/-- A text with the digits of a number and its value stands for its layout. -/
def Represents (t : FloatText) (negative : Bool) (g : Digits) : Prop :=
  t.Printed ∧ t.text.toList = signed negative (Double.layout g).toList ∧
    t.negative = negative ∧ t.magnitude = g.value

theorem exists_of_scientific (hpos : 0 < g.digits) (hsignificant : g.digits < 10 ^ 17)
    (hlead : Double.lead g < -5 ∨ 15 < Double.lead g) :
    ∃ t : FloatText, t.Represents negative g := by
  obtain ⟨c, rest, hcons, hc⟩ := toDigits_eq_cons hpos
  have hlen : 0 < (Nat.toDigits 10 g.digits).length := Nat.length_toDigits_pos
  refine ⟨⟨negative, (Nat.toDigits 10 g.digits).take 1, (Nat.toDigits 10 g.digits).drop 1,
    some (Double.lead g)⟩, ⟨Double.isDigit_split g 1, ?_, .inr ⟨_, c, rfl, hlead, ?_, hc⟩⟩,
    ?_, rfl, ?_⟩
  · rwa [significand, Double.ofDigitChars_split]
  · rw [hcons]
    rfl
  · rw [text_toList, numeral, mark, Double.layout_scientific hlead, signed, signed,
      List.append_assoc]
  · rw [magnitude, significand, Double.ofDigitChars_split, Digits.value, power, Option.getD_some,
      List.length_drop, Double.lead]
    congr 2
    omega

theorem exists_of_plain (hpos : 0 < g.digits) (hlow : -5 ≤ Double.lead g)
    (hhigh : Double.lead g ≤ 15) {whole fraction : List Char}
    (hlayout : (Double.layout g).toList = plain whole fraction) (hwhole : whole ≠ [])
    (hfraction : fraction ≠ []) (hds : ∀ c ∈ whole ++ fraction, c.isDigit = true) {m : Nat}
    (hm : Nat.ofDigitChars 10 (whole ++ fraction) 0 = m) (hsignificant : m < 10 ^ 17)
    (hvalue : (m : ℚ) * 10 ^ (-fraction.length : ℤ) = g.value) :
    ∃ t : FloatText, t.Represents negative g := by
  have hmagnitude : magnitude ⟨negative, whole, fraction, none⟩ = g.value := by
    rw [magnitude, significand, hm, ← hvalue, power, Option.getD_none, zero_sub]
  refine ⟨⟨negative, whole, fraction, none⟩, ⟨hds, ?_, .inl ⟨rfl, hwhole, hfraction,
    .inr ⟨Double.lead g, hlow, hhigh, ?_⟩⟩⟩, ?_, rfl, hmagnitude⟩
  · rwa [significand, hm]
  · rw [hmagnitude]
    exact Double.lead_spec hpos
  · rw [text_toList, numeral, mark, List.append_nil, hlayout]

/-- The layout of up to 17 digits has the printed form and denotes their value. -/
theorem exists_of_layout (hpos : 0 < g.digits) (hdigits : (Nat.toDigits 10 g.digits).length ≤ 17) :
    ∃ t : FloatText, t.Represents negative g := by
  have hsignificant : g.digits < 10 ^ 17 :=
    (Double.digits_lt g.digits).trans_le (Nat.pow_le_pow_right (by decide) hdigits)
  have hlen : 0 < (Nat.toDigits 10 g.digits).length := Nat.length_toDigits_pos
  have hlead : Double.lead g = g.power + (Nat.toDigits 10 g.digits).length - 1 := rfl
  -- The cases are the four layouts: by the place of the first digit, then by that of the last.
  by_cases hscientific : Double.lead g < -5 ∨ 15 < Double.lead g
  · exact exists_of_scientific negative hpos hsignificant hscientific
  · rw [not_or, not_lt, not_lt] at hscientific
    obtain ⟨hlow, hhigh⟩ := hscientific
    have hvalue (hp : g.power < 0) :
        (g.digits : ℚ) * 10 ^ (-(-g.power).toNat : ℤ) = g.value := by
      rw [Digits.value]
      congr 2
      omega
    rcases lt_or_ge (Double.lead g) 0 with hsmall | hlarge
    · have hp : g.power < 0 := by omega
      refine exists_of_plain negative hpos hlow hhigh (Double.layout_small hlow hsmall)
        (List.cons_ne_nil _ _) (by simp) (Double.isDigit_small g _)
        (Double.ofDigitChars_small g _) hsignificant ?_
      rw [Double.length_small hlow hsmall]
      exact hvalue hp
    · rcases lt_or_ge g.power 0 with hp | hp
      · refine exists_of_plain negative hpos hlow hhigh (Double.layout_mixed hlarge hhigh hp)
          (by simp) (by simp; omega) (Double.isDigit_split g _) (Double.ofDigitChars_split g _)
          hsignificant ?_
        rw [Double.length_mixed hlarge hp]
        exact hvalue hp
      · have hlt := Double.whole_lt hhigh hp
        obtain ⟨n, hn⟩ := Int.eq_ofNat_of_zero_le hp
        refine exists_of_plain negative hpos hlow hhigh (Double.layout_whole hlarge hhigh hp)
          (by simp) (List.cons_ne_nil _ _) (Double.isDigit_whole g _)
          (Double.ofDigitChars_whole g _) (by omega) ?_
        rw [Digits.value, hn, Int.toNat_natCast, zpow_natCast, List.length_singleton]
        push_cast
        ring

end Layout

end FloatText

namespace Double

variable {x : Double}

/-- The text of a double has the printed form, and unless the double is zero, the number that it
denotes is rounded to the double. -/
theorem exists_floatText (x : Double) : ∃ t : FloatText, t.Printed ∧ t.text = x.text ∧
    (x.mantissa ≠ 0 → t.negative = x.negative ∧ x.Covers t.magnitude) := by
  rcases eq_or_ne x.mantissa 0 with hzero | hx
  · have hdigits : Nat.ofDigitChars 10 ['0', '0'] 0 < 10 ^ 17 := by decide
    refine ⟨⟨x.negative, ['0'], ['0'], none⟩, ⟨isDigit_replicate 2, hdigits, .inl ⟨rfl,
      List.cons_ne_nil _ _, List.cons_ne_nil _ _, .inl ⟨rfl, rfl⟩⟩⟩, ?_, fun hx => absurd hzero hx⟩
    rw [← String.toList_inj, text_toList_zero hzero, FloatText.text_toList, FloatText.numeral,
      FloatText.mark, List.append_nil]
  · obtain ⟨hpos, hdigits⟩ := shortest_digits hx
    obtain ⟨t, hprinted, htext, hnegative, hmagnitude⟩ :=
      FloatText.exists_of_layout x.negative hpos hdigits
    refine ⟨t, hprinted, String.toList_inj.mp (htext.trans (text_toList hx).symm), fun _ =>
      ⟨hnegative, ?_⟩⟩
    rw [hmagnitude]
    exact (shortest_spec hx).1

end Double

end Rulebook
