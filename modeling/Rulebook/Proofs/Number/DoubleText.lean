import Rulebook.Proofs.Number.Numeral
import Rulebook.Proofs.Number.Shortest

/-! # The text of a double as a decimal

The decimal that is read from the text of a double has the shortest digits as its magnitude and their
places after the point as its scale. Digits that end before the point are followed by `.0` up to the
sixteenth place, and are an integer from there on (`ofString_text`).
-/

set_option autoImplicit false

namespace Rulebook

open Decimal

namespace Double

/-! ## The layouts -/

variable {g : Digits}

/-- The place of the first digit. -/
def lead (g : Digits) : ℤ :=
  g.power + (Nat.toDigits 10 g.digits).length - 1

theorem layout_eq (g : Digits) : layout g =
    let digits := Nat.toDigits 10 g.digits
    if lead g < -5 ∨ 15 < lead g then
      let fraction := if digits.length = 1 then [] else '.' :: digits.drop 1
      let sign := if lead g < 0 then '-' else '+'
      String.ofList (digits.take 1 ++ fraction ++ ['e', sign]) ++ toString (lead g).natAbs
    else if lead g < 0 then
      String.ofList (['0', '.'] ++ List.replicate ((lead g).natAbs - 1) '0' ++ digits)
    else
      let whole := (lead g).toNat + 1
      let fraction := if digits.length ≤ whole then ['0'] else digits.drop whole
      String.ofList
        (digits.take whole ++ List.replicate (whole - digits.length) '0' ++ '.' :: fraction) :=
  rfl

theorem layout_scientific (h : lead g < -5 ∨ 15 < lead g) : (layout g).toList =
    plain ((Nat.toDigits 10 g.digits).take 1) ((Nat.toDigits 10 g.digits).drop 1) ++
      'e' :: (if lead g < 0 then '-' else '+') :: Nat.toDigits 10 (lead g).natAbs := by
  have hdigits : (Nat.toDigits 10 g.digits).drop 1 = [] ↔
      (Nat.toDigits 10 g.digits).length = 1 := by
    have hpos : 0 < (Nat.toDigits 10 g.digits).length := Nat.length_toDigits_pos
    rw [List.drop_eq_nil_iff]
    omega
  rw [layout_eq]
  simp only [if_pos h, plain, hdigits, String.toList_append, String.toList_ofList,
    Nat.toString_eq_ofList_toDigits]
  simp

theorem layout_small (hlow : -5 ≤ lead g) (hhigh : lead g < 0) : (layout g).toList =
    plain ['0'] (List.replicate ((lead g).natAbs - 1) '0' ++ Nat.toDigits 10 g.digits) := by
  have hscientific : ¬ (lead g < -5 ∨ 15 < lead g) := by omega
  rw [layout_eq]
  simp only [if_neg hscientific, if_pos hhigh, String.toList_ofList]
  rw [plain, if_neg (by simp)]
  rfl

theorem layout_whole (hlow : 0 ≤ lead g) (hhigh : lead g ≤ 15) (hp : 0 ≤ g.power) :
    (layout g).toList =
      plain (Nat.toDigits 10 g.digits ++ List.replicate g.power.toNat '0') ['0'] := by
  have hscientific : ¬ (lead g < -5 ∨ 15 < lead g) := by omega
  have hwhole : (lead g).toNat + 1 = g.power.toNat + (Nat.toDigits 10 g.digits).length := by
    unfold lead at *
    omega
  rw [layout_eq]
  simp only [if_neg hscientific, if_neg (not_lt.mpr hlow), hwhole, String.toList_ofList]
  rw [if_pos (Nat.le_add_left _ _), plain, if_neg (List.cons_ne_nil _ _),
    List.take_of_length_le (Nat.le_add_left _ _), Nat.add_sub_cancel]

theorem layout_mixed (hlow : 0 ≤ lead g) (hhigh : lead g ≤ 15) (hp : g.power < 0) :
    (layout g).toList = plain ((Nat.toDigits 10 g.digits).take ((lead g).toNat + 1))
      ((Nat.toDigits 10 g.digits).drop ((lead g).toNat + 1)) := by
  have hscientific : ¬ (lead g < -5 ∨ 15 < lead g) := by omega
  have hwhole : (lead g).toNat + 1 < (Nat.toDigits 10 g.digits).length := by
    unfold lead at *
    omega
  have hrest : (Nat.toDigits 10 g.digits).drop ((lead g).toNat + 1) ≠ [] := by
    rw [ne_eq, List.drop_eq_nil_iff]
    omega
  rw [layout_eq]
  simp only [if_neg hscientific, if_neg (not_lt.mpr hlow), String.toList_ofList]
  rw [plain, if_neg hrest, if_neg (not_le.mpr hwhole), Nat.sub_eq_zero_of_le hwhole.le]
  simp

theorem digits_lt (n : Nat) : n < 10 ^ (Nat.toDigits 10 n).length :=
  (Nat.length_toDigits_le_iff (by decide) Nat.length_toDigits_pos).mp le_rfl

theorem le_digits {n : Nat} (hn : 0 < n) : 10 ^ ((Nat.toDigits 10 n).length - 1) ≤ n := by
  rcases Nat.eq_zero_or_pos ((Nat.toDigits 10 n).length - 1) with hzero | hpos
  · rw [hzero]
    exact hn
  · by_contra hlt
    have hle := (Nat.length_toDigits_le_iff (b := 10) (by decide) hpos).mpr (not_le.mp hlt)
    omega

/-! ## Digits of the layouts -/

theorem isDigit_small (g : Digits) (zeros : Nat) :
    ∀ c ∈ ['0'] ++ (List.replicate zeros '0' ++ Nat.toDigits 10 g.digits), c.isDigit = true := by
  rw [List.forall_mem_append, List.forall_mem_append]
  exact ⟨isDigit_replicate 1, isDigit_replicate _, isDigit_toDigits _⟩

theorem ofDigitChars_small (g : Digits) (zeros : Nat) : Nat.ofDigitChars 10
    (['0'] ++ (List.replicate zeros '0' ++ Nat.toDigits 10 g.digits)) 0 = g.digits := by
  rw [Nat.ofDigitChars_append, Nat.ofDigitChars_append, Nat.ofDigitChars_replicate_zero]
  exact Nat.ofDigitChars_ten_toDigits

theorem length_small (hlow : -5 ≤ lead g) (hhigh : lead g < 0) :
    (List.replicate ((lead g).natAbs - 1) '0' ++ Nat.toDigits 10 g.digits).length =
      (-g.power).toNat := by
  have hlen : 0 < (Nat.toDigits 10 g.digits).length := Nat.length_toDigits_pos
  rw [List.length_append, List.length_replicate]
  unfold lead at *
  omega

theorem isDigit_whole (g : Digits) (zeros : Nat) :
    ∀ c ∈ (Nat.toDigits 10 g.digits ++ List.replicate zeros '0') ++ ['0'], c.isDigit = true := by
  rw [List.forall_mem_append, List.forall_mem_append]
  exact ⟨⟨isDigit_toDigits _, isDigit_replicate _⟩, isDigit_replicate 1⟩

theorem ofDigitChars_whole (g : Digits) (zeros : Nat) : Nat.ofDigitChars 10
    ((Nat.toDigits 10 g.digits ++ List.replicate zeros '0') ++ ['0']) 0 =
      g.digits * 10 ^ zeros * 10 := by
  rw [Nat.ofDigitChars_append, Nat.ofDigitChars_append, Nat.ofDigitChars_ten_toDigits,
    Nat.ofDigitChars_replicate_zero, Nat.mul_comm _ 10, Nat.mul_comm g.digits]
  rfl

theorem whole_lt (hhigh : lead g ≤ 15) (hp : 0 ≤ g.power) :
    g.digits * 10 ^ g.power.toNat < 10 ^ 16 := by
  calc g.digits * 10 ^ g.power.toNat
      < 10 ^ (Nat.toDigits 10 g.digits).length * 10 ^ g.power.toNat :=
        Nat.mul_lt_mul_of_pos_right (digits_lt _) (Nat.pow_pos (by decide))
    _ = 10 ^ ((Nat.toDigits 10 g.digits).length + g.power.toNat) := (pow_add _ _ _).symm
    _ ≤ 10 ^ 16 := by
      refine Nat.pow_le_pow_right (by decide) ?_
      unfold lead at *
      omega

theorem isDigit_split (g : Digits) (n : Nat) :
    ∀ c ∈ (Nat.toDigits 10 g.digits).take n ++ (Nat.toDigits 10 g.digits).drop n,
      c.isDigit = true := by
  rw [List.take_append_drop]
  exact isDigit_toDigits _

theorem ofDigitChars_split (g : Digits) (n : Nat) : Nat.ofDigitChars 10
    ((Nat.toDigits 10 g.digits).take n ++ (Nat.toDigits 10 g.digits).drop n) 0 = g.digits := by
  rw [List.take_append_drop, Nat.ofDigitChars_ten_toDigits]

theorem length_mixed (hlow : 0 ≤ lead g) (hp : g.power < 0) :
    ((Nat.toDigits 10 g.digits).drop ((lead g).toNat + 1)).length = (-g.power).toNat := by
  rw [List.length_drop]
  unfold lead at *
  omega

/-! ## Reading the layouts -/

section Reading

variable {s : String} {negative : Bool} {d : Decimal}

theorem ofString_layout {whole fraction : List Char} (h : (layout g).toList = plain whole fraction)
    (hs : s.toList = signed negative (layout g).toList) (hwhole : whole ≠ [])
    (hds : ∀ c ∈ whole ++ fraction, c.isDigit = true) (hlen : fraction.length < 28) {m : Nat}
    (hm : Nat.ofDigitChars 10 (whole ++ fraction) 0 = m) (hpos : 0 < m)
    (hlt : m < 0x1000000000000000000000000) :
    ∃ d, ofString s = .ok d ∧ d.parts = (negative, m, fraction.length) := by
  have hsign : (m != 0) = true := by simp [hpos.ne']
  have hread := ofString_plain (h ▸ hs) hwhole hds hlen hm hlt
  rwa [hsign, Bool.and_true] at hread

variable (hs : s.toList = signed negative (layout g).toList) (hpos : 0 < g.digits)
  (hdigits : (Nat.toDigits 10 g.digits).length ≤ 17)

include hs hpos hdigits

theorem ofString_small (hlow : -5 ≤ lead g) (hhigh : lead g < 0) :
    ∃ d, ofString s = .ok d ∧ d.parts = (negative, g.digits, (-g.power).toNat) := by
  have hlt := digits_lt g.digits
  have hlt' : 10 ^ (Nat.toDigits 10 g.digits).length ≤ 10 ^ 17 :=
    Nat.pow_le_pow_right (by decide) hdigits
  have hplaces := length_small hlow hhigh
  have hplaces' : (-g.power).toNat < 28 := by
    unfold lead at *
    omega
  rw [← hplaces] at hplaces' ⊢
  exact ofString_layout (layout_small hlow hhigh) hs (List.cons_ne_nil _ _) (isDigit_small g _)
    hplaces' (ofDigitChars_small g _) hpos (by omega)

omit hdigits in
theorem ofString_whole (hlow : 0 ≤ lead g) (hhigh : lead g ≤ 15) (hp : 0 ≤ g.power) :
    g.digits * 10 ^ g.power.toNat < 10 ^ 16 ∧
      ∃ d, ofString s = .ok d ∧
        d.parts = (negative, g.digits * 10 ^ g.power.toNat * 10, 1) := by
  have hlt := whole_lt hhigh hp
  have hne : Nat.toDigits 10 g.digits ++ List.replicate g.power.toNat '0' ≠ [] :=
    List.append_ne_nil_of_left_ne_nil Nat.toDigits_ne_nil _
  have hpos' : 0 < g.digits * 10 ^ g.power.toNat := Nat.mul_pos hpos (Nat.pow_pos (by decide))
  exact ⟨hlt, ofString_layout (layout_whole hlow hhigh hp) hs hne (isDigit_whole g _) (by decide)
    (ofDigitChars_whole g _) (by omega) (by omega)⟩

theorem ofString_mixed (hlow : 0 ≤ lead g) (hhigh : lead g ≤ 15) (hp : g.power < 0) :
    ∃ d, ofString s = .ok d ∧ d.parts = (negative, g.digits, (-g.power).toNat) := by
  have hlt := digits_lt g.digits
  have hlt' : 10 ^ (Nat.toDigits 10 g.digits).length ≤ 10 ^ 17 :=
    Nat.pow_le_pow_right (by decide) hdigits
  have hplaces := length_mixed hlow hp
  have hplaces' : (-g.power).toNat < 28 := by
    unfold lead at *
    omega
  have hne : (Nat.toDigits 10 g.digits).take ((lead g).toNat + 1) ≠ [] := by
    simp [Nat.toDigits_ne_nil]
  rw [← hplaces] at hplaces' ⊢
  exact ofString_layout (layout_mixed hlow hhigh hp) hs hne (isDigit_split g _) hplaces'
    (ofDigitChars_split g _) hpos (by omega)

/-- What stands before the exponent is shifted by the place of the first digit. -/
theorem ofString_exponent (hlead : lead g < -5 ∨ 15 < lead g) (hpower : (lead g).natAbs < 1000) :
    ∃ e : Decimal, e.parts = (negative, g.digits, (Nat.toDigits 10 g.digits).length - 1) ∧
      ofString s = if lead g < 0 then e.shiftDown (lead g).natAbs
        else e.shiftUp (lead g).natAbs := by
  have hlt := digits_lt g.digits
  have hlt' : 10 ^ (Nat.toDigits 10 g.digits).length ≤ 10 ^ 17 :=
    Nat.pow_le_pow_right (by decide) hdigits
  have hne : (Nat.toDigits 10 g.digits).take 1 ≠ [] := by
    simp [Nat.toDigits_ne_nil]
  have hds := isDigit_split g 1
  have hvalue := ofDigitChars_split g 1
  obtain ⟨e, he, hparts⟩ := parse_plain negative hne hds
    (by rw [List.length_drop]; omega) (by rw [hvalue]; omega)
  have hsign : (g.digits != 0) = true := by simp [hpos.ne']
  rw [hvalue, hsign, Bool.and_true, List.length_drop] at hparts
  have htext : s.toList = signed negative
      (plain ((Nat.toDigits 10 g.digits).take 1) ((Nat.toDigits 10 g.digits).drop 1)) ++
      'e' :: (if lead g < 0 then '-' else '+') :: Nat.toDigits 10 (lead g).natAbs := by
    rw [hs, layout_scientific hlead, signed, signed, List.append_assoc]
  obtain ⟨hdown, hup⟩ := ofString_scientific (n := (lead g).natAbs) htext
    (fun c hc => isExponentMark_of_mem negative hds hc) he
  have hshort : (lead g).natAbs < 0x100000000 := by omega
  refine ⟨e, hparts, ?_⟩
  split
  · next hneg => exact (hdown (by rw [if_pos hneg])).trans (if_pos hshort)
  · next hneg => exact (hup (by rw [if_neg hneg])).trans (if_pos hshort)

theorem parts_of_exponent (hlead : lead g < -5 ∨ 15 < lead g) (hpower : (lead g).natAbs < 1000)
    (hp : -28 ≤ g.power) (hd : ofString s = .ok d) :
    (g.power < 0 ∧ d.parts = (negative, g.digits, (-g.power).toNat)) ∨
      (0 ≤ g.power ∧ d.parts = (negative, g.digits * 10 ^ g.power.toNat, 0)) := by
  obtain ⟨e, hparts, heq⟩ := ofString_exponent hs hpos hdigits hlead hpower
  obtain ⟨hneg, hmag, hscale⟩ := parts_eq_iff.mp hparts
  have hlen : 0 < (Nat.toDigits 10 g.digits).length := Nat.length_toDigits_pos
  rw [heq] at hd
  unfold lead at *
  split at hd
  · left
    refine ⟨by omega, ?_⟩
    rw [shiftDown, if_neg (by omega), if_pos (by omega)] at hd
    have hscale' : e.scale + (g.power + (Nat.toDigits 10 g.digits).length - 1).natAbs =
        (-g.power).toNat := by omega
    rw [parts_of_ofParts hd, hneg, hmag, hscale']
  · right
    refine ⟨by omega, ?_⟩
    unfold shiftUp at hd
    split at hd
    · have hzero : g.power.toNat = 0 := by omega
      have hscale' : e.scale - (g.power + (Nat.toDigits 10 g.digits).length - 1).natAbs = 0 := by
        omega
      rw [parts_of_ofParts hd, hneg, hmag, hscale', hzero, pow_zero, Nat.mul_one]
    · split at hd
      · cases hd
      · have hscale' : (g.power + (Nat.toDigits 10 g.digits).length - 1).natAbs - e.scale =
            g.power.toNat := by omega
        rw [parts_of_ofParts hd, hneg, hmag, hscale', tenPow_eq]

end Reading

/-! ## The decimal of a text -/

variable {x : Double} {d : Decimal}

theorem highEnd_le (x : Double) : x.highEnd ≤ 2 ^ (1024 : ℤ) := by
  have hm : (x.mantissa : ℚ) + 1 ≤ 0x20000000000000 := by exact_mod_cast x.mantissa_lt
  calc x.highEnd ≤ 0x20000000000000 * 2 ^ x.exponent :=
        mul_le_mul_of_nonneg_right (by linarith) (two_zpow_pos _).le
    _ = 2 ^ (x.exponent + 53) := (two_zpow_add_53 _).symm
    _ ≤ 2 ^ (1024 : ℤ) := by
      refine zpow_le_zpow_right₀ (by norm_num) ?_
      have := x.exponent_le
      omega

/-- The value lies in the decade of its first digit. -/
theorem lead_spec (hpos : 0 < g.digits) :
    (10 : ℚ) ^ lead g ≤ g.value ∧ g.value < 10 ^ (lead g + 1) := by
  have hlen : 0 < (Nat.toDigits 10 g.digits).length := Nat.length_toDigits_pos
  have hlow : lead g = ((Nat.toDigits 10 g.digits).length - 1 : Nat) + g.power := by
    unfold lead
    omega
  have hhigh : lead g + 1 = (Nat.toDigits 10 g.digits).length + g.power := by
    unfold lead
    omega
  constructor
  · rw [hlow, zpow_add₀ (by decide), zpow_natCast]
    refine mul_le_mul_of_nonneg_right ?_ (ten_zpow_pos _).le
    exact_mod_cast le_digits hpos
  · rw [hhigh, zpow_add₀ (by decide), zpow_natCast]
    refine mul_lt_mul_of_pos_right ?_ (ten_zpow_pos _)
    exact_mod_cast digits_lt g.digits

theorem lead_le (hx : x.mantissa ≠ 0) : lead x.shortest ≤ 310 := by
  obtain ⟨hcovers, hpos, -, -⟩ := shortest_spec hx
  have hbound : (2 : ℚ) ^ (1024 : ℤ) ≤ 10 ^ (310 : ℤ) :=
    two_zpow_le_ten_zpow (by decide) (by decide)
  have hle := (((lead_spec hpos).1.trans hcovers.le_highEnd).trans x.highEnd_le).trans hbound
  exact (zpow_le_zpow_iff_right₀ (by norm_num)).mp hle

theorem shortest_digits (hx : x.mantissa ≠ 0) : 0 < x.shortest.digits ∧
    (Nat.toDigits 10 x.shortest.digits).length ≤ 17 := by
  obtain ⟨-, hpos, hlt, -⟩ := shortest_spec hx
  exact ⟨hpos, (Nat.length_toDigits_le_iff (by decide) (by decide)).mpr hlt⟩

theorem text_toList (hx : x.mantissa ≠ 0) :
    x.text.toList = signed x.negative (layout x.shortest).toList := by
  have hzero : ¬ x.isZero = true := by simpa [isZero] using hx
  rw [text, if_neg hzero, String.toList_append, signed]
  split <;> rfl

theorem text_toList_zero (hx : x.mantissa = 0) :
    x.text.toList = signed x.negative (plain ['0'] ['0']) := by
  have hzero : x.isZero = true := by simp [isZero, hx]
  rw [text, if_pos hzero, String.toList_append, signed]
  cases x.negative <;> rfl

/-- The text of a zero. -/
theorem ofString_zero (hx : x.mantissa = 0) :
    ∃ d, ofString x.text = .ok d ∧ d.parts = (false, 0, 1) := by
  have hread := ofString_plain (text_toList_zero hx) (List.cons_ne_nil _ _) (isDigit_replicate 2)
    (by decide) (m := 0) rfl (by decide)
  rwa [bne_self_eq_false, Bool.and_false] at hread

/-- The decimal of a text has the shortest digits, with up to one zero after them. -/
theorem ofString_text (hx : x.mantissa ≠ 0) (hp : -28 ≤ x.shortest.power)
    (hd : ofString x.text = .ok d) :
    (x.shortest.power < 0 ∧
      d.parts = (x.negative, x.shortest.digits, (-x.shortest.power).toNat)) ∨
    (0 ≤ x.shortest.power ∧
      (d.parts = (x.negative, x.shortest.digits * 10 ^ x.shortest.power.toNat, 0) ∨
        x.shortest.digits * 10 ^ x.shortest.power.toNat < 10 ^ 16 ∧
          d.parts = (x.negative, x.shortest.digits * 10 ^ x.shortest.power.toNat * 10, 1))) := by
  obtain ⟨hpos, hdigits⟩ := shortest_digits hx
  have htext := text_toList hx
  have hlead : lead x.shortest =
      x.shortest.power + (Nat.toDigits 10 x.shortest.digits).length - 1 := rfl
  have hlen : 0 < (Nat.toDigits 10 x.shortest.digits).length := Nat.length_toDigits_pos
  have hmax := lead_le hx
  by_cases hscientific : lead x.shortest < -5 ∨ 15 < lead x.shortest
  · exact (parts_of_exponent htext hpos hdigits hscientific (by omega) hp hd).imp_right
      fun h => ⟨h.1, .inl h.2⟩
  · rw [not_or, not_lt, not_lt] at hscientific
    rcases lt_or_ge (lead x.shortest) 0 with hsmall | hlarge
    · obtain ⟨e, he, hparts⟩ := ofString_small htext hpos hdigits hscientific.1 hsmall
      cases hd.symm.trans he
      exact .inl ⟨by omega, hparts⟩
    · rcases lt_or_ge x.shortest.power 0 with hfraction | hwhole
      · obtain ⟨e, he, hparts⟩ := ofString_mixed htext hpos hdigits hlarge hscientific.2 hfraction
        cases hd.symm.trans he
        exact .inl ⟨hfraction, hparts⟩
      · obtain ⟨hlt', e, he, hparts⟩ := ofString_whole htext hpos hlarge hscientific.2 hwhole
        cases hd.symm.trans he
        exact .inr ⟨hwhole, .inr ⟨hlt', hparts⟩⟩

end Double

end Rulebook
