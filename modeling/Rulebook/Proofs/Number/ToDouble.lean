import Rulebook.Proofs.Number.Conversion
import Rulebook.Proofs.Number.ReadingBack

/-! # Decimals that become a given double

A decimal in the rounding interval of a double becomes that double if it is a whole number without a
scale (`toDouble?_of_whole`), or if it has less than sixteen digits and at most 22 places
(`toDouble?_of_fraction`): up to there all powers of ten are doubles, and the three roundings on the
way are off by less than half a unit of the last place.
-/

set_option autoImplicit false

namespace Rulebook

namespace Double

variable {x y : Double}

/-- Naturals of at most 53 bits, apart from factors of two, are doubles. -/
theorem nearest?_nat (negative : Bool) {n m t : Nat} (hn : n = m * 2 ^ t)
    (hm : m < 0x20000000000000) (ht : t ≤ 900) :
    ∃ x : Double, nearest? negative n 1 = some x ∧ x.magnitude = n := by
  rcases Nat.eq_zero_or_pos n with rfl | hpos
  · exact ⟨zero negative, nearest?_zero negative 1, by simp⟩
  · have hcast : (n : ℚ) / (1 : Nat) = m * 2 ^ (t : ℤ) := by
      rw [hn, zpow_natCast]
      push_cast
      ring
    have hbound : (n : ℚ) / (1 : Nat) ≤ 2 ^ (1023 : ℤ) := by
      rw [hcast]
      calc (m : ℚ) * 2 ^ (t : ℤ) ≤ 0x20000000000000 * 2 ^ (t : ℤ) := by
            refine mul_le_mul_of_nonneg_right ?_ (two_zpow_pos _).le
            exact_mod_cast hm.le
        _ = 2 ^ ((t : ℤ) + 53) := (two_zpow_add_53 _).symm
        _ ≤ 2 ^ (1023 : ℤ) := zpow_le_zpow_right₀ (by norm_num) (by omega)
    obtain ⟨x, hx, hmag⟩ := nearest?_exact negative hm (by omega) hpos Nat.one_pos hbound hcast
    exact ⟨x, hx, by rw [hmag, Nat.cast_one, div_one]⟩

theorem nearest?_tenPow (negative : Bool) {s : Nat} (hs : s ≤ 22) :
    ∃ x : Double, nearest? negative (tenPow s) 1 = some x ∧ x.magnitude = tenPow s := by
  refine nearest?_nat (m := 5 ^ s) (t := s) negative ?_ ?_ (by omega)
  · rw [tenPow_eq, ← Nat.mul_pow]
  · calc 5 ^ s ≤ 5 ^ 22 := Nat.pow_le_pow_right (by decide) hs
      _ < 0x20000000000000 := by decide

/-- A rounded result between fixed bounds, compared with the exact one. -/
theorem nearest?_near {num den : Nat} (hden : 0 < den) {v : ℚ} (hv : (num : ℚ) / den = v)
    (hlow : 1 / 10 ^ 30 ≤ v) (hhigh : v ≤ 10 ^ 40) :
    ∃ x : Double, nearest? false num den = some x ∧ |x.magnitude - v| ≤ v / 2 ^ 53 ∧
      v / 2 ≤ x.magnitude ∧ x.magnitude ≤ 2 * v := by
  have hmin : (2 : ℚ) ^ (-1022 : ℤ) ≤ 1 / 10 ^ 30 :=
    calc (2 : ℚ) ^ (-1022 : ℤ) ≤ 2 ^ (-100 : ℤ) := zpow_le_zpow_right₀ (by norm_num) (by decide)
      _ ≤ 1 / 10 ^ 30 := by norm_num
  have hmax : (10 : ℚ) ^ 40 ≤ 2 ^ (1023 : ℤ) :=
    calc (10 : ℚ) ^ 40 ≤ 2 ^ (200 : ℤ) := by norm_num
      _ ≤ 2 ^ (1023 : ℤ) := zpow_le_zpow_right₀ (by norm_num) (by decide)
  have hpos : 0 < v := lt_of_lt_of_le (by norm_num) hlow
  have hnum : 0 < num := by
    rcases Nat.eq_zero_or_pos num with rfl | hnum
    · rw [← hv] at hpos
      simp at hpos
    · exact hnum
  obtain ⟨x, hx, herr⟩ := nearest?_error false hnum hden (hv ▸ hmin.trans hlow)
    (hv ▸ hhigh.trans hmax)
  rw [hv] at herr
  obtain ⟨hup, hdown⟩ := abs_sub_le_iff.mp herr
  norm_num at hup hdown
  exact ⟨x, hx, herr, by linarith, by linarith⟩

/-- The rounding errors of a sum of integral and fractional part, scaled to the last place. -/
theorem scaled_sum_error {n w r f s p : ℚ} (hn : n = w + r) (hw : 0 ≤ w) (hlt : n ≤ 10 ^ 15)
    (hf : |f - r| ≤ r / 2 ^ 53) (hs : |s - (w + f)| ≤ (w + f) / 2 ^ 53)
    (hp : |p - s| ≤ s / 2 ^ 53) : |p - n| < 1 / 2 := by
  rw [abs_sub_le_iff] at hf hs hp
  norm_num at hf hs hp hlt
  rw [abs_sub_lt_iff]
  constructor <;> linarith

theorem scaled_error {a b c t : ℚ} (ht : 0 < t) (h : |a - b| ≤ b / c) :
    |a * t - b * t| ≤ b * t / c := by
  rw [← sub_mul, abs_mul, abs_of_pos ht, ← div_mul_eq_mul_div]
  exact mul_le_mul_of_nonneg_right h ht.le

/-- Fewer than sixteen digits come back from the sum of integral and fractional part. -/
theorem rounded_of_parts {whole rest unit : Double} {n : Nat}
    (hn : (n : ℚ) = whole.magnitude * unit.magnitude + rest.magnitude) (hlt : n < 10 ^ 15)
    (hrest : 1 ≤ rest.magnitude) (hunit : 1 ≤ unit.magnitude) (hunit' : unit.magnitude ≤ 10 ^ 22) :
    ∃ fraction sum product rounded : Double, rest.div? unit = some fraction ∧
      fraction.isZero = false ∧ whole.add? fraction = some sum ∧ sum.mul? unit = some product ∧
      product.round? = some rounded ∧ rounded.magnitude = n := by
  have hunit0 : 0 < unit.magnitude := lt_of_lt_of_le one_pos hunit
  have hwhole0 := whole.magnitude_nonneg
  have hscaled : 0 ≤ whole.magnitude * unit.magnitude := mul_nonneg hwhole0 hunit0.le
  have hn15 : (n : ℚ) ≤ 10 ^ 15 := by exact_mod_cast hlt.le
  have hwhole : whole.magnitude ≤ 10 ^ 15 := by
    have hle := le_mul_of_one_le_right hwhole0 hunit
    linarith
  have hquot : rest.magnitude / unit.magnitude ≤ 10 ^ 15 := by
    have hle := div_le_self (zero_le_one.trans hrest) hunit
    linarith
  have hquot' : 1 / 10 ^ 22 ≤ rest.magnitude / unit.magnitude :=
    div_le_div₀ (by linarith) hrest hunit0 hunit'
  have hmin : (1 : ℚ) / 10 ^ 30 ≤ 1 / 10 ^ 22 / 4 := by norm_num
  have hmax : (3 : ℚ) * 10 ^ 15 * 2 * 10 ^ 22 ≤ 10 ^ 40 := by norm_num
  have hmax' : (3 : ℚ) * 10 ^ 15 ≤ 10 ^ 40 := by norm_num
  obtain ⟨num, den, hden, hval, heq⟩ := div?_eq rest hunit0
  obtain ⟨fraction, hfraction, hferr, hflow, hfhigh⟩ := nearest?_near hden hval
    (by linarith) (by linarith)
  obtain ⟨num', den', hden', hval', heq'⟩ := add?_eq whole fraction
  obtain ⟨sum, hsum, hserr, hslow, hshigh⟩ := nearest?_near hden' hval' (by linarith) (by linarith)
  have hsum' : 1 / 10 ^ 22 / 4 ≤ sum.magnitude * unit.magnitude := by
    have hle := le_mul_of_one_le_right sum.magnitude_nonneg hunit
    linarith
  have hsum'' : sum.magnitude * unit.magnitude ≤ 3 * 10 ^ 15 * 2 * 10 ^ 22 :=
    mul_le_mul (by linarith) hunit' hunit0.le (by norm_num)
  obtain ⟨num'', den'', hden'', hval'', heq''⟩ := mul?_eq sum unit
  obtain ⟨product, hproduct, hperr, -, -⟩ := nearest?_near hden'' hval'' (hmin.trans hsum')
    (hsum''.trans hmax)
  have herror : |product.magnitude - n| < 1 / 2 := by
    have hfscaled := scaled_error hunit0 hferr
    have hsscaled := scaled_error hunit0 hserr
    rw [div_mul_cancel₀ _ hunit0.ne'] at hfscaled
    rw [add_mul] at hsscaled
    exact scaled_sum_error hn hscaled hn15 hfscaled hsscaled hperr
  have hround : roundHalfUp product.ratio.1 product.ratio.2 = n := by
    refine roundHalfUp_eq product.ratio_pos ?_
    rwa [ratio_eq]
  obtain ⟨rounded, hrounded, hmag⟩ := nearest?_nat (n := n) (m := n) (t := 0) false (by simp)
    (by omega) (by decide)
  refine ⟨fraction, sum, product, rounded, heq.trans hfraction, ?_, heq'.trans hsum,
    heq''.trans hproduct, ?_, hmag⟩
  · rw [Bool.eq_false_iff, ne_eq, ← magnitude_eq_zero_iff]
    have hpos : 0 < fraction.magnitude := by
      refine lt_of_lt_of_le ?_ hflow
      linarith
    exact hpos.ne'
  · rw [round?, hround, hrounded]

end Double

namespace Decimal

variable {d : Decimal} {x : Double}

theorem toDouble?_of_whole (hx : x.mantissa ≠ 0) (hscale : d.scale = 0)
    (hcovers : x.Covers d.magnitude) (hsign : d.negative = x.negative) :
    d.toDouble? = some x := by
  have hvalue : x.Covers ((d.magnitude / tenPow d.scale : Nat) / (1 : Nat)) := by
    rw [hscale, Nat.cast_one, div_one, tenPow_zero, Nat.div_one]
    exact hcovers
  have hwhole := Double.nearest?_of_covers false hx Nat.one_pos hvalue
  rw [toDouble?_of_scale_eq_zero hscale hwhole, hsign]
  rfl

theorem toDouble?_of_fraction (hx : x.mantissa ≠ 0) (hscale : d.scale ≠ 0) (hplaces : d.scale ≤ 22)
    (hdigits : d.magnitude < 10 ^ 15) (hrest : d.magnitude % tenPow d.scale ≠ 0)
    (hcovers : x.Covers (d.magnitude / tenPow d.scale)) (hsign : d.negative = x.negative) :
    d.toDouble? = some x := by
  have hfew {n : Nat} (h : n ≤ d.magnitude) :
      ∃ y : Double, Double.nearest? false n 1 = some y ∧ y.magnitude = n :=
    Double.nearest?_nat (m := n) (t := 0) false (by simp) (by omega) (by decide)
  obtain ⟨whole, hwhole, hwhole'⟩ := hfew (Nat.div_le_self d.magnitude (tenPow d.scale))
  obtain ⟨rest, hrest', hrest''⟩ := hfew (Nat.mod_le d.magnitude (tenPow d.scale))
  obtain ⟨unit, hunit, hunit'⟩ := Double.nearest?_tenPow false hplaces
  have hunit1 : 1 ≤ unit.magnitude := by
    rw [hunit']
    exact_mod_cast tenPow_pos d.scale
  have hunit22 : unit.magnitude ≤ 10 ^ 22 := by
    rw [hunit', cast_tenPow]
    exact pow_le_pow_right₀ (by norm_num) hplaces
  have hrest1 : 1 ≤ rest.magnitude := by
    rw [hrest'']
    exact_mod_cast Nat.one_le_iff_ne_zero.mpr hrest
  have hsplit : (d.magnitude : ℚ) = whole.magnitude * unit.magnitude + rest.magnitude := by
    rw [hwhole', hunit', hrest'']
    exact_mod_cast (Nat.div_add_mod' d.magnitude (tenPow d.scale)).symm
  obtain ⟨fraction, sum, product, rounded, hfraction, hzero, hsum, hproduct, hrounded, hmag⟩ :=
    Double.rounded_of_parts hsplit hdigits hrest1 hunit1 hunit22
  obtain ⟨num, den, hden, hval, heq⟩ := Double.div?_eq rounded (lt_of_lt_of_le one_pos hunit1)
  rw [hmag, hunit'] at hval
  have hresult : rounded.div? unit = some (x.withSign false) := by
    rw [heq]
    exact Double.nearest?_of_covers false hx hden (hval ▸ hcovers)
  rw [toDouble?_of_steps hscale hwhole hunit hrest' hfraction hsum hproduct hrounded hresult, hzero,
    hsign]
  rfl

end Decimal

end Rulebook
