import Rulebook.Proofs.Number.Rounding

/-! # Decimals as doubles

Arithmetic on doubles is exact up to one rounding (`add?_eq`, `mul?_eq`, `div?_eq`), and below the
greatest power of two it has a result. So every decimal has a double that stands for it in JSON
(`toDouble?_isSome`).
-/

set_option autoImplicit false

namespace Rulebook

/-- Rounding a half upwards is off by at most a half. -/
theorem abs_roundHalfUp_sub_le (num : Nat) {den : Nat} (hden : 0 < den) :
    |(roundHalfUp num den : ℚ) - num / den| ≤ 1 / 2 := by
  have hd : (0 : ℚ) < den := by exact_mod_cast hden
  have hdiv := Nat.div_add_mod (2 * num + den) (2 * den)
  have hmod := Nat.mod_lt (2 * num + den) (Nat.mul_pos (by decide : 0 < 2) hden)
  have hq : (2 * den : ℚ) * roundHalfUp num den + ((2 * num + den) % (2 * den) : Nat) =
      2 * num + den := by
    exact_mod_cast hdiv
  have hr : (((2 * num + den) % (2 * den) : Nat) : ℚ) < 2 * den := by exact_mod_cast hmod
  have hr0 : (0 : ℚ) ≤ ((2 * num + den) % (2 * den) : Nat) := Nat.cast_nonneg _
  rw [abs_sub_le_iff]
  constructor
  · rw [sub_le_iff_le_add, ← sub_le_iff_le_add', le_div_iff₀ hd]
    linarith
  · rw [sub_le_iff_le_add, div_le_iff₀ hd]
    linarith

/-- Rounding a half upwards does not pass a natural. -/
theorem roundHalfUp_le {num den n : Nat} (hden : 0 < den) (h : num ≤ n * den) :
    roundHalfUp num den ≤ n := by
  refine Nat.lt_succ_iff.mp ((Nat.div_lt_iff_lt_mul (by omega)).mpr ?_)
  have hmul : n.succ * (2 * den) = 2 * (n * den) + 2 * den := by
    rw [Nat.succ_mul, Nat.mul_left_comm]
  omega

theorem roundHalfUp_le_self (num : Nat) {den : Nat} (hden : 0 < den) : roundHalfUp num den ≤ num :=
  roundHalfUp_le hden (Nat.le_mul_of_pos_right num hden)

theorem roundHalfUp_eq {num den n : Nat} (hden : 0 < den) (h : |(num : ℚ) / den - n| < 1 / 2) :
    roundHalfUp num den = n := by
  have herr := abs_sub_le_iff.mp (abs_roundHalfUp_sub_le num hden)
  have hn := abs_sub_lt_iff.mp h
  have hlt : (roundHalfUp num den : ℚ) < n + 1 := by linarith
  have hgt : (n : ℚ) < roundHalfUp num den + 1 := by linarith
  have hlt' : roundHalfUp num den < n + 1 := by exact_mod_cast hlt
  have hgt' : n < roundHalfUp num den + 1 := by exact_mod_cast hgt
  omega

namespace Double

variable {num den : Nat} {x y : Double}

theorem nearest?_zero (negative : Bool) (den : Nat) :
    nearest? negative 0 den = some (zero negative) :=
  if_pos rfl

@[simp] theorem magnitude_zero (negative : Bool) : (zero negative).magnitude = 0 := by
  simp [magnitude, zero]

theorem magnitude_nonneg (x : Double) : 0 ≤ x.magnitude :=
  mul_nonneg (Nat.cast_nonneg _) (two_zpow_pos _).le

theorem magnitude_eq_zero_iff : x.magnitude = 0 ↔ x.isZero = true := by
  rw [magnitude, mul_eq_zero_iff_right (two_zpow_pos _).ne', isZero, beq_iff_eq, Nat.cast_eq_zero]

/-- A quotient below a power of two in range has a nearest double below it. -/
theorem nearest?_le (negative : Bool) (hden : 0 < den) {k : ℤ} (hk : -1074 ≤ k) (hk' : k ≤ 1023)
    (h : (num : ℚ) / den ≤ 2 ^ k) :
    ∃ x, nearest? negative num den = some x ∧ x.magnitude ≤ 2 ^ k := by
  rcases Nat.eq_zero_or_pos num with rfl | hnum
  · refine ⟨zero negative, nearest?_zero negative den, ?_⟩
    rw [magnitude_zero]
    exact (two_zpow_pos k).le
  · have hmax : (num : ℚ) / den ≤ 2 ^ (1023 : ℤ) :=
      h.trans (zpow_le_zpow_right₀ (by norm_num) hk')
    obtain ⟨x, hx, hbounds⟩ := nearest?_bounds negative hnum hden hmax
    exact ⟨x, hx, (hbounds k hk).1 h⟩

/-! ## Exact results

Sums, products and quotients are rounded from their exact values. -/

theorem add?_eq (x y : Double) : ∃ num den : Nat, 0 < den ∧
    (num : ℚ) / den = x.magnitude + y.magnitude ∧ x.add? y = nearest? false num den := by
  refine ⟨_, _, Nat.mul_pos x.ratio_pos y.ratio_pos, ?_, rfl⟩
  have hx : (x.ratio.2 : ℚ) ≠ 0 := by exact_mod_cast x.ratio_pos.ne'
  have hy : (y.ratio.2 : ℚ) ≠ 0 := by exact_mod_cast y.ratio_pos.ne'
  rw [← ratio_eq, ← ratio_eq]
  push_cast
  field_simp

theorem mul?_eq (x y : Double) : ∃ num den : Nat, 0 < den ∧
    (num : ℚ) / den = x.magnitude * y.magnitude ∧ x.mul? y = nearest? false num den := by
  refine ⟨_, _, Nat.mul_pos x.ratio_pos y.ratio_pos, ?_, rfl⟩
  have hx : (x.ratio.2 : ℚ) ≠ 0 := by exact_mod_cast x.ratio_pos.ne'
  have hy : (y.ratio.2 : ℚ) ≠ 0 := by exact_mod_cast y.ratio_pos.ne'
  rw [← ratio_eq, ← ratio_eq]
  push_cast
  field_simp

theorem div?_eq (x : Double) (hy : 0 < y.magnitude) : ∃ num den : Nat, 0 < den ∧
    (num : ℚ) / den = x.magnitude / y.magnitude ∧ x.div? y = nearest? false num den := by
  have hy1 : 0 < y.ratio.1 := by
    rw [← ratio_eq] at hy
    by_contra hzero
    obtain h0 : y.ratio.1 = 0 := by omega
    rw [h0] at hy
    simp at hy
  refine ⟨_, _, Nat.mul_pos x.ratio_pos hy1, ?_, rfl⟩
  have hx : (x.ratio.2 : ℚ) ≠ 0 := by exact_mod_cast x.ratio_pos.ne'
  have hy2 : (y.ratio.2 : ℚ) ≠ 0 := by exact_mod_cast y.ratio_pos.ne'
  have hy1' : (y.ratio.1 : ℚ) ≠ 0 := by exact_mod_cast hy1.ne'
  rw [← ratio_eq, ← ratio_eq]
  push_cast
  field_simp

/-! ## Bounds of results -/

variable {k l : ℤ}

theorem div?_le (hx : x.magnitude ≤ 2 ^ k) (hy : 2 ^ l ≤ y.magnitude) (hk : -1074 ≤ k - l)
    (hk' : k - l ≤ 1023) : ∃ z, x.div? y = some z ∧ z.magnitude ≤ 2 ^ (k - l) := by
  obtain ⟨num, den, hden, hval, heq⟩ := div?_eq x ((two_zpow_pos l).trans_le hy)
  rw [heq]
  refine nearest?_le false hden hk hk' ?_
  rw [hval, zpow_sub₀ (by decide)]
  exact div_le_div₀ (two_zpow_pos k).le hx (two_zpow_pos l) hy

theorem add?_le (hx : x.magnitude ≤ 2 ^ k) (hy : y.magnitude ≤ 2 ^ k) (hk : -1074 ≤ k)
    (hk' : k < 1023) : ∃ z, x.add? y = some z ∧ z.magnitude ≤ 2 ^ (k + 1) := by
  obtain ⟨num, den, hden, hval, heq⟩ := add?_eq x y
  rw [heq]
  refine nearest?_le false hden (by omega) hk' ?_
  rw [hval, two_zpow_succ]
  linarith

theorem mul?_le (hx : x.magnitude ≤ 2 ^ k) (hy : y.magnitude ≤ 2 ^ l) (hk : -1074 ≤ k + l)
    (hk' : k + l ≤ 1023) : ∃ z, x.mul? y = some z ∧ z.magnitude ≤ 2 ^ (k + l) := by
  obtain ⟨num, den, hden, hval, heq⟩ := mul?_eq x y
  rw [heq]
  refine nearest?_le false hden hk hk' ?_
  rw [hval, zpow_add₀ (by decide)]
  exact mul_le_mul hx hy y.magnitude_nonneg (two_zpow_pos k).le

theorem roundHalfUp_ratio_le (hx : x.magnitude ≤ 2 ^ k) (hk : 0 ≤ k) :
    (roundHalfUp x.ratio.1 x.ratio.2 : ℚ) ≤ 2 ^ k := by
  obtain ⟨n, rfl⟩ := Int.eq_ofNat_of_zero_le hk
  have hpos : (0 : ℚ) < x.ratio.2 := by exact_mod_cast x.ratio_pos
  rw [← ratio_eq, div_le_iff₀ hpos, zpow_natCast] at hx
  rw [zpow_natCast]
  exact_mod_cast roundHalfUp_le (n := 2 ^ n) x.ratio_pos (by exact_mod_cast hx)

theorem round?_le (hx : x.magnitude ≤ 2 ^ k) (hk : 0 ≤ k) (hk' : k ≤ 1023) :
    ∃ z, x.round? = some z ∧ z.magnitude ≤ 2 ^ k := by
  refine nearest?_le false Nat.one_pos (by omega) hk' ?_
  rw [Nat.cast_one, div_one]
  exact roundHalfUp_ratio_le hx hk

end Double

namespace Decimal

theorem tenPow_scale_le (d : Decimal) : (tenPow d.scale : ℚ) ≤ 2 ^ (94 : ℤ) := by
  have h : tenPow d.scale ≤ tenPow 28 := Nat.pow_le_pow_right (by decide) d.scale_le
  calc (tenPow d.scale : ℚ) ≤ (tenPow 28 : Nat) := by exact_mod_cast h
    _ ≤ 2 ^ (94 : ℤ) := by rw [tenPow_eq]; norm_num

theorem toDouble?_of_scale_eq_zero {d : Decimal} (h : d.scale = 0) {whole : Double}
    (hwhole : Double.nearest? false (d.magnitude / tenPow d.scale) 1 = some whole) :
    d.toDouble? = some (whole.withSign d.negative) := by
  rw [toDouble?]
  simp only [hwhole, Option.bind_eq_bind, Option.bind_some]
  rw [if_pos h]
  rfl

theorem toDouble?_of_steps {d : Decimal} (h : d.scale ≠ 0)
    {whole unit rest fraction sum product rounded result : Double}
    (hwhole : Double.nearest? false (d.magnitude / tenPow d.scale) 1 = some whole)
    (hunit : Double.nearest? false (tenPow d.scale) 1 = some unit)
    (hrest : Double.nearest? false (d.magnitude % tenPow d.scale) 1 = some rest)
    (hfraction : rest.div? unit = some fraction) (hsum : whole.add? fraction = some sum)
    (hproduct : sum.mul? unit = some product) (hrounded : product.round? = some rounded)
    (hresult : rounded.div? unit = some result) :
    d.toDouble? = some ((if fraction.isZero then whole else result).withSign d.negative) := by
  simp only [toDouble?, hwhole, hunit, hrest, Option.bind_eq_bind, Option.bind_some, h, if_false,
    hfraction]
  split
  · rfl
  · simp [hsum, hproduct, hrounded, hresult]

theorem toDouble?_isSome (d : Decimal) : ∃ x, d.toDouble? = some x := by
  have hpos : 0 < tenPow d.scale := tenPow_pos _
  have hpow := d.tenPow_scale_le
  have hmag : (d.magnitude : ℚ) ≤ 2 ^ (96 : ℤ) := by
    have h := d.magnitude_lt
    norm_num
    exact_mod_cast h.le
  obtain ⟨whole, hwhole, hwhole'⟩ : ∃ x, Double.nearest? false (d.magnitude / tenPow d.scale) 1 =
      some x ∧ x.magnitude ≤ 2 ^ (96 : ℤ) := by
    refine Double.nearest?_le false Nat.one_pos (by decide) (by decide) ?_
    rw [Nat.cast_one, div_one]
    exact le_trans (by exact_mod_cast Nat.div_le_self _ _) hmag
  obtain ⟨unit, hunit, hbounds⟩ := Double.nearest?_bounds false hpos Nat.one_pos (by
    rw [Nat.cast_one, div_one]
    exact hpow.trans (zpow_le_zpow_right₀ (by norm_num) (by decide)))
  rw [Nat.cast_one, div_one] at hbounds
  have hunit94 : unit.magnitude ≤ 2 ^ (94 : ℤ) := (hbounds 94 (by decide)).1 hpow
  have hunit0 : (2 : ℚ) ^ (0 : ℤ) ≤ unit.magnitude :=
    (hbounds 0 (by decide)).2 (by exact_mod_cast hpos)
  obtain ⟨rest, hrest, hrest'⟩ : ∃ x, Double.nearest? false (d.magnitude % tenPow d.scale) 1 =
      some x ∧ x.magnitude ≤ 2 ^ (94 : ℤ) := by
    refine Double.nearest?_le false Nat.one_pos (by decide) (by decide) ?_
    rw [Nat.cast_one, div_one]
    exact le_trans (by exact_mod_cast (Nat.mod_lt _ hpos).le) hpow
  obtain ⟨fraction, hfraction, hfraction'⟩ := Double.div?_le hrest' hunit0 (by decide) (by decide)
  obtain ⟨sum, hsum, hsum'⟩ := Double.add?_le hwhole'
    (hfraction'.trans (zpow_le_zpow_right₀ (by norm_num) (by decide))) (by decide) (by decide)
  obtain ⟨product, hproduct, hproduct'⟩ := Double.mul?_le hsum' hunit94 (by decide) (by decide)
  obtain ⟨rounded, hrounded, hrounded'⟩ := Double.round?_le hproduct' (by decide) (by decide)
  obtain ⟨result, hresult, -⟩ := Double.div?_le hrounded' hunit0 (by decide) (by decide)
  by_cases hscale : d.scale = 0
  · exact ⟨_, toDouble?_of_scale_eq_zero hscale hwhole⟩
  · exact ⟨_, toDouble?_of_steps hscale hwhole hunit hrest hfraction hsum hproduct hrounded hresult⟩

end Decimal

end Rulebook
