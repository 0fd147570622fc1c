import Mathlib.Data.Nat.Cast.Order.Field
import Rulebook.Proofs.Number.FloatText

/-! # Doubles with a decimal form

Between `2 ^ -92` and `2 ^ 96` the text of every double is read as a decimal
(`exists_ofString_of_magnitude`). So are the texts of the doubles that decimals with places after
the point become, though some of these doubles are smaller (`exists_ofString_of_places`).
-/

set_option autoImplicit false

namespace Rulebook

/-! ## Doubles whose texts are read -/

namespace Double

variable {x : Double}

/-- The rounding interval of a double below `2 ^ 96` lies below it as a whole. -/
theorem highEnd_lt (hx : x.magnitude < 2 ^ (96 : ℤ)) : x.highEnd < 2 ^ (96 : ℤ) := by
  have hp := two_zpow_pos x.exponent
  have hexp : x.exponent ≤ 43 := by
    rcases x.canonical with ⟨-, hmin⟩ | ⟨hnormal, -⟩
    · omega
    · have hlow : (2 : ℚ) ^ (x.exponent + 52) ≤ x.magnitude := by
        rw [two_zpow_add_52]
        exact mul_le_mul_of_nonneg_right (by exact_mod_cast hnormal) hp.le
      have hlt := (zpow_lt_zpow_iff_right₀ (by norm_num : (1 : ℚ) < 2)).mp (hlow.trans_lt hx)
      omega
  have hm : (x.mantissa : ℚ) + 1 ≤ 0x20000000000000 := by exact_mod_cast x.mantissa_lt
  calc x.highEnd < 0x20000000000000 * 2 ^ x.exponent :=
        mul_lt_mul_of_pos_right (by linarith) hp
    _ = 2 ^ (x.exponent + 53) := (two_zpow_add_53 _).symm
    _ ≤ 2 ^ (96 : ℤ) := zpow_le_zpow_right₀ (by norm_num) (by omega)

theorem half_magnitude_le (hx : x.mantissa ≠ 0) : x.magnitude / 2 ≤ x.lowEnd := by
  have hm : (1 : ℚ) ≤ x.mantissa := by exact_mod_cast Nat.one_le_iff_ne_zero.mpr hx
  refine le_trans ?_ x.lowEnd_ge
  rw [magnitude, mul_div_right_comm]
  exact mul_le_mul_of_nonneg_right (by linarith) (two_zpow_pos _).le

theorem le_lead (hx : x.mantissa ≠ 0) : -325 ≤ lead x.shortest := by
  have hcovers := (shortest_spec hx).1
  have hleast : (2 : ℚ) ^ (-1074 : ℤ) ≤ x.magnitude := by
    have hm : (1 : ℚ) ≤ x.mantissa := by exact_mod_cast Nat.one_le_iff_ne_zero.mpr hx
    calc (2 : ℚ) ^ (-1074 : ℤ) ≤ 2 ^ x.exponent :=
          zpow_le_zpow_right₀ (by norm_num) x.exponent_ge
      _ ≤ x.magnitude := le_mul_of_one_le_left (two_zpow_pos _).le hm
  have hlow : (10 : ℚ) ^ (-325 : ℤ) < 10 ^ (lead x.shortest + 1) :=
    calc (10 : ℚ) ^ (-325 : ℤ) ≤ 2 ^ (-1075 : ℤ) :=
          ten_zpow_le_two_zpow (by decide) (by decide)
      _ = 2 ^ (-1074 : ℤ) / 2 := zpow_sub_one₀ (by decide) (-1074)
      _ ≤ x.magnitude / 2 := by gcongr
      _ ≤ x.lowEnd := half_magnitude_le hx
      _ ≤ x.shortest.value := hcovers.lowEnd_le
      _ < 10 ^ (lead x.shortest + 1) := (lead_spec (shortest_digits hx).1).2
  have hexp := (zpow_lt_zpow_iff_right₀ (by norm_num)).mp hlow
  omega

/-- Zero and the doubles from `2 ^ -92` up to `2 ^ 96` have a decimal form. -/
theorem exists_ofString_of_magnitude
    (h : x.magnitude = 0 ∨ (2 : ℚ) ^ (-92 : ℤ) ≤ x.magnitude ∧ x.magnitude < 2 ^ (96 : ℤ)) :
    ∃ d, Decimal.ofString x.text = .ok d := by
  rcases eq_or_ne x.mantissa 0 with hzero | hx
  · obtain ⟨d, hd, -⟩ := ofString_zero hzero
    exact ⟨d, hd⟩
  · obtain ⟨hlow, hhigh⟩ := h.resolve_left (magnitude_pos hx).ne'
    obtain ⟨t, hprinted, htext, hdenotes⟩ := x.exists_floatText
    have hcovers := (hdenotes hx).2
    have hleast : (10 : ℚ) ^ (-28 : ℤ) ≤ t.magnitude :=
      calc (10 : ℚ) ^ (-28 : ℤ) ≤ 2 ^ (-92 : ℤ) / 2 := by norm_num
        _ ≤ x.magnitude / 2 := by gcongr
        _ ≤ x.lowEnd := half_magnitude_le hx
        _ ≤ t.magnitude := hcovers.lowEnd_le
    have hmost : t.magnitude < 2 ^ (96 : ℤ) := hcovers.le_highEnd.trans_lt (highEnd_lt hhigh)
    rw [← htext, hprinted.exists_ofString_iff]
    exact ⟨hprinted.le_power (by decide) hleast, by exact_mod_cast hmost⟩

/-! ## Doubles of decimals with places -/

variable {y z : Double} {i j k l : ℤ}

theorem two_zpow_le_div? (hx : 2 ^ i ≤ x.magnitude) (hx' : x.magnitude ≤ 2 ^ j)
    (hy : 1 ≤ y.magnitude) (hy' : y.magnitude ≤ 2 ^ l) (hi : -1074 ≤ i - l) (hj : j ≤ 1023)
    (hz : x.div? y = some z) : 2 ^ (i - l) ≤ z.magnitude := by
  have hpos : 0 < y.magnitude := lt_of_lt_of_le one_pos hy
  obtain ⟨num, den, hden, hval, heq⟩ := div?_eq x hpos
  have hlow : (2 : ℚ) ^ (i - l) ≤ num / den := by
    rw [hval, zpow_sub₀ (by decide)]
    exact div_le_div₀ x.magnitude_nonneg hx hpos hy'
  have hhigh : (num : ℚ) / den ≤ 2 ^ (1023 : ℤ) := by
    rw [hval]
    refine (div_le_self x.magnitude_nonneg hy).trans (hx'.trans ?_)
    exact zpow_le_zpow_right₀ (by norm_num) hj
  have hnum : 0 < num := by
    rcases Nat.eq_zero_or_pos num with rfl | hnum
    · simp at hlow
      linarith [two_zpow_pos (i - l)]
    · exact hnum
  obtain ⟨w, hw, hbounds⟩ := nearest?_bounds false hnum hden hhigh
  cases (heq.trans hw).symm.trans hz
  exact (hbounds (i - l) hi).2 hlow

/-- A natural number becomes a double between the same powers of two. -/
theorem nearest?_natCast {n : Nat} (hn : (n : ℚ) ≤ 2 ^ k) (hk : 0 ≤ k) (hk' : k ≤ 1023) :
    ∃ x, nearest? false n 1 = some x ∧ x.magnitude ≤ 2 ^ k ∧
      ∀ j : ℤ, 0 ≤ j → (2 : ℚ) ^ j ≤ n → 2 ^ j ≤ x.magnitude := by
  rcases Nat.eq_zero_or_pos n with rfl | hpos
  · refine ⟨zero false, nearest?_zero false 1, ?_, fun j hj h => ?_⟩
    · rw [magnitude_zero]
      exact (two_zpow_pos k).le
    · linarith [two_zpow_pos j, (Nat.cast_zero : ((0 : Nat) : ℚ) = 0)]
  · obtain ⟨x, hx, hbounds⟩ := nearest?_bounds false hpos Nat.one_pos (by
      rw [Nat.cast_one, div_one]
      exact hn.trans (zpow_le_zpow_right₀ (by norm_num) hk'))
    rw [Nat.cast_one, div_one] at hbounds
    exact ⟨x, hx, (hbounds k (by omega)).1 hn, fun j hj => (hbounds j (by omega)).2⟩

/-- Powers of ten lie between two powers of two, one next to the other. -/
theorem tenPow_between {s : Nat} (hs : s ≠ 0) (hs' : s ≤ 28) : ∃ k : ℤ, 3 ≤ k ∧ k ≤ 93 ∧
    (s < 28 → k ≤ 89) ∧ (2 : ℚ) ^ k ≤ tenPow s ∧ (tenPow s : ℚ) ≤ 2 ^ (k + 1) := by
  have hlow := pow_log2_le (tenPow_pos s)
  have hhigh := lt_pow_log2 (tenPow s)
  have hbelow {t : Nat} {l : ℤ} (hst : s ≤ t) (hl : (10 : ℚ) ^ t < 2 ^ l) :
      ((tenPow s).log2 : ℤ) < l := by
    refine (zpow_lt_zpow_iff_right₀ (by norm_num : (1 : ℚ) < 2)).mp (hlow.trans_lt ?_)
    rw [cast_tenPow]
    exact (pow_le_pow_right₀ (by norm_num) hst).trans_lt hl
  refine ⟨(tenPow s).log2, ?_, ?_, fun hfew => ?_, hlow, hhigh.le⟩
  · have hten : (2 : ℚ) ^ (3 : ℤ) < 2 ^ (((tenPow s).log2 : ℤ) + 1) :=
      calc (2 : ℚ) ^ (3 : ℤ) < 10 := by norm_num
        _ ≤ tenPow s := by
          rw [cast_tenPow]
          exact le_self_pow₀ (by norm_num) hs
        _ < _ := hhigh
    have hexp := (zpow_lt_zpow_iff_right₀ (by norm_num : (1 : ℚ) < 2)).mp hten
    omega
  · have hexp := hbelow (l := 94) hs' (by norm_num)
    omega
  · have hexp := hbelow (t := 27) (l := 90) (by omega) (by norm_num)
    omega

end Double

namespace Decimal

open Double

variable {d : Decimal}

/-- A decimal with places becomes the double of a natural number, or the quotient of one and the
double of a power of ten. -/
theorem toDouble?_of_places (hscale : d.scale ≠ 0) : ∃ x : Double,
    d.toDouble? = some (x.withSign d.negative) ∧ x.magnitude < 2 ^ (96 : ℤ) ∧
      ((∃ n : Nat, (n : ℚ) ≤ 2 ^ (96 : ℤ) ∧ nearest? false n 1 = some x) ∨
        ∃ (n : Nat) (unit rounded : Double), (n : ℚ) ≤ 2 ^ (98 : ℤ) ∧
          nearest? false (tenPow d.scale) 1 = some unit ∧ nearest? false n 1 = some rounded ∧
            rounded.div? unit = some x) := by
  obtain ⟨k, hk, hk', -, hlow, hhigh⟩ := tenPow_between hscale d.scale_le
  have hquotient : ((d.magnitude / tenPow d.scale : Nat) : ℚ) ≤ 2 ^ (96 - k) := by
    rw [zpow_sub₀ (by decide)]
    refine Nat.cast_div_le.trans (div_le_div₀ (two_zpow_pos 96).le ?_ (two_zpow_pos k) hlow)
    norm_num
    exact_mod_cast d.magnitude_lt.le
  have hremainder : ((d.magnitude % tenPow d.scale : Nat) : ℚ) ≤ 2 ^ (k + 1) :=
    le_trans (by exact_mod_cast (Nat.mod_lt _ (tenPow_pos _)).le) hhigh
  obtain ⟨whole, hwhole, hwhole', -⟩ := nearest?_natCast hquotient (by omega) (by omega)
  obtain ⟨unit, hunit, hunit', hunits⟩ := nearest?_natCast hhigh (by omega) (by omega)
  have hunit'' := hunits k (by omega) hlow
  obtain ⟨rest, hrest, hrest', -⟩ := nearest?_natCast hremainder (by omega) (by omega)
  -- The fraction is at most two, so the sum is scaled to at most `2 ^ 98`.
  obtain ⟨fraction, hfraction, hfraction'⟩ := div?_le hrest' hunit'' (by omega) (by omega)
  obtain ⟨sum, hsum, hsum'⟩ := add?_le hwhole'
    (hfraction'.trans (zpow_le_zpow_right₀ (by norm_num) (by omega))) (by omega) (by omega)
  obtain ⟨product, hproduct, hproduct'⟩ := mul?_le hsum' hunit' (by omega) (by omega)
  have hscaled : 96 - k + 1 + (k + 1) = 98 := by omega
  rw [hscaled] at hproduct'
  obtain ⟨rounded, hrounded, hrounded'⟩ := round?_le hproduct' (by decide) (by decide)
  obtain ⟨result, hresult, hresult'⟩ := div?_le hrounded' hunit'' (by omega) (by omega)
  have hbelow {m : ℤ} (hm : m ≤ 95) {v : ℚ} (hv : v ≤ 2 ^ m) : v < 2 ^ (96 : ℤ) :=
    hv.trans_lt (zpow_lt_zpow_right₀ (by norm_num) (by omega))
  have hsteps := toDouble?_of_steps hscale hwhole hunit hrest hfraction hsum hproduct hrounded
    hresult
  cases hzero : fraction.isZero with
  | true =>
    rw [hzero] at hsteps
    exact ⟨whole, hsteps, hbelow (by omega) hwhole', .inl ⟨_, (hbelow (by omega) hquotient).le,
      hwhole⟩⟩
  | false =>
    rw [hzero] at hsteps
    exact ⟨result, hsteps, hbelow (by omega) hresult', .inr ⟨_, unit, rounded,
      roundHalfUp_ratio_le hproduct' (by decide), hunit, hrounded, hresult⟩⟩

variable {n s : Nat} {unit rounded x : Double}

/-- The texts of whole doubles below `2 ^ 96` are read. -/
theorem exists_ofString_of_nat (negative : Bool) (hn : (n : ℚ) ≤ 2 ^ (96 : ℤ))
    (hx : nearest? false n 1 = some x) (hlt : x.magnitude < 2 ^ (96 : ℤ)) :
    ∃ e, ofString (x.withSign negative).text = .ok e := by
  obtain ⟨y, hy, -, hge⟩ := nearest?_natCast hn (by decide) (by decide)
  cases hx.symm.trans hy
  rcases Nat.eq_zero_or_pos n with rfl | hpos
  · cases (nearest?_zero false 1).symm.trans hx
    exact exists_ofString_of_magnitude (.inl (magnitude_zero negative))
  · refine exists_ofString_of_magnitude (.inr ⟨le_trans ?_ (hge 0 le_rfl ?_), hlt⟩)
    · norm_num
    · exact_mod_cast hpos

/-- So are those of up to three units of the last of 28 places. -/
theorem exists_ofString_of_units (hn : n ∈ [1, 2, 3]) (negative : Bool)
    (hunit : nearest? false (tenPow 28) 1 = some unit)
    (hrounded : nearest? false n 1 = some rounded) (hx : rounded.div? unit = some x) :
    ∃ e, ofString (x.withSign negative).text = .ok e := by
  have hread : ∀ n ∈ [1, 2, 3], ∀ negative, ((nearest? false n 1).bind fun rounded =>
      (nearest? false (tenPow 28) 1).bind fun unit => (rounded.div? unit).bind fun x =>
        (ofString (x.withSign negative).text).toOption).isSome = true := by
    decide +kernel
  have hsome := hread n hn negative
  rw [hrounded, hunit, Option.bind_some, Option.bind_some, hx, Option.bind_some] at hsome
  cases he : ofString (x.withSign negative).text with
  | ok e => exact ⟨e, rfl⟩
  | error e =>
    rw [he] at hsome
    cases hsome

/-- So are those of all other quotients by the double of a power of ten. -/
theorem exists_ofString_of_quotient (hs : s ≠ 0) (hs' : s ≤ 28) (negative : Bool)
    (hunit : nearest? false (tenPow s) 1 = some unit) (hn : (n : ℚ) ≤ 2 ^ (98 : ℤ))
    (hrounded : nearest? false n 1 = some rounded) (hx : rounded.div? unit = some x)
    (hlt : x.magnitude < 2 ^ (96 : ℤ)) : ∃ e, ofString (x.withSign negative).text = .ok e := by
  obtain ⟨k, hk, hk', hfew, hlow, hhigh⟩ := tenPow_between hs hs'
  obtain ⟨unit', hunit', hle, hge⟩ := nearest?_natCast hhigh (by omega) (by omega)
  cases hunit.symm.trans hunit'
  have hone : 1 ≤ unit.magnitude := by
    refine (one_le_zpow₀ (by norm_num) ?_).trans (hge k (by omega) hlow)
    omega
  obtain ⟨rounded', hrounded', hle', hge'⟩ := nearest?_natCast hn (by decide) (by decide)
  cases hrounded.symm.trans hrounded'
  rcases Nat.eq_zero_or_pos n with rfl | hpos
  · cases (nearest?_zero false 1).symm.trans hrounded
    have hzero : x = zero false := by
      rw [div?, ratio, zero, Nat.zero_mul, Nat.zero_mul, nearest?_zero] at hx
      exact (Option.some.inj hx).symm
    refine exists_ofString_of_magnitude (.inl ?_)
    rw [hzero]
    exact magnitude_zero negative
  · by_cases hunits : s = 28 ∧ n ≤ 3
    · obtain ⟨rfl, hn3⟩ := hunits
      refine exists_ofString_of_units ?_ negative hunit hrounded hx
      simp only [List.mem_cons, List.not_mem_nil, or_false]
      omega
    · obtain ⟨j, hj, hnj, hkj⟩ : ∃ j : ℤ, 0 ≤ j ∧ (2 : ℚ) ^ j ≤ n ∧ k + 1 ≤ j + 92 := by
        by_cases hlast : s < 28
        · have := hfew hlast
          exact ⟨0, le_rfl, by exact_mod_cast hpos, by omega⟩
        · have hn4 : 4 ≤ n := by omega
          refine ⟨2, by decide, ?_, by omega⟩
          norm_num
          exact_mod_cast hn4
      have hmin := two_zpow_le_div? (hge' j hj hnj) hle' hone hle (by omega) (by decide) hx
      refine exists_ofString_of_magnitude (.inr ⟨le_trans ?_ hmin, hlt⟩)
      exact zpow_le_zpow_right₀ (by norm_num) (by omega)

theorem exists_ofString_of_places (hscale : d.scale ≠ 0) (h : d.toDouble? = some x) :
    ∃ e, ofString x.text = .ok e := by
  obtain ⟨y, hy, hlt, ⟨n, hn, hwhole⟩ | ⟨n, unit, rounded, hn, hunit, hrounded, hquotient⟩⟩ :=
    toDouble?_of_places hscale
  · cases h.symm.trans hy
    exact exists_ofString_of_nat _ hn hwhole hlt
  · cases h.symm.trans hy
    exact exists_ofString_of_quotient hscale d.scale_le _ hunit hn hrounded hquotient hlt

end Decimal

end Rulebook
