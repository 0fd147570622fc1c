import Rulebook.Proofs.Data.Rendering
import Rulebook.Proofs.Number.DecimalForm

/-! # The double at the end of the decimals

Decimals end right below `2 ^ 96`. The double `2 ^ 96` has no decimal form, but it is what the last
`2 ^ 42` whole numbers become as doubles (`toDouble?_eq_limit_iff`). It is the only double without
a decimal form that a decimal becomes (`exists_ofString_of_toDouble?`), and no text of a double is
read as one of those numbers (`not_atLimit_of_ofString`).
-/

set_option autoImplicit false

namespace Rulebook

/-- The double `2 ^ 96` with a sign. -/
def Double.limit (negative : Bool) : Double :=
  ⟨negative, 0x10000000000000, 44, by decide⟩

/-- The value lies at most half a step of doubles before `2 ^ 96` with the sign, or beyond it. -/
def AtLimit (v : ℚ) (negative : Bool) : Prop :=
  2 ^ 96 - 2 ^ 42 ≤ if negative then -v else v

/-- A value is at one of the two limits at most. -/
theorem AtLimit.unique {v : ℚ} {m n : Bool} (hm : AtLimit v m) (hn : AtLimit v n) : m = n := by
  unfold AtLimit at hm hn
  have hpos : (0 : ℚ) < 2 ^ 96 - 2 ^ 42 := by norm_num
  cases m <;> cases n <;> simp at hm hn ⊢ <;> linarith

/-! ## The limit -/

namespace Double

/-- The digits of the limit, `7.922816251426434e28`, stand for slightly more than the limit. -/
theorem not_ofString_limit (negative : Bool) (d : Decimal) :
    Decimal.ofString (limit negative).text ≠ .ok d := by
  have hnone : (Decimal.ofString (limit negative).text).toOption = none := by
    cases negative <;> decide +kernel
  intro hd
  rw [hd] at hnone
  cases hnone

theorem limit_mantissa (negative : Bool) : (limit negative).mantissa = 0x10000000000000 :=
  rfl

theorem limit_ne_zero (negative : Bool) : (limit negative).mantissa ≠ 0 := by
  rw [limit_mantissa]
  decide

/-- The values that are rounded to the limit, as far as they belong to decimals. -/
theorem covers_limit (negative : Bool) {v : ℚ} (hlow : 2 ^ 96 - 2 ^ 42 ≤ v) (hhigh : v < 2 ^ 96) :
    (limit negative).Covers v := by
  have hlowEnd : (limit negative).lowEnd = 2 ^ 96 - 2 ^ 42 := by
    rw [lowEnd]
    norm_num [isNarrow, limit]
  have hhighEnd : (2 : ℚ) ^ 96 < (limit negative).highEnd := by
    rw [highEnd]
    norm_num [limit]
  rw [Covers, hlowEnd]
  exact ⟨hlow.lt_or_eq.imp_right fun h => ⟨by rw [limit_mantissa], h⟩, .inl (hhigh.trans hhighEnd)⟩

end Double

namespace Decimal

/-! ## What becomes the limit -/

variable {d : Decimal} {x : Double} {negative : Bool}

theorem cast_magnitude_lt (d : Decimal) : (d.magnitude : ℚ) < 2 ^ 96 := by
  norm_num
  exact_mod_cast d.magnitude_lt

/-- Only whole numbers without a scale are as large as that. -/
theorem atLimit_iff : AtLimit d.value negative ↔
    d.negative = negative ∧ d.scale = 0 ∧ (2 ^ 96 - 2 ^ 42 : ℚ) ≤ d.magnitude := by
  have hvalue : (if negative then -d.value else d.value) =
      (if d.negative = negative then (d.magnitude : ℚ) else -d.magnitude) / tenPow d.scale := by
    rw [value, coefficient]
    cases negative <;> cases d.negative <;> simp [neg_div]
  have hmag : (0 : ℚ) ≤ d.magnitude := Nat.cast_nonneg _
  have hten := cast_tenPow_pos d.scale
  rw [AtLimit, hvalue, le_div_iff₀ hten]
  by_cases hsign : d.negative = negative
  · rw [if_pos hsign]
    by_cases hscale : d.scale = 0
    · simp [hsign, hscale]
    · -- One place leaves a tenth of the magnitude.
      have hplace : (10 : ℚ) ≤ tenPow d.scale := by
        rw [cast_tenPow]
        exact le_self_pow₀ (by norm_num) hscale
      refine iff_of_false (fun h => ?_) fun h => hscale h.2.1
      have hlarge : (2 ^ 96 - 2 ^ 42 : ℚ) * 10 ≤ d.magnitude :=
        (mul_le_mul_of_nonneg_left hplace (by norm_num)).trans h
      norm_num at hlarge
      linarith [d.cast_magnitude_lt]
  · rw [if_neg hsign]
    refine iff_of_false (fun h => ?_) fun h => hsign h.1
    have hpos : (0 : ℚ) < (2 ^ 96 - 2 ^ 42) * tenPow d.scale := mul_pos (by norm_num) hten
    linarith

theorem toDouble?_of_atLimit (h : AtLimit d.value negative) :
    d.toDouble? = some (Double.limit negative) := by
  obtain ⟨hsign, hscale, hlow⟩ := atLimit_iff.mp h
  refine toDouble?_of_whole (Double.limit_ne_zero negative) hscale ?_ hsign
  exact Double.covers_limit negative hlow d.cast_magnitude_lt

/-- A whole number that becomes a double of magnitude `2 ^ 96` is at most half a step away. -/
theorem le_of_nearest?_eq {n : Nat} (hn : (n : ℚ) < 2 ^ (96 : ℤ)) (hx : x.magnitude = 2 ^ (96 : ℤ))
    (h : Double.nearest? false n 1 = some x) : (2 ^ 96 - 2 ^ 42 : ℚ) ≤ n := by
  have hpos : 0 < n := by
    rcases Nat.eq_zero_or_pos n with rfl | hpos
    · cases (Double.nearest?_zero false 1).symm.trans h
      rw [Double.magnitude_zero] at hx
      norm_num at hx
    · exact hpos
  have hone : (n : ℚ) / (1 : Nat) = n := by rw [Nat.cast_one, div_one]
  have hmax : (n : ℚ) / (1 : Nat) ≤ 2 ^ (1023 : ℤ) := by
    rw [hone]
    exact hn.le.trans (zpow_le_zpow_right₀ (by norm_num) (by decide))
  obtain ⟨y, e, m, hy, -, hmag, hm, -, hlow, -⟩ :=
    Double.nearest?_eq_some false hpos Nat.one_pos hmax
  cases h.symm.trans hy
  rw [hone] at hm hlow
  -- Below `2 ^ 96` the steps are at most `2 ^ 43`.
  have hexp : e ≤ 43 := by
    rcases hlow with hlow | rfl
    · have hlt := (zpow_lt_zpow_iff_right₀ (by norm_num : (1 : ℚ) < 2)).mp (hlow.trans_lt hn)
      omega
    · decide
  have hp := two_zpow_pos e
  have hstep : (2 : ℚ) ^ e ≤ 2 ^ (43 : ℤ) := zpow_le_zpow_right₀ (by norm_num) hexp
  have herr := mul_le_mul_of_nonneg_right (abs_sub_le_iff.mp hm.abs_le).2 hp.le
  rw [sub_mul, div_mul_cancel₀ _ hp.ne', ← hmag, hx] at herr
  norm_num at herr hstep
  linarith

/-- A decimal becomes a double with a decimal form, or it is at the limit. -/
theorem exists_ofString_of_toDouble? (h : d.toDouble? = some x) :
    (∃ e, ofString x.text = .ok e) ∨ AtLimit d.value d.negative := by
  by_cases hscale : d.scale = 0
  · have hmag : (d.magnitude : ℚ) < 2 ^ (96 : ℤ) := by exact_mod_cast d.cast_magnitude_lt
    obtain ⟨whole, hwhole, hle, -⟩ := Double.nearest?_natCast hmag.le (by decide) (by decide)
    have hquotient : Double.nearest? false (d.magnitude / tenPow d.scale) 1 = some whole := by
      rw [hscale, tenPow_zero, Nat.div_one]
      exact hwhole
    cases h.symm.trans (toDouble?_of_scale_eq_zero hscale hquotient)
    rcases hle.lt_or_eq with hlt | htop
    · exact .inl (exists_ofString_of_nat _ hmag.le hwhole hlt)
    · exact .inr (atLimit_iff.mpr ⟨rfl, hscale, le_of_nearest?_eq hmag htop hwhole⟩)
  · exact .inl (exists_ofString_of_places hscale h)

/-- The last decimals are those that become the limit. -/
theorem toDouble?_eq_limit_iff :
    d.toDouble? = some (Double.limit negative) ↔ AtLimit d.value negative := by
  refine ⟨fun h => ?_, toDouble?_of_atLimit⟩
  rcases exists_ofString_of_toDouble? h with ⟨e, he⟩ | hlimit
  · exact absurd he (Double.not_ofString_limit negative e)
  · cases h.symm.trans (toDouble?_of_atLimit hlimit)
    exact hlimit

/-- Where the shortest digits need more than 28 places, they are all the decimal form can have. -/
theorem magnitude_lt_of_power_lt (hx : x.mantissa ≠ 0) (hp : x.shortest.power < -28)
    (h : ofString x.text = .ok d) : d.magnitude < 10 ^ 17 := by
  obtain ⟨-, hpos, hdigits, -⟩ := Double.shortest_spec hx
  have hlen := (Double.shortest_digits hx).2
  have hlead : Double.lead x.shortest =
      x.shortest.power + (Nat.toDigits 10 x.shortest.digits).length - 1 := rfl
  have hmin := Double.le_lead hx
  obtain ⟨e, hparts, heq⟩ := Double.ofString_exponent (Double.text_toList hx) hpos hlen
    (by omega) (by omega)
  rw [heq, if_pos (by omega)] at h
  calc d.magnitude ≤ e.magnitude := magnitude_le_of_shiftDown h
    _ = x.shortest.digits := (parts_eq_iff.mp hparts).2.1
    _ < 10 ^ 17 := hdigits

/-- No text of a double is read as a decimal at the limit. -/
theorem not_atLimit_of_ofString (h : ofString x.text = .ok d) : ¬ AtLimit d.value negative := by
  intro hlimit
  obtain ⟨hsign, hscale, hlow⟩ := atLimit_iff.mp hlimit
  have hmany : 10 ^ 18 ≤ d.magnitude := by
    have hcast : ((10 ^ 18 : Nat) : ℚ) ≤ d.magnitude := by
      refine le_trans ?_ hlow
      norm_num
    exact_mod_cast hcast
  rcases eq_or_ne x.mantissa 0 with hzero | hx
  · obtain ⟨e, he, hparts⟩ := Double.ofString_zero hzero
    cases h.symm.trans he
    have := (parts_eq_iff.mp hparts).2.1
    omega
  · obtain ⟨-, hpos, hdigits, -⟩ := Double.shortest_spec hx
    by_cases hp : -28 ≤ x.shortest.power
    · rcases Double.ofString_text hx hp h with
        ⟨-, hparts⟩ | ⟨hwhole, hparts | ⟨hlt, hparts⟩⟩
      · have := (parts_eq_iff.mp hparts).2.1
        omega
      · -- The number would become the double, which would be the limit and have no text.
        have hback := Double.toDouble?_of_short_whole hx hwhole hparts
        cases hback.symm.trans (toDouble?_of_atLimit hlimit)
        exact Double.not_ofString_limit _ d h
      · have := (parts_eq_iff.mp hparts).2.1
        omega
    · have := magnitude_lt_of_power_lt hx (by omega) h
      omega

/-- Integers of 64 bits are not at the limit. -/
theorem not_atLimit_of_inRange {k : Int} (hk : -0x8000000000000000 ≤ k ∧ k < 0x10000000000000000) :
    ¬ AtLimit k negative := by
  have hlow : (-0x8000000000000000 : ℚ) ≤ k := by exact_mod_cast hk.1
  have hhigh : (k : ℚ) < 0x10000000000000000 := by exact_mod_cast hk.2
  rw [AtLimit]
  intro h
  norm_num at h
  split at h <;> linarith

end Decimal

/-! ## Raw numbers without a decimal form -/

namespace JsonNumber

variable {x : Double}

theorem hasDecimal_float_iff :
    (JsonNumber.float x).HasDecimal ↔ ∃ d, Decimal.ofString x.text = .ok d :=
  exists_congr fun _ => toDecimal_float_iff

theorem not_atLimit_of_toDecimal {n : JsonNumber} {d : Decimal} {negative : Bool}
    (h : n.toDecimal = .ok d) : ¬ AtLimit d.value negative := by
  cases n with
  | integer value inRange =>
    cases h
    rw [Decimal.value_ofInt]
    exact Decimal.not_atLimit_of_inRange inRange
  | float x => exact Decimal.not_atLimit_of_ofString (toDecimal_float_iff.mp h)

theorem equal_float_iff (hx : ¬ (JsonNumber.float x).HasDecimal) (n : JsonNumber) :
    n.equal (.float x) = true ↔ n = .float x := by
  have hzero : x.isZero = false := by
    rw [Bool.eq_false_iff]
    intro hzero
    obtain ⟨d, hd, -⟩ := Double.ofString_zero (beq_iff_eq.mp hzero)
    exact hx (hasDecimal_float_iff.mpr ⟨d, hd⟩)
  cases n with
  | integer value inRange => simp [equal]
  | float y => simp [equal, Double.equal, hzero]

end JsonNumber

/-- A decimal whose JSON value has no decimal form is at the limit. -/
theorem Decimal.toJson_eq_float_iff {d : Decimal} {x : Double}
    (hx : ¬ (JsonNumber.float x).HasDecimal) :
    d.toJson = .num (.float x) ↔ ∃ negative, x = .limit negative ∧ AtLimit d.value negative := by
  constructor
  · intro h
    obtain ⟨y, hy⟩ := d.toDouble?_isSome
    have hint : ∀ k : Int, d.value = k → ¬ IsInt64 k := by
      intro k hk hk'
      cases (toJson_of_int hk hk').symm.trans h
    cases h.symm.trans (toJson_of_double hint hy)
    rw [JsonNumber.hasDecimal_float_iff] at hx
    have hlimit := (exists_ofString_of_toDouble? hy).resolve_left hx
    cases hy.symm.trans (toDouble?_of_atLimit hlimit)
    exact ⟨d.negative, rfl, hlimit⟩
  · rintro ⟨negative, rfl, hlimit⟩
    refine toJson_of_double (fun k hk hint => ?_) (toDouble?_of_atLimit hlimit)
    rw [hk] at hlimit
    exact not_atLimit_of_inRange (inRange_of_isInt64 hint) hlimit

end Rulebook
