import Rulebook.Proofs.Number.Conversion
import Rulebook.Proofs.Number.Numeral

/-! # Shifts of decimals

A decimal is shifted by the power of ten that follows its numeral. Upwards the shift is exact, and
downwards it rounds to the 28th place: it is never off by more than half a unit of that place
(`shift_error`), so it is exact wherever the result needs no further places (`value_eq_iff`). It
fails where the power is below -28 or the result needs more than 96 bits (`exists_shift_iff`).
-/

set_option autoImplicit false

namespace Rulebook.Decimal

/-- At most 28 places after the point are in use. -/
def HasPlaces (v : ℚ) : Prop :=
  ∃ n : ℤ, v = n / 10 ^ 28

variable {d e : Decimal} {u v : ℚ} {p : Nat} {k : ℤ}

/-! ## Values -/

theorem value_of_parts {negative : Bool} {m s : Nat} (h : d.parts = (negative, m, s)) :
    d.value = (if negative then -(m : ℚ) else m) / tenPow s := by
  obtain ⟨rfl, rfl, rfl⟩ := parts_eq_iff.mp h
  rw [value, coefficient]
  split <;> push_cast <;> rfl

theorem abs_value (d : Decimal) : |d.value| = d.magnitude / tenPow d.scale := by
  rw [value_of_parts (d := d) rfl, abs_div, abs_of_pos (cast_tenPow_pos _)]
  split
  · rw [abs_neg, Nat.abs_cast]
  · rw [Nat.abs_cast]

theorem abs_value_lt (d : Decimal) : |d.value| < 2 ^ 96 := by
  have hone : (1 : ℚ) ≤ tenPow d.scale := by exact_mod_cast tenPow_pos d.scale
  rw [abs_value]
  calc (d.magnitude : ℚ) / tenPow d.scale ≤ d.magnitude := div_le_self (Nat.cast_nonneg _) hone
    _ < 2 ^ 96 := by exact_mod_cast d.magnitude_lt

/-- Decimals of one sign are as far apart as their magnitudes. -/
theorem abs_value_sub (hsign : e.negative = d.negative) (c : ℚ) : |e.value - d.value * c| =
    |(e.magnitude : ℚ) / tenPow e.scale - d.magnitude / tenPow d.scale * c| := by
  rw [value_of_parts (d := e) rfl, value_of_parts (d := d) rfl, hsign]
  split
  · rw [neg_div, neg_div, neg_mul, neg_sub_neg, abs_sub_comm]
  · rfl

/-- Decimals of one sign are in the ratio of their magnitudes. -/
theorem value_eq_mul (hsign : e.negative = d.negative) {c : ℚ}
    (h : (e.magnitude : ℚ) / tenPow e.scale = d.magnitude / tenPow d.scale * c) :
    e.value = d.value * c := by
  rw [← sub_eq_zero, ← abs_eq_zero, abs_value_sub hsign, h, sub_self, abs_zero]

/-! ## Values over the last place -/

theorem hasPlaces_of_power (n : ℤ) (hk : -28 ≤ k) : HasPlaces (n * 10 ^ k) := by
  obtain ⟨m, hm⟩ := Int.eq_ofNat_of_zero_le (by omega : 0 ≤ k + 28)
  refine ⟨n * 10 ^ m, ?_⟩
  have hsplit : k = m - 28 := by omega
  rw [hsplit, zpow_sub₀ (by decide), zpow_natCast]
  push_cast
  rw [mul_div_assoc]
  rfl

theorem hasPlaces_value (d : Decimal) : HasPlaces d.value := by
  have hscale := d.scale_le
  have hplaces := hasPlaces_of_power d.coefficient (k := -d.scale) (by omega)
  rwa [zpow_neg, zpow_natCast, ← cast_tenPow, ← div_eq_mul_inv] at hplaces

/-- Half a unit of the last place is no distance between two such values. -/
theorem HasPlaces.eq_of_close (hu : HasPlaces u) (hv : HasPlaces v)
    (h : |u - v| ≤ 1 / 2 / 10 ^ 28) : u = v := by
  obtain ⟨m, rfl⟩ := hu
  obtain ⟨n, rfl⟩ := hv
  rw [← sub_div, abs_div, abs_of_pos (by norm_num : (0 : ℚ) < 10 ^ 28),
    div_le_div_iff_of_pos_right (by norm_num)] at h
  have hlt : |m - n| < 1 := by
    have hcast : ((|m - n| : ℤ) : ℚ) < 1 := by
      push_cast
      linarith
    exact_mod_cast hcast
  rw [Int.abs_lt_one_iff] at hlt
  rw [sub_eq_zero.mp hlt]

/-- A rounded value is exact if and only if nothing had to be rounded. -/
theorem value_eq_iff (h : |d.value - v| ≤ 1 / 2 / 10 ^ 28) : d.value = v ↔ HasPlaces v :=
  ⟨fun heq => heq ▸ d.hasPlaces_value, fun hv => d.hasPlaces_value.eq_of_close hv h⟩

/-! ## The error of a shift -/

/-- Shifts by a power of ten that was read behind a numeral. -/
def shift (d : Decimal) (power : ℤ) : Except DecimalError Decimal :=
  if power.natAbs < 0x100000000 then
    if power < 0 then d.shiftDown power.natAbs else d.shiftUp power.natAbs
  else .error .malformed

theorem shift_zero (d : Decimal) : d.shift 0 = .ok d := by
  have hparts : ofParts? d.negative d.magnitude d.scale = some d :=
    dif_pos ⟨d.magnitude_lt, d.scale_le⟩
  have hshift : d.shift 0 = d.shiftUp 0 := rfl
  have hup : d.shiftUp 0 = ofParts d.negative d.magnitude d.scale := if_pos (Nat.zero_le _)
  rw [hshift, hup, ofParts, hparts]

theorem shiftUp_exact (h : d.shiftUp p = .ok e) : e.value = d.value * 10 ^ p := by
  have hten := (cast_tenPow_pos d.scale).ne'
  unfold shiftUp at h
  split at h
  · next hle =>
    obtain ⟨hsign, hmag, hscale⟩ := parts_eq_iff.mp (parts_of_ofParts h)
    obtain ⟨k, hk⟩ := Nat.exists_eq_add_of_le hle
    refine value_eq_mul hsign ?_
    rw [hmag, hscale, hk, Nat.add_sub_cancel_left, cast_tenPow, cast_tenPow, pow_add]
    field_simp
  · next hgt =>
    split at h
    · cases h
    · obtain ⟨hsign, hmag, hscale⟩ := parts_eq_iff.mp (parts_of_ofParts h)
      obtain ⟨k, hk⟩ := Nat.exists_eq_add_of_le (not_le.mp hgt).le
      refine value_eq_mul hsign ?_
      rw [hmag, hscale, hk, Nat.add_sub_cancel_left, Nat.cast_mul, cast_tenPow, cast_tenPow,
        cast_tenPow, pow_add]
      field_simp

theorem shiftDown_error (h : d.shiftDown p = .ok e) :
    |e.value - d.value * 10 ^ (-p : ℤ)| ≤ 1 / 2 / 10 ^ 28 := by
  rw [zpow_neg, zpow_natCast]
  unfold shiftDown at h
  split at h
  · cases h
  · split at h
    · obtain ⟨hsign, hmag, hscale⟩ := parts_eq_iff.mp (parts_of_ofParts h)
      have hvalue : e.value = d.value * (10 ^ p)⁻¹ := by
        refine value_eq_mul hsign ?_
        rw [hmag, hscale, cast_tenPow, cast_tenPow, pow_add]
        field_simp
      rw [hvalue, sub_self, abs_zero]
      norm_num
    · next hplaces =>
      -- The last `k` places are rounded off: a quotient by `10 ^ k`, in units of the 28th place.
      obtain ⟨hsign, hmag, hscale⟩ := parts_eq_iff.mp (parts_of_ofParts h)
      obtain ⟨k, hk⟩ := Nat.exists_eq_add_of_le (not_le.mp hplaces).le
      have hround := abs_roundHalfUp_sub_le d.magnitude (tenPow_pos k)
      have hratio : (d.magnitude : ℚ) / tenPow d.scale * (10 ^ p)⁻¹ =
          d.magnitude / tenPow k / 10 ^ 28 := by
        rw [cast_tenPow, cast_tenPow, div_div, ← pow_add, Nat.add_comm k, ← hk, pow_add]
        field_simp
      rw [hk, Nat.add_sub_cancel_left] at hmag
      rw [abs_value_sub hsign, hratio, hmag, hscale, cast_tenPow 28, ← sub_div, abs_div,
        abs_of_pos (by norm_num : (0 : ℚ) < 10 ^ 28)]
      exact div_le_div_of_nonneg_right hround (by norm_num)

/-- A shift by a power of ten is off by at most half a unit of the last place. -/
theorem shift_error (h : d.shift k = .ok e) :
    |e.value - d.value * 10 ^ k| ≤ 1 / 2 / 10 ^ 28 := by
  unfold shift at h
  split at h
  · split at h
    · next hneg =>
      obtain ⟨p, rfl⟩ := Int.exists_eq_neg_ofNat hneg.le
      rw [Int.natAbs_neg, Int.natAbs_natCast] at h
      exact shiftDown_error h
    · next hnonneg =>
      obtain ⟨p, rfl⟩ := Int.eq_ofNat_of_zero_le (not_lt.mp hnonneg)
      rw [Int.natAbs_natCast] at h
      rw [shiftUp_exact h, zpow_natCast, sub_self, abs_zero]
      norm_num
  · cases h

/-! ## Shifts that succeed -/

theorem exists_ofParts (negative : Bool) {magnitude scale : Nat}
    (hm : magnitude < 0x1000000000000000000000000)
    (hs : scale ≤ 28) : ∃ d, ofParts negative magnitude scale = .ok d :=
  ⟨⟨negative, magnitude, scale, hm, hs⟩, by rw [ofParts, ofParts?, dif_pos ⟨hm, hs⟩]⟩

theorem exists_shiftDown (d : Decimal) {power : Nat} (h : power ≤ 28) :
    ∃ e, d.shiftDown power = .ok e := by
  rw [shiftDown, if_neg (not_lt.mpr h)]
  split
  · next hscale => exact exists_ofParts _ d.magnitude_lt hscale
  · exact exists_ofParts _ ((roundHalfUp_le_self _ (tenPow_pos _)).trans_lt d.magnitude_lt) le_rfl

theorem exists_shiftUp (d : Decimal) {power : Nat} (h : power ≤ 28)
    (hfits : d.magnitude * tenPow (power - d.scale) < 0x1000000000000000000000000) :
    ∃ e, d.shiftUp power = .ok e := by
  rw [shiftUp]
  split
  · exact exists_ofParts _ d.magnitude_lt ((Nat.sub_le _ _).trans d.scale_le)
  · rw [if_neg (not_lt.mpr h)]
    exact exists_ofParts _ hfits (Nat.zero_le 28)

/-- Shifting downwards never lengthens the magnitude. -/
theorem magnitude_le_of_shiftDown {power : Nat} (h : d.shiftDown power = .ok e) :
    e.magnitude ≤ d.magnitude := by
  unfold shiftDown at h
  split at h
  · cases h
  · split at h
    · exact (parts_eq_iff.mp (parts_of_ofParts h)).2.1.le
    · rw [(parts_eq_iff.mp (parts_of_ofParts h)).2.1]
      exact roundHalfUp_le_self _ (tenPow_pos _)

theorem exists_shift_of_neg (hk : k < 0) : (∃ e, d.shift k = .ok e) ↔ -28 ≤ k := by
  constructor
  · rintro ⟨e, he⟩
    by_contra hlow
    have hlarge : 28 < k.natAbs := by omega
    rw [shift, if_pos hk, shiftDown, if_pos hlarge] at he
    split at he <;> cases he
  · intro hlow
    rw [shift, if_pos (by omega), if_pos hk]
    exact d.exists_shiftDown (by omega)

/-- A shift upwards fails where the result is too large. -/
theorem exists_shift_of_nonneg (hd : 1 ≤ |d.value|) (hk : 0 ≤ k) :
    (∃ e, d.shift k = .ok e) ↔ |d.value| * 10 ^ k < 2 ^ 96 := by
  obtain ⟨p, rfl⟩ := Int.eq_ofNat_of_zero_le hk
  constructor
  · rintro ⟨e, he⟩
    have hexact : e.value = d.value * 10 ^ p := by
      unfold shift at he
      split at he
      · rw [if_neg (not_lt.mpr hk)] at he
        exact shiftUp_exact he
      · cases he
    have hlt := e.abs_value_lt
    rwa [hexact, abs_mul, abs_of_pos (by positivity : (0 : ℚ) < 10 ^ p)] at hlt
  · intro hlt
    rw [zpow_natCast] at hlt
    -- From one on, the power alone is no larger than the result.
    have hpower : (10 : ℚ) ^ p < 10 ^ 29 :=
      calc (10 : ℚ) ^ p ≤ |d.value| * 10 ^ p := le_mul_of_one_le_left (by positivity) hd
        _ < 2 ^ 96 := hlt
        _ < 10 ^ 29 := by norm_num
    have hp : p < 29 := (pow_lt_pow_iff_right₀ (by norm_num)).mp hpower
    rw [shift, if_pos (by omega), if_neg (not_lt.mpr hk), Int.natAbs_natCast]
    refine d.exists_shiftUp (by omega) ?_
    rcases le_or_gt p d.scale with hle | hgt
    · rw [Nat.sub_eq_zero_of_le hle, tenPow_zero, Nat.mul_one]
      exact d.magnitude_lt
    · obtain ⟨n, rfl⟩ := Nat.exists_eq_add_of_le hgt.le
      rw [abs_value, pow_add, ← cast_tenPow, ← cast_tenPow, ← mul_assoc,
        div_mul_cancel₀ _ (cast_tenPow_pos _).ne'] at hlt
      rw [Nat.add_sub_cancel_left]
      exact_mod_cast hlt

/-- A number from one on can be shifted down by 28 places, and up as far as its value allows. -/
theorem exists_shift_iff (hd : 1 ≤ |d.value| ∨ k = 0) :
    (∃ e, d.shift k = .ok e) ↔ -28 ≤ k ∧ |d.value| * 10 ^ k < 2 ^ 96 := by
  rcases lt_trichotomy k 0 with hneg | rfl | hpos
  · have hsmall : |d.value| * 10 ^ k < 2 ^ 96 :=
      calc |d.value| * 10 ^ k ≤ |d.value| :=
            mul_le_of_le_one_right (abs_nonneg _) (zpow_le_one_of_nonpos₀ (by norm_num) hneg.le)
        _ < 2 ^ 96 := d.abs_value_lt
    rw [exists_shift_of_neg hneg, and_iff_left hsmall]
  · rw [zpow_zero, mul_one]
    exact iff_of_true ⟨d, d.shift_zero⟩ ⟨by decide, d.abs_value_lt⟩
  · rw [exists_shift_of_nonneg (hd.resolve_right hpos.ne') hpos.le, and_iff_right (by omega)]

end Rulebook.Decimal
