import Rulebook.Number.Shortest
import Rulebook.Proofs.Number.Conversion

/-! # Decimals that are read back

The rounding interval of a double reaches halfway to its two neighbours, and below a power of two
the neighbour is nearer. `Double.Covers` says that a value lies in it; the values in it are those
that are rounded to the double (`nearest?_of_covers`), and `Double.readsBack` decides it for decimals
(`readsBack_iff`).
-/

set_option autoImplicit false

namespace Rulebook

def Digits.value (d : Digits) : ℚ :=
  d.digits * 10 ^ d.power

theorem compareScaled_eq (a : Nat) (i : Int) (b : Nat) (j : Int) :
    compareScaled a i b j = compare ((a : ℚ) * 10 ^ i) (b * 2 ^ j) := by
  have hp : (0 : ℚ) < 10 ^ (-i).toNat * 2 ^ (-j).toNat := by positivity
  have hl : ((a * tenPow i.toNat * twoPow (-j).toNat : Nat) : ℚ) =
      a * 10 ^ i * (10 ^ (-i).toNat * 2 ^ (-j).toNat) := by
    rw [Nat.cast_mul, Nat.cast_mul, cast_tenPow, cast_twoPow, ← zpow_mul_toNat (by decide) i]
    ring
  have hr : ((b * twoPow j.toNat * tenPow (-i).toNat : Nat) : ℚ) =
      b * 2 ^ j * (10 ^ (-i).toNat * 2 ^ (-j).toNat) := by
    rw [Nat.cast_mul, Nat.cast_mul, cast_tenPow, cast_twoPow, ← zpow_mul_toNat (by decide) j]
    ring
  have hlt {u v : ℚ} {m n : Nat} (hm : (m : ℚ) = u * (10 ^ (-i).toNat * 2 ^ (-j).toNat))
      (hn : (n : ℚ) = v * (10 ^ (-i).toNat * 2 ^ (-j).toNat)) : m < n ↔ u < v := by
    rw [← Nat.cast_lt (α := ℚ), hm, hn, mul_lt_mul_iff_left₀ hp]
  unfold compareScaled
  rcases lt_trichotomy ((a : ℚ) * 10 ^ i) (b * 2 ^ j) with h | h | h
  · rw [compare_lt_iff_lt.mpr h, compare_lt_iff_lt, hlt hl hr]
    exact h
  · rw [compare_eq_iff_eq.mpr h, compare_eq_iff_eq]
    rw [h] at hl
    exact_mod_cast hl.trans hr.symm
  · rw [compare_gt_iff_gt.mpr h, compare_gt_iff_gt, hlt hr hl]
    exact h

namespace Double

variable {x : Double} {v : ℚ}

/-- The mantissa is a power of two, so the number below is only half as far as the one above. -/
def isNarrow (x : Double) : Bool :=
  x.mantissa == 0x10000000000000 && x.exponent != -1074

/-- Halfway to the number below. -/
def lowEnd (x : Double) : ℚ :=
  (x.mantissa - if x.isNarrow then 1 / 4 else 1 / 2) * 2 ^ x.exponent

/-- Halfway to the number above. -/
def highEnd (x : Double) : ℚ :=
  (x.mantissa + 1 / 2) * 2 ^ x.exponent

/-- The value rounds to the magnitude of `x`. -/
def Covers (x : Double) (v : ℚ) : Prop :=
  (x.lowEnd < v ∨ x.mantissa % 2 = 0 ∧ x.lowEnd = v) ∧
    (v < x.highEnd ∨ x.mantissa % 2 = 0 ∧ v = x.highEnd)

theorem two_zpow_sub_two (k : ℤ) : (2 : ℚ) ^ (k - 2) = 2 ^ k / 4 := by
  rw [zpow_sub₀ (by decide)]
  norm_num

theorem quarters_lowEnd (hx : x.mantissa ≠ 0) :
    ((4 * x.mantissa - if x.isNarrow then 1 else 2 : Nat) : ℚ) * 2 ^ (x.exponent - 2) =
      x.lowEnd := by
  have hle : (if x.isNarrow then 1 else 2) ≤ 4 * x.mantissa := by
    split <;> omega
  rw [two_zpow_sub_two, lowEnd, Nat.cast_sub hle]
  split
  · push_cast
    ring
  · push_cast
    ring

theorem quarters_highEnd (x : Double) :
    ((4 * x.mantissa + 2 : Nat) : ℚ) * 2 ^ (x.exponent - 2) = x.highEnd := by
  rw [two_zpow_sub_two, highEnd]
  push_cast
  ring

theorem readsBack_iff (hx : x.mantissa ≠ 0) {d : Digits} :
    x.readsBack d = true ↔ x.Covers d.value := by
  have heq : x.readsBack d =
      (let low := compare d.value x.lowEnd
      let high := compare d.value x.highEnd
      let closed := x.mantissa % 2 == 0
      (low == .gt || (closed && low == .eq)) && (high == .lt || (closed && high == .eq))) := by
    rw [← quarters_lowEnd hx, ← quarters_highEnd, Digits.value, ← compareScaled_eq,
      ← compareScaled_eq]
    rfl
  rw [heq]
  simp only [Bool.and_eq_true, Bool.or_eq_true, beq_iff_eq, compare_gt_iff_gt, compare_lt_iff_lt,
    compare_eq_iff_eq]
  rw [Covers, eq_comm (a := x.lowEnd)]

theorem lowEnd_ge (x : Double) : (x.mantissa - 1 / 2) * 2 ^ x.exponent ≤ x.lowEnd := by
  refine mul_le_mul_of_nonneg_right ?_ (two_zpow_pos _).le
  split <;> linarith

theorem Covers.le_highEnd (h : x.Covers v) : v ≤ x.highEnd :=
  h.2.elim le_of_lt fun h => h.2.le

theorem Covers.lowEnd_le (h : x.Covers v) : x.lowEnd ≤ v :=
  h.1.elim le_of_lt fun h => h.2.le

theorem Covers.roundsTo (h : x.Covers v) : RoundsTo (v / 2 ^ x.exponent) x.mantissa := by
  have hp := two_zpow_pos x.exponent
  have hlow' : (x.mantissa : ℚ) - 1 / 2 ≤ v / 2 ^ x.exponent := by
    rw [le_div_iff₀ hp]
    exact x.lowEnd_ge.trans h.lowEnd_le
  have hhigh' : v / 2 ^ x.exponent ≤ x.mantissa + 1 / 2 := by
    rw [div_le_iff₀ hp]
    exact h.le_highEnd
  by_cases heven : x.mantissa % 2 = 0
  · refine .of_abs_le_of_even ?_ heven
    rw [abs_sub_le_iff]
    constructor <;> linarith
  · left
    have hlow'' : (x.mantissa : ℚ) - 1 / 2 < v / 2 ^ x.exponent := by
      rw [lt_div_iff₀ hp]
      exact x.lowEnd_ge.trans_lt (h.1.resolve_right fun h => heven h.1)
    have hhigh'' : v / 2 ^ x.exponent < x.mantissa + 1 / 2 := by
      rw [div_lt_iff₀ hp]
      exact h.2.resolve_right fun h => heven h.1
    rw [abs_sub_lt_iff]
    constructor <;> linarith

theorem Covers.pos (hx : x.mantissa ≠ 0) (h : x.Covers v) : 0 < v := by
  have hm : (1 : ℚ) ≤ x.mantissa := by exact_mod_cast Nat.one_le_iff_ne_zero.mpr hx
  refine lt_of_lt_of_le (mul_pos ?_ (two_zpow_pos _)) (x.lowEnd_ge.trans h.lowEnd_le)
  linarith

/-- The grid on which a value is rounded is that of the number around it. Only the values between a
power of two and halfway to the number below are rounded on the finer grid below. -/
theorem Covers.grid (h : x.Covers v) {e : ℤ} (he : -1074 ≤ e)
    (hgrid : (2 : ℚ) ^ (e + 52) ≤ v ∨ e = -1074) (htop : v < 2 ^ (e + 53)) :
    e = x.exponent ∨ e + 1 = x.exponent ∧ x.isNarrow = true := by
  have hp := two_zpow_pos x.exponent
  have hlow := x.lowEnd_ge.trans h.lowEnd_le
  have hm : (x.mantissa : ℚ) + 1 ≤ 0x20000000000000 := by exact_mod_cast x.mantissa_lt
  have hexp {k : ℤ} {c : ℚ} (hc : v < 2 ^ k) (hck : (2 : ℚ) ^ k ≤ c * 2 ^ x.exponent) :
      (x.mantissa : ℚ) - 1 / 2 < c :=
    lt_of_mul_lt_mul_right ((hlow.trans_lt hc).trans_le hck) hp.le
  rcases lt_trichotomy e x.exponent with hlt | heq | hgt
  · right
    have hnormal : 0x10000000000000 ≤ x.mantissa := by
      rcases x.canonical with hsub | hnormal
      · omega
      · exact hnormal.1
    have hupper : (x.mantissa : ℚ) - 1 / 2 < 0x10000000000000 := by
      refine hexp htop ((zpow_le_zpow_right₀ (by norm_num) ?_).trans_eq (two_zpow_add_52 _))
      omega
    have hmantissa : x.mantissa = 0x10000000000000 := by
      have hlt' : x.mantissa < 0x10000000000000 + 1 := by
        have hcast : (x.mantissa : ℚ) < 0x10000000000000 + 1 := by linarith
        exact_mod_cast hcast
      omega
    refine ⟨?_, ?_⟩
    · by_contra hne
      have hupper' : (x.mantissa : ℚ) - 1 / 2 < 0x8000000000000 := by
        refine hexp htop ((zpow_le_zpow_right₀ (by norm_num) (n := x.exponent - 1 + 52) ?_).trans_eq
          ?_)
        · omega
        · rw [two_zpow_add_52, zpow_sub_one₀ (by decide)]
          ring
      rw [hmantissa] at hupper'
      norm_num at hupper'
    · rw [isNarrow, hmantissa]
      simp only [beq_self_eq_true, Bool.true_and, bne_iff_ne, ne_eq]
      omega
  · exact .inl heq
  · exfalso
    have hge : (2 : ℚ) ^ (e + 52) ≤ v := hgrid.resolve_right (by have := x.exponent_ge; omega)
    have hlt : x.highEnd < 2 ^ (x.exponent + 53) := by
      rw [two_zpow_add_53]
      refine mul_lt_mul_of_pos_right ?_ hp
      linarith
    have hle : (2 : ℚ) ^ (x.exponent + 53) ≤ 2 ^ (e + 52) :=
      zpow_le_zpow_right₀ (by norm_num) (by omega)
    linarith [h.le_highEnd]

theorem ofParts?_withSign (x : Double) (negative : Bool) :
    ofParts? negative x.mantissa x.exponent = some (x.withSign negative) :=
  dif_pos x.canonical

/-- A value in the rounding interval of a number other than zero is rounded to it. -/
theorem nearest?_of_covers (negative : Bool) {num den : Nat} (hx : x.mantissa ≠ 0) (hden : 0 < den)
    (h : x.Covers (num / den)) : nearest? negative num den = some (x.withSign negative) := by
  have hnum : 0 < num := by
    rcases Nat.eq_zero_or_pos num with rfl | hnum
    · simpa using h.pos hx
    · exact hnum
  obtain ⟨e, m, hm, he, hgrid, htop, heq⟩ := nearest?_grid negative hnum hden
  rw [heq]
  rcases h.grid he hgrid htop with rfl | ⟨hexp, hnarrow⟩
  · have hmantissa : m = x.mantissa := hm.unique h.roundsTo
    rw [if_neg (by have := x.mantissa_lt; omega), hmantissa]
    exact x.ofParts?_withSign negative
  · -- The value rounds up to the power of two.
    have hmantissa : x.mantissa = 0x10000000000000 := by
      simp only [isNarrow, Bool.and_eq_true, beq_iff_eq] at hnarrow
      exact hnarrow.1
    have hpow : (2 : ℚ) ^ x.exponent = 2 * 2 ^ e := by rw [← hexp, two_zpow_succ]
    have hlow : (0x20000000000000 : ℚ) - 1 / 2 ≤ num / den / 2 ^ e := by
      have hle := h.lowEnd_le
      rw [lowEnd, if_pos hnarrow, hmantissa, hpow] at hle
      rw [le_div_iff₀ (two_zpow_pos e)]
      refine le_trans (le_of_eq ?_) hle
      push_cast
      ring
    have hhigh : (num : ℚ) / den / 2 ^ e < 0x20000000000000 := by
      rw [div_lt_iff₀ (two_zpow_pos e), ← two_zpow_add_53]
      exact htop
    have htwo : m = 0x20000000000000 := by
      refine hm.unique (RoundsTo.of_abs_le_of_even ?_ (by decide))
      push_cast
      rw [abs_sub_le_iff]
      constructor <;> linarith
    rw [if_pos htwo, hexp, ← hmantissa]
    exact x.ofParts?_withSign negative

end Double

end Rulebook
