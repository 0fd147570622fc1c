import Mathlib.Algebra.Order.Field.Power
import Mathlib.Tactic.Linarith
import Mathlib.Tactic.NormNum
import Mathlib.Tactic.Positivity
import Rulebook.Proofs.Number.Value

/-! # Rounding to doubles

Values are rational numbers here, and a double stands for the value `Double.magnitude`.

* `RoundsTo`: the natural nearest to a value, a half going to the even one. It is unique, and it is
  what `roundHalfEven` computes.
* `nearest?_grid`: `Double.nearest?` scales a value by the power of two that leaves 53 bits before
  the point, or by the least one, and rounds there.
* `nearest?_bounds`: the result exists up to `2 ^ 1023` and does not pass any power of two that the
  value does not pass.
* `nearest?_error`: it is off by at most one part in `2 ^ 53`.
* `nearest?_exact`: a value of at most 53 bits is kept.
-/

set_option autoImplicit false

namespace Rulebook

/-! ## Powers with integer exponents -/

theorem zpow_mul_toNat {b : ℚ} (hb : b ≠ 0) (k : ℤ) : b ^ k * b ^ (-k).toNat = b ^ k.toNat := by
  rcases Int.le_total 0 k with hk | hk
  · obtain ⟨n, rfl⟩ := Int.eq_ofNat_of_zero_le hk
    simp
  · obtain ⟨n, hn⟩ := Int.eq_ofNat_of_zero_le (Int.neg_nonneg_of_nonpos hk)
    obtain rfl : k = -(n : ℤ) := by omega
    have hpow : b ^ n ≠ 0 := pow_ne_zero n hb
    simp [hpow]

theorem cast_twoPow (n : Nat) : (twoPow n : ℚ) = 2 ^ n := by
  rw [twoPow_eq]
  push_cast
  rfl

theorem two_zpow_succ (k : ℤ) : (2 : ℚ) ^ (k + 1) = 2 * 2 ^ k := by
  rw [zpow_add_one₀ (by decide), mul_comm]

theorem two_zpow_add_52 (k : ℤ) : (2 : ℚ) ^ (k + 52) = 0x10000000000000 * 2 ^ k := by
  rw [zpow_add₀ (by decide), mul_comm]
  norm_num

theorem two_zpow_add_53 (k : ℤ) : (2 : ℚ) ^ (k + 53) = 0x20000000000000 * 2 ^ k := by
  rw [zpow_add₀ (by decide), mul_comm]
  norm_num

theorem two_zpow_pos (k : ℤ) : (0 : ℚ) < 2 ^ k :=
  zpow_pos (by decide) k

/-- Scaling a quotient by a power. -/
theorem scaled_ratio {b : ℚ} (hb : b ≠ 0) {pow : Nat → Nat} (hpow : ∀ n, (pow n : ℚ) = b ^ n)
    (num den : Nat) (e : ℤ) (hden : 0 < den) :
    ((num * pow (-e).toNat : Nat) : ℚ) / (den * pow e.toNat : Nat) = num / den / b ^ e := by
  have hd : (den : ℚ) ≠ 0 := by exact_mod_cast hden.ne'
  have hp : b ^ e ≠ 0 := zpow_ne_zero e hb
  have hq : b ^ (-e).toNat ≠ 0 := pow_ne_zero _ hb
  rw [Nat.cast_mul, Nat.cast_mul, hpow, hpow, ← zpow_mul_toNat hb e]
  field_simp

/-! ## Rounding to naturals -/

/-- The natural `n` is the nearest one to `v`, and even if another one is as near. -/
def RoundsTo (v : ℚ) (n : Nat) : Prop :=
  |v - n| < 1 / 2 ∨ |v - n| = 1 / 2 ∧ n % 2 = 0

namespace RoundsTo

variable {v : ℚ} {m n k : Nat}

theorem abs_le (h : RoundsTo v n) : |v - n| ≤ 1 / 2 := by
  rcases h with h | h
  · exact h.le
  · exact h.1.le

theorem of_abs_le_of_even (h : |v - n| ≤ 1 / 2) (heven : n % 2 = 0) : RoundsTo v n :=
  h.lt_or_eq.imp_right fun h => ⟨h, heven⟩

theorem unique (hm : RoundsTo v m) (hn : RoundsTo v n) : m = n := by
  by_contra hne
  -- Two naturals as near as a half differ by one, and then one of them is odd.
  wlog hlt : m < n generalizing m n
  · exact this hn hm (Ne.symm hne) (by omega)
  have hgap : (m : ℚ) + 1 ≤ n := by exact_mod_cast hlt
  have hm' := abs_sub_le_iff.mp hm.abs_le
  have hn' := abs_sub_le_iff.mp hn.abs_le
  have heq : (n : ℚ) = m + 1 := by linarith [hm'.1, hn'.2]
  have hn1 : n = m + 1 := by exact_mod_cast heq
  have hvm : |v - m| = 1 / 2 := by
    rw [abs_of_nonneg] <;> linarith [hm'.1, hn'.2]
  have hvn : |v - n| = 1 / 2 := by
    rw [abs_of_nonpos] <;> linarith [hm'.1, hn'.2]
  have hme : m % 2 = 0 := (hm.resolve_left (by rw [hvm]; exact lt_irrefl _)).2
  have hne' : n % 2 = 0 := (hn.resolve_left (by rw [hvn]; exact lt_irrefl _)).2
  omega

theorem natCast (n : Nat) : RoundsTo n n := by
  left
  norm_num

/-- Rounding does not pass a natural. -/
theorem le_of_le (h : RoundsTo v n) (hk : v ≤ k) : n ≤ k := by
  have habs := (abs_sub_le_iff.mp h.abs_le).2
  have hlt : (n : ℚ) < k + 1 := by linarith
  exact Nat.lt_succ_iff.mp (by exact_mod_cast hlt)

theorem ge_of_ge (h : RoundsTo v n) (hk : k ≤ v) : k ≤ n := by
  have habs := (abs_sub_le_iff.mp h.abs_le).1
  have hlt : (k : ℚ) < n + 1 := by linarith
  exact Nat.lt_succ_iff.mp (by exact_mod_cast hlt)

end RoundsTo

theorem roundsTo_roundHalfEven (num : Nat) {den : Nat} (hden : 0 < den) :
    RoundsTo (num / den) (roundHalfEven num den) := by
  have hd : (0 : ℚ) < den := by exact_mod_cast hden
  have hv : (num : ℚ) / den = (num / den : Nat) + (2 * (num % den) : Nat) / den / 2 := by
    have hdiv : (num : ℚ) = den * (num / den : Nat) + (num % den : Nat) := by
      exact_mod_cast (Nat.div_add_mod num den).symm
    have hmod : ((2 * (num % den) : Nat) : ℚ) / den / 2 = (num % den : Nat) / den := by
      push_cast
      ring
    rw [hmod, eq_comm, ← sub_eq_zero]
    field_simp
    linarith
  have hnonneg : (0 : ℚ) ≤ (2 * (num % den) : Nat) / den := by positivity
  have hlt : ((2 * (num % den) : Nat) : ℚ) / den < 2 := by
    rw [div_lt_iff₀ hd]
    exact_mod_cast Nat.mul_lt_mul_of_pos_left (Nat.mod_lt num hden) (by decide : 0 < 2)
  have hhalf := Nat.lt_trichotomy (2 * (num % den)) den
  rw [hv]
  unfold roundHalfEven
  dsimp only
  generalize num / den = q at *
  generalize 2 * (num % den) = twice at *
  rcases hhalf with hlow | hmid | hhigh
  · have hx : (twice : ℚ) / den < 1 := by
      rw [div_lt_one hd]
      exact_mod_cast hlow
    rw [if_pos hlow]
    left
    rw [abs_of_nonneg] <;> linarith
  · have hx : (twice : ℚ) / den = 1 := by
      rw [hmid]
      exact div_self hd.ne'
    rw [if_neg (by omega), if_neg (by omega), hx]
    right
    split
    · next heven => exact ⟨by norm_num, heven⟩
    · refine ⟨?_, by omega⟩
      push_cast
      rw [abs_of_nonpos] <;> linarith
  · have hx : 1 < (twice : ℚ) / den := by
      rw [one_lt_div hd]
      exact_mod_cast hhigh
    rw [if_neg (by omega), if_pos hhigh]
    left
    push_cast
    rw [abs_of_nonpos] <;> linarith

/-! ## The binary exponent of a value -/

theorem pow_log2_le {n : Nat} (hn : 0 < n) : (2 : ℚ) ^ (n.log2 : ℤ) ≤ n := by
  rw [zpow_natCast]
  exact_mod_cast Nat.log2_self_le hn.ne'

theorem lt_pow_log2 (n : Nat) : (n : ℚ) < 2 ^ ((n.log2 : ℤ) + 1) := by
  have h : n < 2 ^ (n.log2 + 1) := Nat.lt_log2_self
  have hcast : (2 : ℚ) ^ ((n.log2 : ℤ) + 1) = (2 ^ (n.log2 + 1) : Nat) := by
    push_cast
    exact_mod_cast rfl
  rw [hcast]
  exact_mod_cast h

theorem floorLog2_spec {num den : Nat} (hnum : 0 < num) (hden : 0 < den) :
    (2 : ℚ) ^ floorLog2 num den ≤ num / den ∧
      (num : ℚ) / den < 2 ^ (floorLog2 num den + 1) := by
  have hd : (0 : ℚ) < den := by exact_mod_cast hden
  have hden' := pow_log2_le hden
  have hnum' := pow_log2_le hnum
  have hden'' := lt_pow_log2 den
  have hnum'' := lt_pow_log2 num
  unfold floorLog2
  dsimp only
  generalize hk : (num.log2 : ℤ) - den.log2 = k
  have htest : den * twoPow k.toNat ≤ num * twoPow (-k).toNat ↔ (2 : ℚ) ^ k ≤ num / den := by
    have hp : (0 : ℚ) < 2 ^ (-k).toNat := by positivity
    rw [le_div_iff₀ hd, ← mul_le_mul_iff_left₀ hp, mul_assoc, mul_comm (den : ℚ), ← mul_assoc,
      zpow_mul_toNat (by decide), mul_comm, ← cast_twoPow, ← cast_twoPow]
    exact_mod_cast Iff.rfl
  have hup : (num : ℚ) / den < 2 ^ (k + 1) := by
    rw [div_lt_iff₀ hd]
    calc (num : ℚ) < 2 ^ ((num.log2 : ℤ) + 1) := hnum''
      _ = 2 ^ (k + 1) * 2 ^ (den.log2 : ℤ) := by
        rw [← zpow_add₀ (by decide)]
        congr 1
        omega
      _ ≤ 2 ^ (k + 1) * den := by gcongr
  have hdown : (2 : ℚ) ^ (k - 1) ≤ num / den := by
    rw [le_div_iff₀ hd]
    calc (2 : ℚ) ^ (k - 1) * den ≤ 2 ^ (k - 1) * 2 ^ ((den.log2 : ℤ) + 1) := by gcongr
      _ = 2 ^ (num.log2 : ℤ) := by
        rw [← zpow_add₀ (by decide)]
        congr 1
        omega
      _ ≤ num := hnum'
  split
  · next h => exact ⟨htest.mp h, hup⟩
  · next h =>
    refine ⟨hdown, ?_⟩
    rw [Int.sub_add_cancel]
    exact not_le.mp (mt htest.mpr h)

/-! ## Rounding a quotient -/

namespace Double

/-- The value of a double without its sign. -/
def magnitude (x : Double) : ℚ :=
  x.mantissa * 2 ^ x.exponent

theorem ratio_pos (x : Double) : 0 < x.ratio.2 :=
  twoPow_pos _

theorem ratio_eq (x : Double) : (x.ratio.1 : ℚ) / x.ratio.2 = x.magnitude := by
  have hp : (2 : ℚ) ^ (-x.exponent).toNat ≠ 0 := pow_ne_zero _ (by decide)
  rw [ratio, Nat.cast_mul, cast_twoPow, cast_twoPow, ← zpow_mul_toNat (by decide) x.exponent,
    magnitude]
  field_simp

theorem mantissa_lt (x : Double) : x.mantissa < 0x20000000000000 := by
  rcases x.canonical with h | h <;> omega

theorem exponent_ge (x : Double) : -1074 ≤ x.exponent := by
  rcases x.canonical with h | h <;> omega

theorem exponent_le (x : Double) : x.exponent ≤ 971 := by
  rcases x.canonical with h | h <;> omega

variable {negative : Bool} {num den : Nat}

/-- The grid on which a quotient is rounded: the multiples of `2 ^ e`, of which between `2 ^ 52` and
`2 ^ 53` are needed to reach the quotient, or fewer on the finest grid. -/
theorem nearest?_grid (negative : Bool) (hnum : 0 < num) (hden : 0 < den) :
    ∃ (e : ℤ) (m : Nat), RoundsTo (num / den / 2 ^ e) m ∧ -1074 ≤ e ∧
      ((2 : ℚ) ^ (e + 52) ≤ num / den ∨ e = -1074) ∧ (num : ℚ) / den < 2 ^ (e + 53) ∧
      nearest? negative num den =
        if m = 0x20000000000000 then ofParts? negative 0x10000000000000 (e + 1)
        else ofParts? negative m e := by
  obtain ⟨hlow, hhigh⟩ := floorLog2_spec hnum hden
  generalize hk : floorLog2 num den = k at hlow hhigh
  refine ⟨max (k - 52) (-1074), roundHalfEven (num * twoPow (-max (k - 52) (-1074)).toNat)
    (den * twoPow (max (k - 52) (-1074)).toNat), ?_, by omega, ?_, ?_, ?_⟩
  · rw [← scaled_ratio (by decide) cast_twoPow num den _ hden]
    exact roundsTo_roundHalfEven _ (Nat.mul_pos hden (twoPow_pos _))
  · rcases Int.le_total (k - 52) (-1074) with hle | hle
    · exact .inr (max_eq_right hle)
    · left
      rw [max_eq_left hle, Int.sub_add_cancel]
      exact hlow
  · refine hhigh.trans_le (zpow_le_zpow_right₀ (by norm_num) ?_)
    omega
  · rw [nearest?, if_neg hnum.ne', hk]

/-- On such a grid a quotient rounds to a mantissa, or to the power of two after the last one. -/
theorem mantissa_of_grid {v : ℚ} {e : ℤ} {m : Nat} (hm : RoundsTo (v / 2 ^ e) m)
    (hlow : (2 : ℚ) ^ (e + 52) ≤ v ∨ e = -1074) (hhigh : v < 2 ^ (e + 53)) :
    m ≤ 0x20000000000000 ∧ (0x10000000000000 ≤ m ∨ e = -1074) := by
  have hp := two_zpow_pos e
  refine ⟨hm.le_of_le ?_, hlow.imp_left fun hlow => hm.ge_of_ge ?_⟩
  · rw [div_le_iff₀ hp]
    exact hhigh.le.trans_eq (two_zpow_add_53 e)
  · rw [le_div_iff₀ hp]
    exact (two_zpow_add_52 e).symm.trans_le hlow

theorem exponent_of_grid {v : ℚ} {e k : ℤ} (hlow : (2 : ℚ) ^ (e + 52) ≤ v ∨ e = -1074)
    (hv : v ≤ 2 ^ k) : e = -1074 ∨ e + 52 ≤ k := by
  rcases hlow with hlow | hlow
  · exact .inr ((zpow_le_zpow_iff_right₀ (by norm_num : (1 : ℚ) < 2)).mp (hlow.trans hv))
  · exact .inl hlow

theorem canonical_of_grid {e : ℤ} {m : Nat} (hm : m < 0x20000000000000)
    (hnormal : 0x10000000000000 ≤ m ∨ e = -1074) (he : -1074 ≤ e) (he' : e ≤ 971) :
    Canonical m e := by
  by_cases hsub : m < 0x10000000000000
  · exact .inl ⟨hsub, hnormal.resolve_left (by omega)⟩
  · exact .inr ⟨by omega, hm, he, he'⟩

/-- Up to `2 ^ 1023` there is a nearest double: the grid point to which the quotient rounds. -/
theorem nearest?_eq_some (negative : Bool) (hnum : 0 < num) (hden : 0 < den)
    (h : (num : ℚ) / den ≤ 2 ^ (1023 : ℤ)) :
    ∃ (x : Double) (e : ℤ) (m : Nat), nearest? negative num den = some x ∧
      x.negative = negative ∧ x.magnitude = m * 2 ^ e ∧ RoundsTo (num / den / 2 ^ e) m ∧
      -1074 ≤ e ∧ ((2 : ℚ) ^ (e + 52) ≤ num / den ∨ e = -1074) ∧
      (num : ℚ) / den < 2 ^ (e + 53) := by
  obtain ⟨e, m, hm, he, hlow, hhigh, heq⟩ := nearest?_grid negative hnum hden
  obtain ⟨hm53, hm52⟩ := mantissa_of_grid hm hlow hhigh
  have he' : e ≤ 971 := by
    have hexp := exponent_of_grid hlow h
    omega
  rcases hm53.lt_or_eq with hlt | htop
  · have hcan := canonical_of_grid hlt hm52 he he'
    refine ⟨⟨negative, m, e, hcan⟩, e, m, ?_, rfl, rfl, hm, he, hlow, hhigh⟩
    rw [heq, if_neg hlt.ne, ofParts?, dif_pos hcan]
  · -- The quotient rounds up to the next power of two, which has a smaller mantissa.
    have he'' : e ≠ 971 := by
      rintro rfl
      have hle : m ≤ 0x10000000000000 := by
        refine hm.le_of_le ?_
        rw [div_le_iff₀ (two_zpow_pos 971)]
        exact h.trans_eq (two_zpow_add_52 971)
      omega
    have hcan : Canonical 0x10000000000000 (e + 1) :=
      .inr ⟨by omega, by omega, by omega, by omega⟩
    refine ⟨⟨negative, 0x10000000000000, e + 1, hcan⟩, e, m, ?_, rfl, ?_, hm, he, hlow, hhigh⟩
    · rw [heq, if_pos htop, ofParts?, dif_pos hcan]
    · rw [magnitude, htop, two_zpow_succ]
      norm_num
      ring

/-- Rounding passes no power of two that the quotient does not pass. -/
theorem nearest?_bounds (negative : Bool) (hnum : 0 < num) (hden : 0 < den)
    (h : (num : ℚ) / den ≤ 2 ^ (1023 : ℤ)) :
    ∃ x : Double, nearest? negative num den = some x ∧ ∀ k : ℤ, -1074 ≤ k →
      ((num : ℚ) / den ≤ 2 ^ k → x.magnitude ≤ 2 ^ k) ∧
      ((2 : ℚ) ^ k ≤ num / den → (2 : ℚ) ^ k ≤ x.magnitude) := by
  obtain ⟨x, e, m, hx, -, hmag, hm, he, hlow, hhigh⟩ := nearest?_eq_some negative hnum hden h
  have hp := two_zpow_pos e
  -- A power of two on the grid is a natural number of steps.
  have hsteps {k : ℤ} (hk : e ≤ k) : (2 : ℚ) ^ k = (2 ^ (k - e).toNat : Nat) * 2 ^ e := by
    have hexp : ((k - e).toNat : ℤ) + e = k := by omega
    push_cast
    rw [← zpow_natCast, ← zpow_add₀ (by decide), hexp]
  refine ⟨x, hx, fun k hk => ⟨fun hv => ?_, fun hv => ?_⟩⟩
  · have hek : e ≤ k := by
      have hexp := exponent_of_grid hlow hv
      omega
    rw [hmag, hsteps hek]
    refine mul_le_mul_of_nonneg_right ?_ hp.le
    exact_mod_cast hm.le_of_le (by rwa [div_le_iff₀ hp, ← hsteps hek])
  · rcases Int.le_total e k with hek | hke
    · rw [hmag, hsteps hek]
      refine mul_le_mul_of_nonneg_right ?_ hp.le
      exact_mod_cast hm.ge_of_ge (by rwa [le_div_iff₀ hp, ← hsteps hek])
    · have h1 : 1 ≤ m := by
        refine hm.ge_of_ge ?_
        rw [le_div_iff₀ hp, Nat.cast_one, one_mul]
        rcases hlow with hlow | rfl
        · exact (zpow_le_zpow_right₀ (by norm_num) (by omega)).trans hlow
        · obtain rfl : k = -1074 := by omega
          exact hv
      calc (2 : ℚ) ^ k ≤ 2 ^ e := zpow_le_zpow_right₀ (by norm_num) hke
        _ ≤ m * 2 ^ e := le_mul_of_one_le_left hp.le (by exact_mod_cast h1)
        _ = x.magnitude := hmag.symm

/-- Above the least normal value rounding is off by at most one part in `2 ^ 53`. -/
theorem nearest?_error (negative : Bool) (hnum : 0 < num) (hden : 0 < den)
    (hlow : (2 : ℚ) ^ (-1022 : ℤ) ≤ num / den) (h : (num : ℚ) / den ≤ 2 ^ (1023 : ℤ)) :
    ∃ x : Double, nearest? negative num den = some x ∧
      |x.magnitude - num / den| ≤ num / den / 2 ^ 53 := by
  obtain ⟨x, e, m, hx, -, hmag, hm, he, hgrid, -⟩ := nearest?_eq_some negative hnum hden h
  have hp := two_zpow_pos e
  have hgrid' : (2 : ℚ) ^ (e + 52) ≤ num / den := by
    rcases hgrid with hgrid | rfl
    · exact hgrid
    · exact hlow
  refine ⟨x, hx, ?_⟩
  have hscale : x.magnitude - (num : ℚ) / den = (m - num / den / 2 ^ e) * 2 ^ e := by
    rw [hmag]
    field_simp
  have herr : |(m : ℚ) - num / den / 2 ^ e| ≤ 1 / 2 := by
    rw [abs_sub_comm]
    exact hm.abs_le
  calc |x.magnitude - (num : ℚ) / den| = |(m : ℚ) - num / den / 2 ^ e| * 2 ^ e := by
        rw [hscale, abs_mul, abs_of_pos hp]
    _ ≤ 1 / 2 * 2 ^ e := mul_le_mul_of_nonneg_right herr hp.le
    _ = 2 ^ (e + 52) / 2 ^ 53 := by
      rw [two_zpow_add_52]
      norm_num
      ring
    _ ≤ num / den / 2 ^ 53 := by gcongr

/-- A quotient of at most 53 bits is a double. -/
theorem nearest?_exact (negative : Bool) {n : Nat} {t : ℤ} (hn : n < 0x20000000000000)
    (ht : -1074 ≤ t) (hnum : 0 < num) (hden : 0 < den) (h : (num : ℚ) / den ≤ 2 ^ (1023 : ℤ))
    (hv : (num : ℚ) / den = n * 2 ^ t) :
    ∃ x : Double, nearest? negative num den = some x ∧ x.magnitude = num / den := by
  obtain ⟨x, e, m, hx, -, hmag, hm, he, hlow, -⟩ := nearest?_eq_some negative hnum hden h
  have hp := two_zpow_pos e
  have het : e ≤ t := by
    rcases hlow with hlow | rfl
    · have hlt : (2 : ℚ) ^ (e + 52) < 2 ^ (t + 53) := by
        refine hlow.trans_lt ?_
        rw [hv, two_zpow_add_53]
        refine mul_lt_mul_of_pos_right ?_ (two_zpow_pos t)
        exact_mod_cast hn
      have hexp := (zpow_lt_zpow_iff_right₀ (by norm_num : (1 : ℚ) < 2)).mp hlt
      omega
    · exact ht
  have hsteps : (num : ℚ) / den = (n * 2 ^ (t - e).toNat : Nat) * 2 ^ e := by
    have hexp : ((t - e).toNat : ℤ) + e = t := by omega
    rw [hv]
    push_cast
    rw [mul_assoc, ← zpow_natCast, ← zpow_add₀ (by decide), hexp]
  have hm' : m = n * 2 ^ (t - e).toNat := by
    refine hm.unique ?_
    rw [hsteps, mul_div_cancel_right₀ _ hp.ne']
    exact .natCast _
  exact ⟨x, hx, by rw [hmag, hm', hsteps]⟩

end Double

end Rulebook
