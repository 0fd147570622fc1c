import Mathlib.Algebra.Order.Floor.Semifield
import Mathlib.Data.Rat.Floor
import Rulebook.Proofs.Number.ReadingBack

/-! # The shortest digits of a double

The search for the shortest digits ends, because the grid of seventeen digits is finer than any
rounding interval (`atPrecision?_isSome`). What it finds are at most seventeen digits without a
trailing zero, and their value is read back as the double (`shortest_spec`).
-/

set_option autoImplicit false

namespace Rulebook

/-! ## Powers of two and of ten -/

theorem ten_zpow_pos (k : ℤ) : (0 : ℚ) < 10 ^ k :=
  zpow_pos (by decide) k

/-- An inequality between two powers gives one between all powers with exponents in that ratio. -/
theorem zpow_le_zpow_of_pow_le {a b : ℚ} {m n : Nat} (ha : 1 ≤ a) (hb : 0 < b) (hn : n ≠ 0)
    (hab : a ^ m ≤ b ^ n) {k l : ℤ} (hl : 0 ≤ l) (hk : n * k ≤ m * l) : a ^ k ≤ b ^ l := by
  refine le_of_pow_le_pow_left₀ hn (zpow_pos hb l).le ?_
  calc (a ^ k) ^ n = a ^ (n * k) := by rw [← zpow_natCast, ← zpow_mul, mul_comm]
    _ ≤ a ^ (m * l) := zpow_le_zpow_right₀ ha hk
    _ = (a ^ m) ^ l := by rw [zpow_mul, zpow_natCast]
    _ ≤ (b ^ n) ^ l := zpow_le_zpow_left₀ hl (pow_pos (by linarith) m).le hab
    _ = (b ^ l) ^ n := by rw [← zpow_natCast, ← zpow_natCast, zpow_comm]

theorem two_pow_93_le : (2 : ℚ) ^ 93 ≤ 10 ^ 28 := by norm_num

theorem ten_pow_59_le : (10 : ℚ) ^ 59 ≤ 2 ^ 196 := by norm_num

theorem zpow_le_zpow_iff_neg {a b : ℚ} (ha : 0 < a) (hb : 0 < b) (k l : ℤ) :
    a ^ k ≤ b ^ l ↔ b ^ (-l) ≤ a ^ (-k) := by
  rw [zpow_neg, zpow_neg, inv_le_inv₀ (zpow_pos hb l) (zpow_pos ha k)]

theorem ten_zpow_le_two_zpow {k l : ℤ} (h59 : 196 * k ≤ 59 * l) (h28 : 93 * k ≤ 28 * l) :
    (10 : ℚ) ^ k ≤ 2 ^ l := by
  rcases Int.le_total 0 l with hl | hl
  · exact zpow_le_zpow_of_pow_le (by norm_num) (by norm_num) (by decide) ten_pow_59_le hl h59
  · rw [zpow_le_zpow_iff_neg (by norm_num) (by norm_num)]
    refine zpow_le_zpow_of_pow_le (by norm_num) (by norm_num) (by decide) two_pow_93_le ?_ ?_
    · omega
    · push_cast
      omega

theorem two_zpow_le_ten_zpow {k l : ℤ} (h59 : 59 * l ≤ 196 * k) (h28 : 28 * l ≤ 93 * k) :
    (2 : ℚ) ^ l ≤ 10 ^ k := by
  rcases Int.le_total 0 l with hl | hl
  · exact zpow_le_zpow_of_pow_le (by norm_num) (by norm_num) (by decide) two_pow_93_le (by omega)
      h28
  · rw [zpow_le_zpow_iff_neg (by norm_num) (by norm_num)]
    refine zpow_le_zpow_of_pow_le (by norm_num) (by norm_num) (by decide) ten_pow_59_le ?_ ?_
    · omega
    · push_cast
      omega

namespace Double

variable {x : Double}

/-! ## The place of the first digit -/

theorem magnitude_log2 (hx : x.mantissa ≠ 0) :
    (2 : ℚ) ^ (x.mantissa.log2 + x.exponent) ≤ x.magnitude ∧
      x.magnitude < 2 ^ (x.mantissa.log2 + x.exponent + 1) := by
  have hp := two_zpow_pos x.exponent
  constructor
  · rw [zpow_add₀ (by decide)]
    exact mul_le_mul_of_nonneg_right (pow_log2_le (Nat.pos_of_ne_zero hx)) hp.le
  · rw [add_right_comm, zpow_add₀ (by decide)]
    exact mul_lt_mul_of_pos_right (lt_pow_log2 _) hp

theorem decimalPlaces_spec (hx : x.mantissa ≠ 0) :
    (10 : ℚ) ^ (x.decimalPlaces - 1) ≤ x.magnitude ∧ x.magnitude < 10 ^ x.decimalPlaces := by
  obtain ⟨hlow, hhigh⟩ := magnitude_log2 hx
  have hbelow (k : ℤ) : (compareScaled 1 k x.mantissa x.exponent == .gt) = true ↔
      x.magnitude < 10 ^ k := by
    rw [compareScaled_eq, beq_iff_eq, compare_gt_iff_gt, Nat.cast_one, one_mul, magnitude]
  have hlog : x.mantissa.log2 < 53 := (Nat.log2_lt hx).mpr x.mantissa_lt
  have hmin : -1074 ≤ (x.mantissa.log2 : ℤ) + x.exponent := by
    have := x.exponent_ge
    omega
  have hmax : (x.mantissa.log2 : ℤ) + x.exponent ≤ 1023 := by
    have := x.exponent_le
    omega
  unfold decimalPlaces
  dsimp only
  generalize (x.mantissa.log2 : ℤ) + x.exponent = l at *
  have hdown : (10 : ℚ) ^ (l * 30103 / 100000 - 1) ≤ x.magnitude :=
    (ten_zpow_le_two_zpow (by omega) (by omega)).trans hlow
  have hup : x.magnitude < 10 ^ (l * 30103 / 100000 + 2) :=
    hhigh.trans_le (two_zpow_le_ten_zpow (by omega) (by omega))
  split
  · next h => exact ⟨hdown, (hbelow _).mp h⟩
  · next h =>
    rw [hbelow, not_lt] at h
    split
    · next h' =>
      rw [Int.add_sub_cancel]
      exact ⟨h, (hbelow _).mp h'⟩
    · next h' =>
      rw [hbelow, not_lt] at h'
      refine ⟨?_, hup⟩
      have hexp : l * 30103 / 100000 + 2 - 1 = l * 30103 / 100000 + 1 := by omega
      rw [hexp]
      exact h'

/-! ## The grid of a given number of digits -/

theorem magnitude_pos (hx : x.mantissa ≠ 0) : 0 < x.magnitude :=
  mul_pos (by exact_mod_cast Nat.pos_of_ne_zero hx) (two_zpow_pos _)

theorem lowEnd_lt (x : Double) : x.lowEnd < x.magnitude := by
  refine mul_lt_mul_of_pos_right ?_ (two_zpow_pos _)
  split <;> linarith

theorem lt_highEnd (x : Double) : x.magnitude < x.highEnd := by
  refine mul_lt_mul_of_pos_right ?_ (two_zpow_pos _)
  linarith

theorem interval_width (x : Double) : x.magnitude / 2 ^ 53 < x.highEnd - x.lowEnd := by
  have hp := two_zpow_pos x.exponent
  have hm : (x.mantissa : ℚ) < 2 ^ 53 := by
    norm_num
    exact_mod_cast x.mantissa_lt
  rw [highEnd, lowEnd, ← sub_mul, magnitude, mul_div_right_comm]
  refine mul_lt_mul_of_pos_right ?_ hp
  rw [div_lt_iff₀ (by norm_num)]
  split
  · next hnarrow =>
    simp only [isNarrow, Bool.and_eq_true, beq_iff_eq] at hnarrow
    rw [hnarrow.1]
    norm_num
  · linarith

/-- The points next to a number on the grid of the multiples of `10 ^ power`. -/
def below (x : Double) (power : ℤ) : Digits :=
  ⟨x.ratio.1 * tenPow (-power).toNat / (x.ratio.2 * tenPow power.toNat), power⟩

def above (x : Double) (power : ℤ) : Digits :=
  ⟨(x.below power).digits + 1, power⟩

theorem value_above (x : Double) (power : ℤ) :
    (x.above power).value = (x.below power).value + 10 ^ power := by
  rw [Digits.value, Digits.value, above, below]
  push_cast
  ring

theorem below_le_lt_above (x : Double) (power : ℤ) :
    (x.below power).value ≤ x.magnitude ∧ x.magnitude < (x.above power).value := by
  have hp := ten_zpow_pos power
  have hratio := scaled_ratio (by decide) cast_tenPow x.ratio.1 x.ratio.2 power x.ratio_pos
  rw [ratio_eq] at hratio
  rw [Digits.value, Digits.value, above, below, ← le_div_iff₀ hp, ← div_lt_iff₀ hp, ← hratio,
    Nat.cast_add, Nat.cast_one, ← Nat.floor_div_eq_div (K := ℚ)]
  exact ⟨Nat.floor_le (by positivity), Nat.lt_floor_add_one _⟩

theorem roundHalfEven_cases (num den : Nat) :
    roundHalfEven num den = num / den ∨ roundHalfEven num den = num / den + 1 := by
  unfold roundHalfEven
  dsimp only
  split_ifs
  · exact .inl rfl
  · exact .inr rfl
  · exact .inl rfl
  · exact .inr rfl

/-- What is found on a grid is one of the two points next to the number. -/
theorem atPrecision?_eq (x : Double) (places : ℤ) (count : Nat) :
    ∃ near, (near = x.below (places - count) ∨ near = x.above (places - count)) ∧
      x.atPrecision? places count =
        if x.readsBack (x.below (places - count)) && x.readsBack (x.above (places - count)) then
          some near
        else if x.readsBack (x.below (places - count)) then some (x.below (places - count))
        else if x.readsBack (x.above (places - count)) then some (x.above (places - count))
        else none := by
  refine ⟨⟨roundHalfEven _ _, _⟩, ?_, rfl⟩
  rcases roundHalfEven_cases (x.ratio.1 * tenPow (-(places - (count : ℤ))).toNat)
    (x.ratio.2 * tenPow (places - (count : ℤ)).toNat) with heq | heq
  · left
    rw [heq]
    rfl
  · right
    rw [heq]
    rfl

theorem atPrecision?_eq_some (hx : x.mantissa ≠ 0) {places : ℤ} {count : Nat} {d : Digits}
    (h : x.atPrecision? places count = some d) : x.Covers d.value ∧
      (d = x.below (places - count) ∨ d = x.above (places - count)) := by
  obtain ⟨near, hnear, heq⟩ := x.atPrecision?_eq places count
  rw [heq] at h
  split at h
  · next hboth =>
    rw [Bool.and_eq_true, readsBack_iff hx, readsBack_iff hx] at hboth
    cases h
    rcases hnear with rfl | rfl
    · exact ⟨hboth.1, .inl rfl⟩
    · exact ⟨hboth.2, .inr rfl⟩
  · split at h
    · next hbelow =>
      cases h
      exact ⟨(readsBack_iff hx).mp hbelow, .inl rfl⟩
    · split at h
      · next habove =>
        cases h
        exact ⟨(readsBack_iff hx).mp habove, .inr rfl⟩
      · cases h

theorem atPrecision?_isSome_iff (hx : x.mantissa ≠ 0) {places : ℤ} {count : Nat} :
    (x.atPrecision? places count).isSome ↔
      x.Covers (x.below (places - count)).value ∨ x.Covers (x.above (places - count)).value := by
  obtain ⟨near, -, heq⟩ := x.atPrecision?_eq places count
  rw [heq, ← readsBack_iff hx, ← readsBack_iff hx]
  cases x.readsBack (x.below (places - count)) <;> cases x.readsBack (x.above (places - count)) <;>
    simp

/-- A grid finer than the rounding interval has a point in it. -/
theorem atPrecision?_isSome (hx : x.mantissa ≠ 0) {places : ℤ} {count : Nat}
    (h : (10 : ℚ) ^ (places - count) < x.highEnd - x.lowEnd) :
    (x.atPrecision? places count).isSome := by
  obtain ⟨hbelow, habove⟩ := x.below_le_lt_above (places - count)
  have hstep := x.value_above (places - count)
  rw [atPrecision?_isSome_iff hx]
  by_contra hneither
  rw [not_or] at hneither
  have hlow : (x.below (places - count)).value ≤ x.lowEnd := by
    by_contra hlt
    exact hneither.1 ⟨.inl (not_le.mp hlt), .inl (hbelow.trans_lt x.lt_highEnd)⟩
  have hhigh : x.highEnd ≤ (x.above (places - count)).value := by
    by_contra hlt
    exact hneither.2 ⟨.inl (x.lowEnd_lt.trans habove), .inl (not_le.mp hlt)⟩
  linarith

/-! ## The digits -/

theorem dropZeros_spec {fuel : Nat} {d : Digits} (hpos : 0 < d.digits)
    (hle : d.digits ≤ 10 ^ fuel) :
    (dropZeros fuel d).value = d.value ∧ (dropZeros fuel d).digits % 10 ≠ 0 ∧
      (dropZeros fuel d).digits ≤ d.digits := by
  induction fuel generalizing d with
  | zero =>
    have hone : d.digits = 1 := by
      rw [pow_zero] at hle
      omega
    exact ⟨rfl, by rw [dropZeros, hone]; decide, le_refl _⟩
  | succ fuel ih =>
    rw [dropZeros]
    split
    · next hzero =>
      obtain ⟨q, hq⟩ : 10 ∣ d.digits := Nat.dvd_of_mod_eq_zero hzero
      have hdiv : d.digits / 10 = q := by omega
      obtain ⟨hvalue, hmod, hdigits⟩ := ih (d := ⟨d.digits / 10, d.power + 1⟩)
        (show 0 < d.digits / 10 by omega)
        (show d.digits / 10 ≤ 10 ^ fuel by rw [pow_succ] at hle; omega)
      refine ⟨?_, hmod, hdigits.trans (Nat.div_le_self _ _)⟩
      rw [hvalue, Digits.value, Digits.value, hdiv, hq, zpow_add_one₀ (by decide)]
      push_cast
      ring
    · next hmod => exact ⟨rfl, hmod, le_refl _⟩

/-- A number of `count` digits before the grid has at most that many steps. -/
theorem below_digits_lt {places : ℤ} {count : Nat} (h : x.magnitude < 10 ^ places) :
    (x.below (places - count)).digits < 10 ^ count := by
  have hlt := (x.below_le_lt_above (places - count)).1.trans_lt h
  have hsplit : (10 : ℚ) ^ places = (10 ^ count : Nat) * 10 ^ (places - (count : ℤ)) := by
    push_cast
    rw [← zpow_natCast, ← zpow_add₀ (by decide)]
    congr 1
    omega
  rw [hsplit] at hlt
  exact_mod_cast lt_of_mul_lt_mul_right hlt (ten_zpow_pos _).le

/-- The grid of seventeen digits is finer than the rounding interval. -/
theorem seventeen_digits (hx : x.mantissa ≠ 0) :
    (10 : ℚ) ^ (x.decimalPlaces - 17) < x.highEnd - x.lowEnd := by
  have hpos := magnitude_pos hx
  have hplaces : (10 : ℚ) ^ (x.decimalPlaces - 17) * 10 ^ (16 : ℤ) ≤ x.magnitude := by
    have hexp : x.decimalPlaces - 17 + 16 = x.decimalPlaces - 1 := by omega
    rw [← zpow_add₀ (by decide), hexp]
    exact (decimalPlaces_spec hx).1
  calc (10 : ℚ) ^ (x.decimalPlaces - 17) ≤ x.magnitude / 10 ^ (16 : ℤ) := by
        rwa [le_div_iff₀ (ten_zpow_pos 16)]
    _ < x.magnitude / 2 ^ 53 := by
      refine div_lt_div_of_pos_left hpos (by norm_num) (by norm_num)
    _ < x.highEnd - x.lowEnd := x.interval_width

/-- The search succeeds, at the latest on the grid of seventeen digits. -/
theorem shortest_eq (hx : x.mantissa ≠ 0) : ∃ (count : Nat) (d : Digits), count ≤ 17 ∧
    x.atPrecision? x.decimalPlaces count = some d ∧ x.shortest = dropZeros 17 d := by
  have hsome : ((List.range 17).findSome? fun i =>
      x.atPrecision? x.decimalPlaces (i + 1)).isSome := by
    rw [List.findSome?_isSome_iff]
    refine ⟨16, List.mem_range.mpr (by decide), ?_⟩
    exact atPrecision?_isSome hx (seventeen_digits hx)
  unfold shortest
  dsimp only
  split
  · next d hd =>
    obtain ⟨i, hi, heq⟩ := List.exists_of_findSome?_eq_some hd
    exact ⟨i + 1, d, List.mem_range.mp hi, heq, rfl⟩
  · next hnone =>
    rw [hnone] at hsome
    cases hsome

/-- The shortest digits are read back as the number. They are at most seventeen, without a trailing
zero. -/
theorem shortest_spec (hx : x.mantissa ≠ 0) :
    x.Covers x.shortest.value ∧ 0 < x.shortest.digits ∧ x.shortest.digits < 10 ^ 17 ∧
      x.shortest.digits % 10 ≠ 0 := by
  obtain ⟨count, d, hcount, hd, heq⟩ := shortest_eq hx
  obtain ⟨hcovers, hside⟩ := atPrecision?_eq_some hx hd
  have hpos : 0 < d.digits := by
    rcases Nat.eq_zero_or_pos d.digits with hzero | hpos
    · have hvalue := hcovers.pos hx
      rw [Digits.value, hzero] at hvalue
      simp at hvalue
    · exact hpos
  have hle : d.digits ≤ 10 ^ 17 := by
    have hbelow : (x.below (x.decimalPlaces - count)).digits < 10 ^ count :=
      below_digits_lt (decimalPlaces_spec hx).2
    have hpow : 10 ^ count ≤ 10 ^ 17 := Nat.pow_le_pow_right (by decide) hcount
    rcases hside with rfl | rfl
    · omega
    · exact Nat.succ_le_of_lt (hbelow.trans_le hpow)
  obtain ⟨hvalue, hmod, hdigits⟩ := dropZeros_spec hpos hle
  rw [heq, hvalue]
  refine ⟨hcovers, ?_, ?_, hmod⟩
  · omega
  · have hne : (dropZeros 17 d).digits ≠ 10 ^ 17 := fun h => hmod (by rw [h]; decide)
    omega

end Double

end Rulebook
