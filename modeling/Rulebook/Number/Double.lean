import Rulebook.Number.Power

/-! # Finite binary64 numbers

A `Double` is a sign, a mantissa and an exponent of two. Each finite binary64 number has exactly
one such form, so arithmetic is exact arithmetic on fractions followed by one rounding:

* `nearest?`: the number nearest to a fraction, an exact half going to the even mantissa.
* `ratio`: the fraction that a number stands for.
* `add?`, `mul?`, `div?`: on magnitudes; the exact result, rounded once.
-/

set_option autoImplicit false

namespace Rulebook

/-- Mantissa and exponent of a finite binary64 magnitude: a subnormal one has the least exponent,
any other has all 53 bits of the mantissa in use. -/
def Double.Canonical (mantissa : Nat) (exponent : Int) : Prop :=
  (mantissa < 0x10000000000000 ∧ exponent = -1074) ∨
    (0x10000000000000 ≤ mantissa ∧ mantissa < 0x20000000000000 ∧ -1074 ≤ exponent ∧ exponent ≤ 971)

instance (mantissa : Nat) (exponent : Int) : Decidable (Double.Canonical mantissa exponent) :=
  inferInstanceAs (Decidable (_ ∨ _))

/-- The number `mantissa * 2 ^ exponent`, negated if `negative`. Zero keeps its sign. -/
structure Double where
  negative : Bool
  mantissa : Nat
  exponent : Int
  canonical : Double.Canonical mantissa exponent
deriving DecidableEq

/-- The quotient of two naturals, rounded to the nearest natural, a half to the even one. -/
def roundHalfEven (num den : Nat) : Nat :=
  let q := num / den
  let twice := 2 * (num % den)
  if twice < den then q
  else if den < twice then q + 1
  else if q % 2 = 0 then q else q + 1

/-- The quotient of two naturals, rounded to the nearest natural, a half upwards. -/
def roundHalfUp (num den : Nat) : Nat :=
  (2 * num + den) / (2 * den)

/-- The greatest `k` with `2 ^ k ≤ num / den`, for positive `num` and `den`. -/
def floorLog2 (num den : Nat) : Int :=
  let k : Int := (num.log2 : Int) - den.log2
  if den * twoPow k.toNat ≤ num * twoPow (-k).toNat then k else k - 1

namespace Double

def ofParts? (negative : Bool) (mantissa : Nat) (exponent : Int) : Option Double :=
  if h : Canonical mantissa exponent then some ⟨negative, mantissa, exponent, h⟩ else none

def zero (negative : Bool) : Double :=
  ⟨negative, 0, -1074, by decide⟩

/-- The number nearest to `num / den` for positive `den`, a half going to the even mantissa, or
`none` beyond the finite range. -/
def nearest? (negative : Bool) (num den : Nat) : Option Double :=
  if num = 0 then some (zero negative)
  else
    let e := max (floorLog2 num den - 52) (-1074)
    let m := roundHalfEven (num * twoPow (-e).toNat) (den * twoPow e.toNat)
    if m = 0x20000000000000 then ofParts? negative 0x10000000000000 (e + 1)
    else ofParts? negative m e

def isZero (x : Double) : Bool :=
  x.mantissa == 0

/-- Equality of values: the two zeros are equal. -/
def equal (x y : Double) : Bool :=
  (x.isZero && y.isZero) || x == y

def ratio (x : Double) : Nat × Nat :=
  (x.mantissa * twoPow x.exponent.toNat, twoPow (-x.exponent).toNat)

def withSign (x : Double) (negative : Bool) : Double :=
  { x with negative }

def add? (x y : Double) : Option Double :=
  nearest? false (x.ratio.1 * y.ratio.2 + y.ratio.1 * x.ratio.2) (x.ratio.2 * y.ratio.2)

def mul? (x y : Double) : Option Double :=
  nearest? false (x.ratio.1 * y.ratio.1) (x.ratio.2 * y.ratio.2)

/-- The quotient of two magnitudes, of which the second is not zero. -/
def div? (x y : Double) : Option Double :=
  nearest? false (x.ratio.1 * y.ratio.2) (x.ratio.2 * y.ratio.1)

def round? (x : Double) : Option Double :=
  nearest? false (roundHalfUp x.ratio.1 x.ratio.2) 1

/-- The number nearest to `digits * 10 ^ power`, or `none` beyond the finite range. -/
def ofScientific? (negative : Bool) (digits : Nat) (power : Int) : Option Double :=
  let places : Int := (Nat.toDigits 10 digits).length
  if digits = 0 ∨ power + places < -400 then some (zero negative)
  else if 400 < power + places then none
  else nearest? negative (digits * tenPow power.toNat) (tenPow (-power).toNat)

end Double

end Rulebook
