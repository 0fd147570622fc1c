import Rulebook.Number.Double

/-! # The text of a double

The text of a double has the fewest significant digits that are read back as the same number, and
of those the digits nearest to it. The search goes through grids of one, two, ... seventeen
digits; a grid with a point inside the rounding interval has one among the two neighbours of the
value, so only these are tried.

* `Double.ReadsBack`: the decimals that are read as a given number.
* `Double.shortest`: the digits.
* `Double.text`: digits laid out with a point while the first digit stands between the fifth
  place after the point and the sixteenth before it, and with a signed exponent otherwise.
-/

set_option autoImplicit false

namespace Rulebook

/-- The decimal `digits * 10 ^ power`. -/
structure Digits where
  digits : Nat
  power : Int
deriving DecidableEq, Repr

/-- Compares `a * 10 ^ i` with `b * 2 ^ j`. -/
def compareScaled (a : Nat) (i : Int) (b : Nat) (j : Int) : Ordering :=
  compare (a * tenPow i.toNat * twoPow (-j).toNat) (b * twoPow j.toNat * tenPow (-i).toNat)

namespace Double

/-- Whether the decimal lies among the reals that round to the magnitude of `x`: from halfway to
the number below up to halfway to the number above, ends included for an even mantissa. -/
def readsBack (x : Double) (d : Digits) : Bool :=
  let narrow := x.mantissa == 0x10000000000000 && x.exponent != -1074
  let low := compareScaled d.digits d.power (4 * x.mantissa - if narrow then 1 else 2)
    (x.exponent - 2)
  let high := compareScaled d.digits d.power (4 * x.mantissa + 2) (x.exponent - 2)
  let closed := x.mantissa % 2 == 0
  (low == .gt || (closed && low == .eq)) && (high == .lt || (closed && high == .eq))

/-- The least `k` with `x < 10 ^ k`, for a magnitude other than zero. -/
def decimalPlaces (x : Double) : Int :=
  let log2 : Int := x.mantissa.log2 + x.exponent
  let estimate := log2 * 30103 / 100000
  -- The estimate is at most two below: log₁₀ 2 lies within 10⁻⁸ of 0.30103.
  let below (k : Int) : Bool := compareScaled 1 k x.mantissa x.exponent == .gt
  if below estimate then estimate
  else if below (estimate + 1) then estimate + 1
  else estimate + 2

/-- The decimal of `count` significant digits nearest to `x` among those that are read back as
`x`, an exact half going to the even digits. -/
def atPrecision? (x : Double) (places : Int) (count : Nat) : Option Digits :=
  let power := places - count
  let num := x.ratio.1 * tenPow (-power).toNat
  let den := x.ratio.2 * tenPow power.toNat
  let below : Digits := ⟨num / den, power⟩
  let above : Digits := ⟨num / den + 1, power⟩
  let near : Digits := ⟨roundHalfEven num den, power⟩
  if x.readsBack below && x.readsBack above then some near
  else if x.readsBack below then some below
  else if x.readsBack above then some above
  else none

/-- Moves trailing zeros of the digits into the power; `fuel` bounds their number. -/
def dropZeros : Nat → Digits → Digits
  | 0, d => d
  | fuel + 1, d =>
    if d.digits % 10 = 0 then dropZeros fuel ⟨d.digits / 10, d.power + 1⟩ else d

/-- The shortest digits that are read back as the magnitude of `x`, which is not zero. Seventeen
digits always suffice, so the exact value in the last case is never reached. -/
def shortest (x : Double) : Digits :=
  let places := x.decimalPlaces
  match (List.range 17).findSome? fun i => x.atPrecision? places (i + 1) with
  | some d => dropZeros 17 d
  | none => ⟨x.ratio.1 * tenPow (-x.exponent).toNat / x.ratio.2, min x.exponent 0⟩

def layout (d : Digits) : String :=
  let digits := Nat.toDigits 10 d.digits
  let lead : Int := d.power + digits.length - 1
  if lead < -5 ∨ 15 < lead then
    let fraction := if digits.length = 1 then [] else '.' :: digits.drop 1
    let sign := if lead < 0 then '-' else '+'
    String.ofList (digits.take 1 ++ fraction ++ ['e', sign]) ++ toString lead.natAbs
  else if lead < 0 then
    String.ofList (['0', '.'] ++ List.replicate (lead.natAbs - 1) '0' ++ digits)
  else
    let whole := lead.toNat + 1
    let fraction := if digits.length ≤ whole then ['0'] else digits.drop whole
    String.ofList
      (digits.take whole ++ List.replicate (whole - digits.length) '0' ++ '.' :: fraction)

def text (x : Double) : String :=
  (if x.negative then "-" else "") ++ if x.isZero then "0.0" else layout x.shortest

end Double

end Rulebook
