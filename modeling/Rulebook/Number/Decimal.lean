import Rulebook.Number.Double

/-! # Decimal numbers

A `Decimal` is a magnitude of at most 96 bits with a sign, over a power of ten of at most 28. The
scale is part of the number, so `18` and `18.0` are two decimals of equal value: comparisons go by
value, while printing keeps the scale. Zero has a sign as well, which only printing shows.

* `coefficient`: the magnitude with its sign.
* `equal`, `lt`, `le`: comparison by value.
* `normalForm`: coefficient and scale in lowest terms, the same for decimals of equal value.
* `toInt?`: the value, where it is an integer.
* `add?`: the sum, rounded where it needs more than 96 bits.
* `toDouble?`: the double that stands for the decimal in JSON.
-/

set_option autoImplicit false

namespace Rulebook

/-- The number `magnitude / 10 ^ scale`, negated if `negative`. -/
structure Decimal where
  negative : Bool
  magnitude : Nat
  scale : Nat
  magnitude_lt : magnitude < 0x1000000000000000000000000
  scale_le : scale ≤ 28
deriving Repr

namespace Decimal

def ofParts? (negative : Bool) (magnitude scale : Nat) : Option Decimal :=
  if h : magnitude < 0x1000000000000000000000000 ∧ scale ≤ 28 then
    some ⟨negative, magnitude, scale, h.1, h.2⟩
  else none

def ofInt (value : Int) (h : value.natAbs < 0x1000000000000000000000000) : Decimal :=
  ⟨value < 0, value.natAbs, 0, h, Nat.zero_le 28⟩

def coefficient (d : Decimal) : Int :=
  if d.negative then -(d.magnitude : Int) else d.magnitude

theorem coefficient_ofInt (value : Int) (h : value.natAbs < 0x1000000000000000000000000) :
    (ofInt value h).coefficient = value := by
  simp only [ofInt, coefficient, decide_eq_true_eq]
  split <;> omega

def equal (a b : Decimal) : Bool :=
  a.coefficient * tenPow b.scale == b.coefficient * tenPow a.scale

def lt (a b : Decimal) : Bool :=
  decide (a.coefficient * tenPow b.scale < b.coefficient * tenPow a.scale)

def le (a b : Decimal) : Bool :=
  decide (a.coefficient * tenPow b.scale ≤ b.coefficient * tenPow a.scale)

instance : BEq Decimal := ⟨equal⟩

/-- Cancels factors of ten between a coefficient and its scale. -/
def cancelTens (coefficient : Int) : Nat → Int × Nat
  | 0 => (coefficient, 0)
  | scale + 1 =>
    if coefficient % 10 = 0 then cancelTens (coefficient / 10) scale else (coefficient, scale + 1)

/-- Coefficient and scale of the value, with the least scale. -/
def normalForm (d : Decimal) : Int × Nat :=
  cancelTens d.coefficient d.scale

def toInt? (d : Decimal) : Option Int :=
  if d.coefficient % tenPow d.scale = 0 then some (d.coefficient / tenPow d.scale) else none

/-- Brings a value into range by lowering its scale as far as needed, rounding half to even; `none`
when it needs more than 96 bits before the point. -/
def fit? (coefficient : Int) (scale : Nat) : Option Decimal :=
  (List.range (scale + 1)).findSome? fun dropped =>
    ofParts? (coefficient < 0) (roundHalfEven coefficient.natAbs (tenPow dropped))
      (scale - dropped)

/-- The sum of two decimals. A zero leaves the other one as it is. -/
def add? (a b : Decimal) : Option Decimal :=
  if a.magnitude = 0 then some b
  else if b.magnitude = 0 then some a
  else
    let scale := max a.scale b.scale
    fit? (a.coefficient * tenPow (scale - a.scale) + b.coefficient * tenPow (scale - b.scale)) scale

/-- The double that stands for a decimal. An integer goes to the nearest double; otherwise integral
and fractional part are added as doubles, and the sum is rounded to the decimal's scale. -/
def toDouble? (d : Decimal) : Option Double := do
  let power := tenPow d.scale
  let whole ← Double.nearest? false (d.magnitude / power) 1
  if d.scale = 0 then return whole.withSign d.negative
  let unit ← Double.nearest? false power 1
  let fraction ← (← Double.nearest? false (d.magnitude % power) 1).div? unit
  if fraction.isZero then return whole.withSign d.negative
  let rounded ← (← (← whole.add? fraction).mul? unit).round?
  return (← rounded.div? unit).withSign d.negative

end Decimal

end Rulebook
