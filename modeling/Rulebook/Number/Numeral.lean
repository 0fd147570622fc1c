import Rulebook.Error
import Rulebook.Number.Decimal

/-! # Decimal numerals

How decimals are written and read.

* `Decimal.text`: all digits of the magnitude, with the point at the scale.
* `Decimal.parse`: a sign, digits with at most one point, and underscores after the first digit.
  Digits after the point that do not fit are rounded off by the first of them.
* `Decimal.parseScientific`: a numeral, `e`, and a power of ten.
-/

set_option autoImplicit false

namespace Rulebook.Decimal

def text (d : Decimal) : String :=
  let digits := Nat.toDigits 10 d.magnitude
  let padded := List.replicate (d.scale + 1 - digits.length) '0' ++ digits
  let whole := padded.take (padded.length - d.scale)
  let fraction := padded.drop (padded.length - d.scale)
  let point := if d.scale = 0 then [] else ['.']
  (if d.negative then "-" else "") ++ String.ofList (whole ++ point ++ fraction)

/-- What has been read of a numeral: the digits so far, how many of them stand after the point,
whether the point was passed and whether there was a digit at all. -/
structure Reading where
  magnitude : Nat := 0
  scale : Nat := 0
  fractional : Bool := false
  started : Bool := false

def digit? (c : Char) : Option Nat :=
  if c.isDigit then some (c.toNat - '0'.toNat) else none

def ofParts (negative : Bool) (magnitude scale : Nat) : Except DecimalError Decimal :=
  match ofParts? negative magnitude scale with
  | some d => .ok d
  | none => .error .exceedsMaximum

/-- The decimal read so far, moved up by one unit of its last place if `up`. A magnitude that
outgrows its 96 bits gives up its last place, and a zero that was read has no sign. -/
def Reading.close (r : Reading) (negative up : Bool) : Except DecimalError Decimal :=
  if r.started = false then .error .malformed
  else
    let magnitude := if up then r.magnitude + 1 else r.magnitude
    if magnitude < 0x1000000000000000000000000 then
      ofParts (negative && magnitude != 0) magnitude r.scale
    else if r.scale = 0 then .error .exceedsMaximum
    else ofParts negative ((magnitude + 4) / 10) (r.scale - 1)

/-- Magnitudes from here on are read as wide ones: one more digit might not fit in 64 bits. -/
def wideFrom : Nat := 0xffffffffffffffff / 10 - 0xff

/-- Ends a numeral whose places are used up: the next digit decides the rounding, and what follows
it is not looked at. Underscores before that digit are skipped in a `wide` numeral; otherwise an
underscore in its place counts as zero, as a point does. -/
def Reading.closeAt (r : Reading) (negative wide : Bool) (rest : List Char) :
    Except DecimalError Decimal :=
  match if wide then rest.dropWhile (· == '_') else rest with
  | [] => r.close negative false
  | c :: _ =>
    match digit? c with
    | some v => r.close negative (5 ≤ v)
    | none => if c = '_' ∨ c = '.' then r.close negative false else .error .malformed

def scan (negative : Bool) : Reading → List Char → Except DecimalError Decimal
  | r, [] => r.close negative false
  | r, c :: rest =>
    match digit? c with
    | some v =>
      let magnitude := r.magnitude * 10 + v
      if magnitude < 0x1000000000000000000000000 then
        let scale := if r.fractional then r.scale + 1 else 0
        let next : Reading := { r with magnitude, scale, started := true }
        if 28 ≤ scale then next.closeAt negative (wideFrom ≤ r.magnitude) rest
        else scan negative next rest
      else if r.fractional then r.close negative (5 ≤ v)
      else .error .exceedsMaximum
    | none =>
      if c = '.' ∧ r.fractional = false then scan negative { r with fractional := true } rest
      else if c = '_' ∧ r.started then scan negative r rest
      else .error .malformed

def parse : List Char → Except DecimalError Decimal
  | '-' :: rest => scan true {} rest
  | '+' :: rest => scan false {} rest
  | rest => scan false {} rest

/-- Divides a decimal by a power of ten. Where the scale would pass 28, as many last places are
first rounded off, half upwards in magnitude. -/
def shiftDown (d : Decimal) (power : Nat) : Except DecimalError Decimal :=
  if 28 < power then .error (.scaleExceeds power)
  else if d.scale + power ≤ 28 then ofParts d.negative d.magnitude (d.scale + power)
  else ofParts d.negative (roundHalfUp d.magnitude (tenPow (d.scale + power - 28))) 28

def shiftUp (d : Decimal) (power : Nat) : Except DecimalError Decimal :=
  if power ≤ d.scale then ofParts d.negative d.magnitude (d.scale - power)
  else if 28 < power then .error (.scaleExceeds power)
  else ofParts d.negative (d.magnitude * tenPow (power - d.scale)) 0

def isExponentMark (c : Char) : Bool :=
  c == 'e' || c == 'E'

/-- The value of a power of ten without a minus: digits, perhaps after a plus, of 32 bits. -/
def power? (exponent : List Char) : Option Nat :=
  let digits := if exponent.head? = some '+' then exponent.drop 1 else exponent
  if digits.isEmpty then none
  else do
    let power ← digits.foldlM (fun n c => (digit? c).map (10 * n + ·)) 0
    if power < 0x100000000 then some power else none

def parseScientific (numeral : List Char) : Except DecimalError Decimal :=
  match numeral.dropWhile fun c => !isExponentMark c with
  | [] => .error .malformed
  | _ :: exponent => do
    let d ← parse (numeral.takeWhile fun c => !isExponentMark c)
    let downwards := exponent.head? == some '-'
    match power? (if downwards then exponent.drop 1 else exponent) with
    | some power => if downwards then d.shiftDown power else d.shiftUp power
    | none => .error .malformed

def ofString (numeral : String) : Except DecimalError Decimal :=
  if numeral.toList.any isExponentMark then parseScientific numeral.toList
  else parse numeral.toList

end Rulebook.Decimal
