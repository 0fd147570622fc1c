import Rulebook.Config.Setting
import Rulebook.Json.Reader

/-! # Unquoted values

Truth values, numbers, dates and times as they are written in configuration documents. Each reader
takes as much as belongs to the value and returns what is left.

* Integers have 64 bits and may be written in bases 16, 8 and 2.
* Other numbers have a point or an exponent, or are `inf` or `nan`; one beyond the doubles is
  refused if it is positive.
* Dates exist in the calendar; a time may follow one after `T` or a blank, or stand alone.
-/

set_option autoImplicit false

namespace Rulebook.Literal

/-! ## Digits -/

/-- The digits after a first one; a single underscore may stand before each. -/
def moreDigits (isDigit : Char → Bool) : List Char → List Char × List Char
  | '_' :: c :: r =>
    if isDigit c then
      let (digits, rest) := moreDigits isDigit r
      (c :: digits, rest)
    else ([], '_' :: c :: r)
  | c :: r =>
    if isDigit c then
      let (digits, rest) := moreDigits isDigit r
      (c :: digits, rest)
    else ([], c :: r)
  | [] => ([], [])

def digits? (isDigit : Char → Bool) : List Char → Option (List Char × List Char)
  | c :: r =>
    if isDigit c then
      let (digits, rest) := moreDigits isDigit r
      some (c :: digits, rest)
    else none
  | [] => none

/-- Reads exactly `count` decimal digits, whose value lies between `least` and `greatest`. -/
def field? (count least greatest : Nat) (s : List Char) : Option (Nat × List Char) :=
  let digits := s.take count
  let value := Json.digitsValue digits
  if digits.length = count ∧ digits.all Char.isDigit ∧ least ≤ value ∧ value ≤ greatest then
    some (value, s.drop count)
  else none

/-! ## Dates and times -/

def daysInMonth (year month : Nat) : Nat :=
  if month = 2 then
    if year % 4 = 0 ∧ (year % 100 ≠ 0 ∨ year % 400 = 0) then 29 else 28
  else if month = 4 ∨ month = 6 ∨ month = 9 ∨ month = 11 then 30
  else 31

def afterDate? (s : List Char) : Option (List Char) := do
  let (year, r) ← field? 4 0 9999 s
  let (month, r) ← field? 2 1 12 (← Json.after? ['-'] r)
  let (_, r) ← field? 2 1 (daysInMonth year month) (← Json.after? ['-'] r)
  return r

def afterMinutes? (s : List Char) : Option (List Char) := do
  let (_, r) ← field? 2 0 23 s
  let (_, r) ← field? 2 0 59 (← Json.after? [':'] r)
  return r

/-- The text after a time of day, which has seconds and maybe a fraction of one. -/
def afterTime? (s : List Char) : Option (List Char) := do
  let (_, r) ← field? 2 0 60 (← Json.after? [':'] (← afterMinutes? s))
  match r with
  | '.' :: c :: r' => return if c.isDigit then r'.dropWhile Char.isDigit else r
  | _ => return r

/-- The text after the distance from universal time, if it is given. -/
def afterOffset (s : List Char) : List Char :=
  match s with
  | 'Z' :: r | 'z' :: r => r
  | '+' :: r | '-' :: r => (afterMinutes? r).getD s
  | _ => s

def afterMoment? (s : List Char) : Option (List Char) :=
  match afterDate? s with
  | none => afterTime? s
  | some r =>
    match r with
    | 'T' :: r' | 't' :: r' | ' ' :: r' => some (((afterTime? r').map afterOffset).getD r)
    | _ => some r

/-! ## Numbers -/

def integerIn? (base : Nat) (s : List Char) : Option (Setting × List Char) := do
  let (digits, rest) ← digits? (fun c => (Json.hexDigit? c).any (· < base)) s
  let value := digits.foldl (fun n c => base * n + (Json.hexDigit? c).getD 0) 0
  if IsInt64 value then some (.integer value, rest) else none

/-- Reads the digits before a point: a single zero, or digits that start with another one. -/
def whole? (s : List Char) : Option (List Char × List Char) :=
  match s with
  | '0' :: r => some (['0'], r)
  | _ => digits? Char.isDigit s

def exponent? (s : List Char) : Option (Int × List Char) :=
  match s with
  | '-' :: r => (digits? Char.isDigit r).map fun e => (-(Json.digitsValue e.1 : Int), e.2)
  | '+' :: r | r => (digits? Char.isDigit r).map fun e => (Json.digitsValue e.1, e.2)

/-- A number with a fraction or an exponent, unless it is greater than every double. -/
def fraction? (negative : Bool) (digits : List Char) (power : Int) : Option Setting :=
  if negative ∨ (Double.ofScientific? false (Json.digitsValue digits) power).isSome then
    some .fraction
  else none

def unsigned? (negative : Bool) (s : List Char) : Option (Setting × List Char) := do
  let (whole, r) ← whole? s
  match r with
  | '.' :: r' => do
    let (fraction, r'') ← digits? Char.isDigit r'
    let (power, rest) ←
      match r'' with
      | 'e' :: e | 'E' :: e => exponent? e
      | _ => some (0, r'')
    return (← fraction? negative (whole ++ fraction) (power - fraction.length), rest)
  | 'e' :: r' | 'E' :: r' => do
    let (power, rest) ← exponent? r'
    return (← fraction? negative whole power, rest)
  | _ =>
    let magnitude := Json.digitsValue whole
    let value : Int := if negative then -(magnitude : Int) else magnitude
    if IsInt64 value then some (.integer value, r) else none

def signed? (negative : Bool) (s : List Char) : Option (Setting × List Char) :=
  match s with
  | 'i' :: r => (Json.after? ['n', 'f'] r).map (.fraction, ·)
  | 'n' :: r => (Json.after? ['a', 'n'] r).map (.fraction, ·)
  | _ => unsigned? negative s

def number? (s : List Char) : Option (Setting × List Char) :=
  match s with
  | '0' :: 'x' :: r => integerIn? 16 r
  | '0' :: 'o' :: r => integerIn? 8 r
  | '0' :: 'b' :: r => integerIn? 2 r
  | '-' :: r => signed? true r
  | '+' :: r => signed? false r
  | _ => signed? false s

def read? (s : List Char) : Option (Setting × List Char) :=
  match s with
  | 't' :: r => (Json.after? ['r', 'u', 'e'] r).map (.bool true, ·)
  | 'f' :: r => (Json.after? ['a', 'l', 's', 'e'] r).map (.bool false, ·)
  | _ =>
    match afterMoment? s with
    | some rest => some (.moment, rest)
    | none => number? s

end Rulebook.Literal
