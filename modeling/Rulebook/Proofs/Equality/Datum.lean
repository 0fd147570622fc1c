import Rulebook.Proofs.Data.Induction
import Rulebook.Proofs.Equality.HashSet
import Rulebook.Proofs.Number.Value

/-! # The words of numbers, JSON values and data

Decimals go by their normal form, doubles by their parts after the two zeros are made one, and
everything else by its shape and its parts. So the words of a JSON value or of a datum are those of
its equals alone (`Json.spelled`, `Datum.spelled`).
-/

set_option autoImplicit false

namespace Rulebook

theorem Decimal.spelled (d : Decimal) : Spelled Decimal.equal Decimal.hashInput d := by
  intro e l m
  rw [← Decimal.normalForm_eq_iff, Prod.ext_iff]
  simp [Decimal.hashInput, and_assoc]

theorem Double.eq_iff {x y : Double} :
    x = y ↔ x.negative = y.negative ∧ x.mantissa = y.mantissa ∧ x.exponent = y.exponent := by
  cases x
  cases y
  simp

theorem Double.spelled (x : Double) : Spelled Double.equal Double.hashInput x := by
  intro y l m
  cases hx : x.isZero with
  | true =>
    cases hy : y.isZero with
    | true => simp [Double.hashInput, Double.equal, hx, hy]
    | false =>
      have hne : x ≠ y := fun h => by rw [h, hy] at hx; cases hx
      have hm : (0 : Int) ≠ y.mantissa := by
        have hpos : y.mantissa ≠ 0 := beq_eq_false_iff_ne.mp hy
        omega
      simp [Double.hashInput, Double.equal, hx, hy, hne, hm]
  | false =>
    cases hy : y.isZero with
    | true =>
      have hne : x ≠ y := fun h => by rw [h, hy] at hx; cases hx
      have hm : x.mantissa ≠ 0 := beq_eq_false_iff_ne.mp hx
      simp [Double.hashInput, Double.equal, hx, hy, hne, hm]
    | false => simp [Double.hashInput, Double.equal, hx, hy, Double.eq_iff, and_assoc]

theorem JsonNumber.spelled (n : JsonNumber) :
    Spelled JsonNumber.equal JsonNumber.hashInput n := by
  intro o l m
  cases n with
  | integer v _ => cases o <;> simp [JsonNumber.hashInput, JsonNumber.equal]
  | float x =>
    cases o with
    | integer v _ => simp [JsonNumber.hashInput, JsonNumber.equal]
    | float y => simpa [JsonNumber.hashInput, JsonNumber.equal] using x.spelled y l m

theorem Json.spelled (j : Json) : Spelled Json.equal Json.hashInput j := by
  induction j using Json.induction with
  | null => intro k l m; cases k <;> simp [Json.hashInput, Json.equal]
  | bool b => intro k l m; cases k <;> simp [Json.hashInput, Json.equal]
  | str s => intro k l m; cases k <;> simp [Json.hashInput, Json.equal]
  | num n =>
    intro k l m
    cases k with
    | num o => simpa [Json.hashInput, Json.equal] using n.spelled o l m
    | _ => simp [Json.hashInput, Json.equal]
  | arr items ih =>
    intro k l m
    cases k with
    | arr items' =>
      rw [Json.equal, Json.equalItems_iff, ← Spelled.sized ih]
      simp [Json.hashInput, Json.hashItems_eq]
    | _ => simp [Json.hashInput, Json.equal]
  | obj fields ih =>
    intro k l m
    cases k with
    | obj fields' =>
      rw [Json.equal, Json.equalFields_iff, ← Spelled.sized fun e he => (ih e he).entry]
      simp [Json.hashInput, Json.hashFields_eq]
    | _ => simp [Json.hashInput, Json.equal]

theorem Datum.spelled (d : Datum) : Spelled Datum.equal Datum.hashInput d := by
  induction d using Datum.induction with
  | text s => intro e l m; cases e <;> simp [Datum.hashInput, Datum.equal]
  | bool b => intro e l m; cases e <;> simp [Datum.hashInput, Datum.equal]
  | number n =>
    intro e l m
    cases e with
    | number o => simpa [Datum.hashInput, Datum.equal] using n.spelled o l m
    | _ => simp [Datum.hashInput, Datum.equal]
  | list items ih =>
    intro e l m
    cases e with
    | list items' =>
      rw [Datum.equal, Datum.equalItems_iff, ← Spelled.sized ih]
      simp [Datum.hashInput, Datum.hashItems_eq]
    | _ => simp [Datum.hashInput, Datum.equal]
  | map entries ih =>
    intro e l m
    cases e with
    | map entries' =>
      rw [Datum.equal, Datum.equalEntries_iff, ← Spelled.sized fun a ha => (ih a ha).entry]
      simp [Datum.hashInput, Datum.hashEntries_eq]
    | _ => simp [Datum.hashInput, Datum.equal]
  | record typeName fields ih =>
    intro e l m
    cases e with
    | record typeName' fields' =>
      rw [Datum.equal, Bool.and_eq_true, Datum.equalEntries_iff, beq_iff_eq, and_assoc,
        ← Spelled.sized fun a ha => (ih a ha).entry]
      simp [Datum.hashInput, Datum.hashEntries_eq]
    | _ => simp [Datum.hashInput, Datum.equal]
  | json value =>
    intro e l m
    cases e with
    | json value' => simpa [Datum.hashInput, Datum.equal] using value.spelled value' l m
    | _ => simp [Datum.hashInput, Datum.equal]

end Rulebook
