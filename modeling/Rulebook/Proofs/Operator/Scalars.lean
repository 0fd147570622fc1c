import Rulebook.Proofs.Data.Limit
import Rulebook.Proofs.Operator.Texts

/-! # Equality of scalars

Equality reads every scalar as one of five things (`Datum.ReadsAs`) and compares what it reads, with
one exception: the double `2 ^ 96` has no decimal form, so a number is compared with it as a double
(`Scalar.Meets`). Equality is transitive on scalars unless two different numbers meet there
(`scalar_equality`).
-/

set_option autoImplicit false

namespace Rulebook

/-! ## What is read -/

/-- What equality sees in a scalar. -/
inductive Scalar where
  | null
  | bool (value : Bool)
  | text (value : String)
  | number (value : ℚ)
  /-- A raw number without a decimal form. -/
  | unread (value : Double)

/-- Text, truth value, number or raw JSON scalar. -/
def Datum.isScalar : Datum → Bool
  | .text _ | .bool _ | .number _ => true
  | .json j => j.isScalar
  | .list _ | .map _ | .record .. => false

/-- What is read in a datum. -/
inductive Datum.ReadsAs : Datum → Scalar → Prop where
  | null : ReadsAs (.json .null) .null
  | bool (b : Bool) : ReadsAs (.bool b) (.bool b)
  | rawBool (b : Bool) : ReadsAs (.json (.bool b)) (.bool b)
  | text {d : Datum} {s : String} : d.Textual s → ReadsAs d (.text s)
  | number {d : Datum} {x : Decimal} : d.Numeric x → ReadsAs d (.number x.value)
  | unread {x : Double} : ¬ (JsonNumber.float x).HasDecimal →
    ReadsAs (.json (.num (.float x))) (.unread x)

namespace Scalar

/-- A number at the limit becomes the limit as a double. -/
def Meets (s t : Scalar) : Prop :=
  ∃ v negative, s = .number v ∧ t = .unread (.limit negative) ∧ AtLimit v negative

/-- Equality of what is read. -/
def Agrees (s t : Scalar) : Prop :=
  s = t ∨ s.Meets t ∨ t.Meets s

variable {s t u : Scalar}

theorem Agrees.symm (h : s.Agrees t) : t.Agrees s := by
  rcases h with rfl | h | h
  · exact .inl rfl
  · exact .inr (.inr h)
  · exact .inr (.inl h)

/-- What agrees with the same agrees, or meets it from both sides. -/
theorem Agrees.trans (h : s.Agrees t) (h' : t.Agrees u) :
    s.Agrees u ∨ s.Meets t ∧ u.Meets t := by
  rcases h with rfl | h | h
  · exact .inl h'
  · rcases h' with rfl | h' | h'
    · exact .inl (.inr (.inl h))
    · obtain ⟨v, negative, -, rfl, -⟩ := h
      obtain ⟨w, negative', hw, -⟩ := h'
      cases hw
    · exact .inr ⟨h, h'⟩
  · rcases h' with rfl | h' | h'
    · exact .inl (.inr (.inr h))
    · -- One number is at one limit only.
      obtain ⟨v, negative, rfl, rfl, hv⟩ := h
      obtain ⟨w, negative', hw, rfl, hv'⟩ := h'
      cases hw
      exact .inl (.inl (by rw [hv.unique hv']))
    · obtain ⟨v, negative, rfl, -⟩ := h
      obtain ⟨w, negative', -, hw, -⟩ := h'
      cases hw

end Scalar

/-- The JSON values of what is read. -/
inductive Scalar.Renders : Scalar → Json → Prop where
  | null : Renders .null .null
  | bool (b : Bool) : Renders (.bool b) (.bool b)
  | text (s : String) : Renders (.text s) (.str s)
  | number (v : ℚ) (n : JsonNumber) : Renders (.number v) (.num n)
  | unread (x : Double) : Renders (.unread x) (.num (.float x))

namespace Datum

variable {a b : Datum} {s t : Scalar}

theorem exists_readsAs (h : a.isScalar = true) : ∃ s, a.ReadsAs s := by
  cases a with
  | text s => exact ⟨_, .text (.text s)⟩
  | bool b => exact ⟨_, .bool b⟩
  | number x => exact ⟨_, .number (.number x)⟩
  | json j =>
    cases j with
    | null => exact ⟨_, .null⟩
    | bool b => exact ⟨_, .rawBool b⟩
    | str s => exact ⟨_, .text (.raw s)⟩
    | num n =>
      by_cases hn : n.HasDecimal
      · obtain ⟨x, hx⟩ := hn
        exact ⟨_, .number (.raw hx)⟩
      · cases n with
        | integer value inRange => exact absurd ⟨_, rfl⟩ hn
        | float x => exact ⟨_, .unread hn⟩
    | arr items => cases h
    | obj fields => cases h
  | list items => cases h
  | map entries => cases h
  | record typeName fields => cases h

theorem ReadsAs.isScalar (h : a.ReadsAs s) : a.isScalar = true := by
  cases h with
  | text hs => cases hs <;> rfl
  | number hx => cases hx <;> rfl
  | _ => rfl

theorem ReadsAs.asNumber?_eq_none (h : a.ReadsAs s) (hs : ∀ v, s ≠ .number v) :
    a.asNumber? = none := by
  cases h with
  | text ht => exact ht.asNumber?_eq_none
  | number hx => exact absurd rfl (hs _)
  | @unread x hx =>
    cases hd : (JsonNumber.float x).toDecimal with
    | ok d => exact absurd ⟨d, hd⟩ hx
    | error e =>
      rw [asNumber?, hd]
      rfl
  | _ => rfl

theorem ReadsAs.renders (h : a.ReadsAs s) : s.Renders a.toJson := by
  cases h with
  | null => exact .null
  | bool b => exact .bool b
  | rawBool b => exact .bool b
  | text hs => cases hs <;> exact .text _
  | @number _ x hx =>
    cases hx with
    | number =>
      obtain ⟨n, hn⟩ := x.toJson_eq_num
      rw [toJson, hn]
      exact .number _ n
    | raw hn => exact .number _ _
  | unread hx => exact .unread _

/-- Native scalars that are not two numbers are equal if their JSON values are. -/
theorem equal_eq_toJson (ha : a.isScalar = true) (hb : b.isScalar = true)
    (hraw : (a.isRaw || b.isRaw) = false) (h : a.asNumber? = none ∨ b.asNumber? = none) :
    a.equal b = a.toJson.equal b.toJson := by
  rw [Bool.or_eq_false_iff] at hraw
  cases a with
  | text s =>
    cases b with
    | number y =>
      obtain ⟨n, hn⟩ := y.toJson_eq_num
      rw [toJson, toJson, hn]
      rfl
    | json j => cases hraw.2
    | _ => rfl
  | bool c =>
    cases b with
    | number y =>
      obtain ⟨n, hn⟩ := y.toJson_eq_num
      rw [toJson, toJson, hn]
      rfl
    | json j => cases hraw.2
    | _ => rfl
  | number x =>
    obtain ⟨n, hn⟩ := x.toJson_eq_num
    cases b with
    | number y => rcases h with h | h <;> cases h
    | json j => cases hraw.2
    | _ =>
      show false = x.toJson.equal _
      rw [hn]
      rfl
  | json j => cases hraw.1
  | list items => cases ha
  | map entries => cases ha
  | record typeName fields => cases ha

/-- Scalars are compared as numbers or else by their JSON values. -/
theorem matches_eq_toJson (ha : a.isScalar = true) (hb : b.isScalar = true)
    (h : a.asNumber? = none ∨ b.asNumber? = none) : a.matches b = a.toJson.equal b.toJson := by
  have hrest : (if a.isRaw || b.isRaw then a.toJson.equal b.toJson else a.equal b) =
      a.toJson.equal b.toJson := by
    split
    · rfl
    · next hraw => exact equal_eq_toJson ha hb (Bool.eq_false_iff.mpr hraw) h
  have hviews : a.matches b =
      (a.asText?.bind fun l => b.asText?.map fun r => l == r).getD (a.toJson.equal b.toJson) := by
    rw [matches_eq, hrest]
    generalize a.asNumber? = m at h ⊢
    generalize b.asNumber? = n at h ⊢
    rcases h with rfl | rfl
    · cases n <;> cases a.asText? <;> cases b.asText? <;> rfl
    · cases m <;> cases a.asText? <;> cases b.asText? <;> rfl
  rw [hviews]
  cases hs : a.asText? with
  | none => rfl
  | some s =>
    cases ht : b.asText? with
    | none => rfl
    | some t => cases textual_iff.mpr hs <;> cases textual_iff.mpr ht <;> rfl

/-- JSON values that are no numbers are equal if the same is read. -/
theorem equal_iff_of_renders {j k : Json} (hj : s.Renders j) (hk : t.Renders k)
    (hs : ∀ n, j ≠ .num n) : j.equal k = true ↔ s.Agrees t := by
  cases hj with
  | number v n => exact absurd rfl (hs n)
  | unread x => exact absurd rfl (hs _)
  | null => cases hk <;> simp [Json.equal, Scalar.Agrees, Scalar.Meets]
  | bool b => cases hk <;> simp [Json.equal, Scalar.Agrees, Scalar.Meets]
  | text s => cases hk <;> simp [Json.equal, Scalar.Agrees, Scalar.Meets]

/-- The JSON value of a number and a number without a decimal form. -/
theorem toJson_equal_unread_iff {x : Decimal} {y : Double} (ha : a.Numeric x)
    (hy : ¬ (JsonNumber.float y).HasDecimal) :
    a.toJson.equal (.num (.float y)) = true ↔ Scalar.Meets (.number x.value) (.unread y) := by
  have hmeets : Scalar.Meets (.number x.value) (.unread y) ↔
      ∃ negative, y = .limit negative ∧ AtLimit x.value negative := by
    simp [Scalar.Meets]
  rw [hmeets]
  cases ha with
  | number =>
    obtain ⟨n, hn⟩ := x.toJson_eq_num
    rw [← Decimal.toJson_eq_float_iff hy, toJson, hn, Json.num.injEq]
    exact JsonNumber.equal_float_iff hy n
  | @raw n _ hn =>
    refine iff_of_false (fun h => ?_) ?_
    · cases (JsonNumber.equal_float_iff hy n).mp h
      exact hy ⟨x, hn⟩
    · rintro ⟨negative, -, hlimit⟩
      exact JsonNumber.not_atLimit_of_toDecimal hn hlimit

theorem matches_iff_of_toJson_ne_num (ha : a.ReadsAs s) (hb : b.ReadsAs t)
    (hs : ∀ n, a.toJson ≠ .num n) : a.matches b = true ↔ s.Agrees t := by
  have hnone : a.asNumber? = none := by
    refine ha.asNumber?_eq_none ?_
    rintro v rfl
    generalize hj : a.toJson = j at hs
    cases hj ▸ ha.renders with
    | number v n => exact hs n rfl
  rw [matches_eq_toJson ha.isScalar hb.isScalar (.inl hnone)]
  exact equal_iff_of_renders ha.renders hb.renders hs

/-- What has a number for its JSON value is a number for operators, or is not read. -/
theorem ReadsAs.of_toJson_eq_num {n : JsonNumber} (h : a.ReadsAs s) (hn : a.toJson = .num n) :
    (∃ x, a.Numeric x ∧ s = .number x.value) ∨
      ∃ y, ¬ (JsonNumber.float y).HasDecimal ∧ a = .json (.num (.float y)) ∧ s = .unread y := by
  cases h with
  | @number _ x hx => exact .inl ⟨x, hx, rfl⟩
  | @unread y hy => exact .inr ⟨y, hy, rfl, rfl⟩
  | text hs => cases hs <;> cases hn
  | _ => cases hn

theorem matches_unread_iff {x : Decimal} {y : Double} (ha : a.Numeric x)
    (hy : ¬ (JsonNumber.float y).HasDecimal) :
    a.matches (.json (.num (.float y))) = true ↔ (Scalar.number x.value).Agrees (.unread y) := by
  have hb : ReadsAs (.json (.num (.float y))) (.unread y) := .unread hy
  have hnone := hb.asNumber?_eq_none (by simp)
  rw [matches_eq_toJson (ReadsAs.number ha).isScalar hb.isScalar (.inr hnone)]
  refine (toJson_equal_unread_iff ha hy).trans ?_
  simp [Scalar.Agrees, Scalar.Meets]

/-- Equality compares what is read. -/
theorem matches_iff (ha : a.ReadsAs s) (hb : b.ReadsAs t) :
    a.matches b = true ↔ s.Agrees t := by
  by_cases hs : ∀ n, a.toJson ≠ .num n
  · exact matches_iff_of_toJson_ne_num ha hb hs
  by_cases ht : ∀ n, b.toJson ≠ .num n
  · rw [matches_comm, matches_iff_of_toJson_ne_num hb ha ht]
    exact ⟨.symm, .symm⟩
  simp only [not_forall, not_not] at hs ht
  obtain ⟨m, hm⟩ := hs
  obtain ⟨n, hn⟩ := ht
  rcases ha.of_toJson_eq_num hm with ⟨x, hx, rfl⟩ | ⟨x, hx, rfl, rfl⟩
  · rcases hb.of_toJson_eq_num hn with ⟨y, hy, rfl⟩ | ⟨y, hy, rfl, rfl⟩
    · have heq : a.matches b = x.equal y := by
        rw [matches_eq, numeric_iff.mp hx, numeric_iff.mp hy]
      rw [heq, Decimal.equal_iff]
      simp [Scalar.Agrees, Scalar.Meets]
    · exact matches_unread_iff hx hy
  · rcases hb.of_toJson_eq_num hn with ⟨y, hy, rfl⟩ | ⟨y, hy, rfl, rfl⟩
    · rw [matches_comm, matches_unread_iff hy hx]
      exact ⟨.symm, .symm⟩
    · have heq : (json (.num (.float x))).matches (json (.num (.float y))) =
          (JsonNumber.float x).equal (.float y) :=
        matches_eq_toJson ha.isScalar hb.isScalar (.inl (ha.asNumber?_eq_none (by simp)))
      rw [heq, JsonNumber.equal_float_iff hy]
      simp [Scalar.Agrees, Scalar.Meets]

end Datum

/-! ## Numbers that meet -/

/-- Two numbers of different values that become the same limit, and the limit between them. -/
def Datum.Straddle (a b c : Datum) : Prop :=
  ∃ x y negative, a = .number x ∧ b = .json (.num (.float (.limit negative))) ∧ c = .number y ∧
    AtLimit x.value negative ∧ AtLimit y.value negative ∧ x.value ≠ y.value

namespace Datum

variable {a b c : Datum} {v : ℚ} {negative : Bool}

theorem readsAs_limit (negative : Bool) :
    ReadsAs (.json (.num (.float (.limit negative)))) (.unread (.limit negative)) := by
  refine .unread ?_
  rw [JsonNumber.hasDecimal_float_iff]
  rintro ⟨d, hd⟩
  exact Double.not_ofString_limit negative d hd

theorem ReadsAs.eq_json {x : Double} (h : a.ReadsAs (.unread x)) : a = .json (.num (.float x)) := by
  cases h
  rfl

/-- No raw number stands at the limit. -/
theorem ReadsAs.exists_number (h : a.ReadsAs (.number v)) (hv : AtLimit v negative) :
    ∃ x : Decimal, a = .number x ∧ x.value = v := by
  cases h with
  | @number _ x hx =>
    cases hx with
    | number => exact ⟨x, rfl, rfl⟩
    | raw hn => exact absurd hv (JsonNumber.not_atLimit_of_toDecimal hn)

theorem straddle_of_meets {s t u : Scalar} (ha : a.ReadsAs s) (hb : b.ReadsAs t) (hc : c.ReadsAs u)
    (hs : s.Meets t) (hu : u.Meets t) (hne : s ≠ u) : a.Straddle b c := by
  obtain ⟨v, negative, rfl, rfl, hv⟩ := hs
  obtain ⟨w, negative', rfl, ht, hw⟩ := hu
  cases ht
  obtain ⟨x, rfl, rfl⟩ := ha.exists_number hv
  obtain ⟨y, rfl, rfl⟩ := hc.exists_number hw
  exact ⟨x, y, negative, rfl, hb.eq_json, rfl, hv, hw, fun h => hne (by rw [h])⟩

end Datum

namespace Operator

variable {a b c : Datum}

theorem eq_iff {s t : Scalar} (ha : a.ReadsAs s) (hb : b.ReadsAs t) :
    eq.apply a b = .ok true ↔ s.Agrees t := by
  rw [apply, Except.ok.injEq, Datum.matches_iff ha hb]

theorem eq_trans (ha : a.isScalar = true) (hb : b.isScalar = true) (hc : c.isScalar = true)
    (h : eq.apply a b = .ok true) (h' : eq.apply b c = .ok true) (hne : ¬ a.Straddle b c) :
    eq.apply a c = .ok true := by
  obtain ⟨s, hs⟩ := Datum.exists_readsAs ha
  obtain ⟨t, ht⟩ := Datum.exists_readsAs hb
  obtain ⟨u, hu⟩ := Datum.exists_readsAs hc
  rw [eq_iff hs ht] at h
  rw [eq_iff ht hu] at h'
  rw [eq_iff hs hu]
  rcases h.trans h' with hagrees | ⟨hmeets, hmeets'⟩
  · exact hagrees
  · by_contra hdiffer
    exact hne (Datum.straddle_of_meets hs ht hu hmeets hmeets' fun heq => hdiffer (.inl heq))

theorem eq_of_straddle (h : a.Straddle b c) : eq.apply a b = .ok true ∧
    eq.apply b c = .ok true ∧ eq.apply a c = .ok false := by
  obtain ⟨x, y, negative, rfl, rfl, rfl, hx, hy, hne⟩ := h
  have hreads (x : Decimal) : Datum.ReadsAs (.number x) (.number x.value) := .number (.number x)
  have hlimit := Datum.readsAs_limit negative
  refine ⟨?_, ?_, ?_⟩
  · exact (eq_iff (hreads x) hlimit).mpr (.inr (.inl ⟨_, negative, rfl, rfl, hx⟩))
  · exact (eq_iff hlimit (hreads y)).mpr (.inr (.inr ⟨_, negative, rfl, rfl, hy⟩))
  · have hdiffer : x.equal y = false := by
      rw [Bool.eq_false_iff, ne_eq, Decimal.equal_iff]
      exact hne
    exact congrArg Except.ok hdiffer

end Operator

/-! ## Main statement -/

/-- The laws of equality on three scalars. -/
structure Operator.EqualityLaws (a b c : Datum) : Prop where
  refl : eq.apply a a = .ok true
  symm : eq.apply b a = eq.apply a b
  /-- Equality is to read the same, or to meet at the limit. -/
  eq_iff : ∀ {s t}, a.ReadsAs s → b.ReadsAs t → (eq.apply a b = .ok true ↔ s.Agrees t)
  trans : eq.apply a b = .ok true → eq.apply b c = .ok true → ¬ a.Straddle b c →
    eq.apply a c = .ok true
  /-- Where numbers meet at the limit, transitivity fails. -/
  straddle : a.Straddle b c →
    eq.apply a b = .ok true ∧ eq.apply b c = .ok true ∧ eq.apply a c = .ok false
  /-- One raw number equals numbers of one value, unless it is the limit. -/
  number : ∀ {x y n}, a = .number x → b = .json (.num n) → c = .number y →
    eq.apply a b = .ok true → eq.apply b c = .ok true →
    x.value = y.value ∨ ∃ negative, n = .float (.limit negative) ∧
      AtLimit x.value negative ∧ AtLimit y.value negative

/-- Equality is reflexive and symmetric on scalars, and transitive except at the limit. -/
theorem scalar_equality {a b c : Datum} (ha : a.isScalar = true) (hb : b.isScalar = true)
    (hc : c.isScalar = true) : Operator.EqualityLaws a b c where
  refl := congrArg Except.ok a.matches_self
  symm := congrArg Except.ok (b.matches_comm a)
  eq_iff := Operator.eq_iff
  trans := Operator.eq_trans ha hb hc
  straddle := Operator.eq_of_straddle
  number := by
    rintro x y n rfl rfl rfl h h'
    by_cases hmeet : (Datum.number x).Straddle (.json (.num n)) (.number y)
    · right
      obtain ⟨x', y', negative, hx, hn, hy, hx', hy', -⟩ := hmeet
      cases hx
      cases hn
      cases hy
      exact ⟨negative, rfl, hx', hy'⟩
    · left
      exact Decimal.equal_iff.mp (Except.ok.inj (Operator.eq_trans ha hb hc h h' hmeet))

/-- A decimal, a raw integer of the same value and a raw double of the same value. -/
theorem scalar_equality_mixed :
    let a : Datum := .number ⟨false, 180, 1, by decide, by decide⟩
    let b : Datum := .json (.num (.integer 18 (by decide)))
    let c : Datum := .json (.num (.float ⟨false, 0x12000000000000, -48, by decide⟩))
    a.isScalar = true ∧ b.isScalar = true ∧ c.isScalar = true ∧
    Operator.eq.apply a b = .ok true ∧ Operator.eq.apply b c = .ok true ∧
    ¬ a.Straddle b c ∧ Operator.eq.apply a c = .ok true := by
  intro a b c
  have hab : Operator.eq.apply a b = .ok true := rfl
  have hbc : Operator.eq.apply b c = .ok true := congrArg Except.ok (by decide +kernel)
  have hne : ¬ a.Straddle b c := by
    rintro ⟨x, y, negative, -, hb, -⟩
    exact JsonNumber.noConfusion (Json.num.inj (Datum.json.inj hb))
  exact ⟨rfl, rfl, rfl, hab, hbc, hne, (scalar_equality rfl rfl rfl).trans hab hbc hne⟩

/-- The greatest decimal equals the raw double `2 ^ 96`, which equals the decimal before it. -/
theorem equality_is_not_transitive_at_limit :
    let a : Datum := .number ⟨false, 79228162514264337593543950335, 0, by decide, by decide⟩
    let b : Datum := .json (.num (.float (.limit false)))
    let c : Datum := .number ⟨false, 79228162514264337593543950334, 0, by decide, by decide⟩
    a.isScalar = true ∧ b.isScalar = true ∧ c.isScalar = true ∧
    Operator.eq.apply a b = .ok true ∧ Operator.eq.apply b c = .ok true ∧
    Operator.eq.apply a c = .ok false :=
  ⟨rfl, rfl, rfl, congrArg Except.ok (by decide +kernel), congrArg Except.ok (by decide +kernel),
    congrArg Except.ok (by decide +kernel)⟩

end Rulebook
