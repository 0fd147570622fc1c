import Rulebook.Proofs.Data.Decoding
import Rulebook.Proofs.Evaluation.Checks

/-! # Responses of configured functions

A response is decoded in two steps: its body is converted in one of three ways, and what comes out
is checked against the result type (`HttpFunction.decode_eq_ok_iff`). The check is the one that an
application makes again after the call, so the second one cannot fail. Six of the eight result types
share a conversion and differ only in what they let through.
-/

set_option autoImplicit false

namespace Rulebook

namespace HttpFunction

variable {f : HttpFunction} {body : Json} {d : Datum} {t : DataType}

/-- The function with another result type. -/
def returning (f : HttpFunction) (t : DataType) : HttpFunction :=
  { f with resultType := t }

/-- What a body is converted to before its type is checked. -/
def convert (f : HttpFunction) (body : Json) : Except EvalError Datum :=
  match f.resultType with
  | .rawObject => .ok (.json body)
  | .structuredObject => Datum.recordOfJson f.recordName body
  | _ => Datum.ofJson body

theorem decode_eq (f : HttpFunction) (body : Json) : f.decode body =
    match f.convert body with
    | .error e => .error (.failed e.message)
    | .ok d =>
      if d.fits f.resultType then .ok d
      else .error (.failed s!"response decoded to {d.dataType}, expected {f.resultType}") :=
  rfl

theorem decode_eq_ok_iff :
    f.decode body = .ok d ↔ f.convert body = .ok d ∧ d.fits f.resultType = true := by
  rw [decode_eq]
  cases f.convert body with
  | error e => simp
  | ok c =>
    by_cases hfits : c.fits f.resultType = true
    · simp only [hfits, if_true, Except.ok.injEq]
      constructor
      · rintro rfl
        exact ⟨rfl, hfits⟩
      · exact And.left
    · simp only [hfits]
      constructor
      · exact nofun
      · rintro ⟨hc, hd⟩
        obtain rfl := Except.ok.inj hc
        exact absurd hd hfits

theorem decode_eq_error {e : FunctionError} (h : f.decode body = .error e) :
    ∃ reason, e = .failed reason := by
  rw [decode_eq] at h
  cases hc : f.convert body with
  | error cause =>
    rw [hc] at h
    exact ⟨_, (Except.error.inj h).symm⟩
  | ok c =>
    simp only [hc] at h
    split at h
    · cases h
    · exact ⟨_, (Except.error.inj h).symm⟩

theorem convert_of_plain (h : t ∉ [DataType.rawObject, .structuredObject]) :
    (f.returning t).convert body = Datum.ofJson body := by
  cases t with
  | rawObject | structuredObject => simp at h
  | _ => rfl

/-- Result types other than raw JSON and records let through what they accept of one conversion. -/
theorem decode_of_plain (h : t ∉ [DataType.rawObject, .structuredObject]) :
    (f.returning t).decode body = .ok d ↔
      (f.returning .genericObject).decode body = .ok d ∧ t.accepts d.dataType = true := by
  have hgeneric : (f.returning .genericObject).convert body = Datum.ofJson body :=
    convert_of_plain (by decide)
  rw [decode_eq_ok_iff, decode_eq_ok_iff, convert_of_plain h, hgeneric, and_assoc]
  refine and_congr_right fun _ => ?_
  exact (and_iff_right d.fits_genericObject).symm

theorem decode_mapping_iff : (f.returning .mapping).decode body = .ok d ↔
    ∃ entries, Datum.ofJson body = .ok (.map entries) ∧ d = .map entries := by
  rw [decode_eq_ok_iff, convert_of_plain (by decide)]
  constructor
  · rintro ⟨hd, hfits⟩
    cases d with
    | map entries => exact ⟨entries, hd, rfl⟩
    | _ => cases hfits
  · rintro ⟨entries, hd, rfl⟩
    exact ⟨hd, rfl⟩

theorem decode_structuredObject_iff : (f.returning .structuredObject).decode body = .ok d ↔
    ∃ entries, Datum.ofJson body = .ok (.map entries) ∧ d = .record f.recordName entries := by
  have hconvert : (f.returning .structuredObject).convert body =
      Datum.recordOfJson f.recordName body := rfl
  rw [decode_eq_ok_iff, hconvert, Datum.recordOfJson]
  constructor
  · rintro ⟨hd, -⟩
    obtain ⟨entries, hentries, rfl⟩ := map_eq_ok_iff.mp hd
    cases body with
    | obj fields => exact ⟨entries, map_eq_ok_iff.mpr ⟨entries, hentries, rfl⟩, rfl⟩
    | _ => cases hentries
  · rintro ⟨entries, hd, rfl⟩
    refine ⟨map_eq_ok_iff.mpr ⟨entries, ?_, rfl⟩, rfl⟩
    cases body with
    | obj fields =>
      obtain ⟨entries', hentries, hmap⟩ := map_eq_ok_iff.mp hd
      rwa [Datum.map.inj hmap]
    | num n =>
      obtain ⟨x, -, hx⟩ := Datum.ofJson_num_iff.mp hd
      cases hx
    | arr items =>
      obtain ⟨ds, -, hds⟩ := Datum.ofJson_arr_iff.mp hd
      cases hds
    | _ => cases hd

end HttpFunction

/-! ## Calls -/

section Calls

variable {World : Type} {host : Host World} {f : HttpFunction} {argument d : Datum} {w : World}

/-- What a configured function returns was decoded from a response. -/
theorem Host.execute_http_ok (h : (host.execute (.http f) argument w).1 = .ok d) :
    ∃ body, f.decode body = .ok d := by
  unfold execute at h
  dsimp only at h
  split at h
  · cases h
  · split at h
    · cases h
    · next body _ _ => exact ⟨body, h⟩

/-- The result of a configured function passes the check against the declared type. -/
theorem Application.run_ne_resultMismatch {P : Type} {call : Application P}
    (hf : call.function = .http f) (argument : Datum) (w : World) (name : String)
    (got : DataType) :
    (call.run host argument w).result ≠ .error (.resultMismatch name f.resultType got) := by
  intro h
  obtain ⟨-, herr⟩ | ⟨source, -, herr⟩ | ⟨result, t, hresult, -, hfits, herr⟩ := run_eq_error h
  · cases herr
  · cases herr
  · obtain ⟨-, rfl, -⟩ := EvalError.resultMismatch.inj herr
    rw [hf] at hresult
    obtain ⟨body, hbody⟩ := Host.execute_http_ok hresult
    rw [(HttpFunction.decode_eq_ok_iff.mp hbody).2] at hfits
    cases hfits

end Calls

/-! ## Main statement -/

/-- The laws of decoding one body under all result types. -/
structure HttpFunction.DecodingLaws (f : HttpFunction) (body : Json) : Prop where
  fits : ∀ {t d}, (f.returning t).decode body = .ok d → d.fits t = true
  plain : ∀ {t}, t ∉ [DataType.rawObject, .structuredObject] → ∀ d,
    (f.returning t).decode body = .ok d ↔
      (f.returning .genericObject).decode body = .ok d ∧ t.accepts d.dataType = true
  structured_isOk : (∃ d, (f.returning .structuredObject).decode body = .ok d) ↔
    ∃ d, (f.returning .mapping).decode body = .ok d
  /-- A record has the entries of the map, and the name of the function if none is configured. -/
  structured : ∀ d, (f.returning .structuredObject).decode body = .ok d ↔
    ∃ entries, (f.returning .mapping).decode body = .ok (.map entries) ∧
      d = .record (f.recordType.getD f.name) entries
  raw : (f.returning .rawObject).decode body = .ok (.json body)
  failed : ∀ {t e}, (f.returning t).decode body = .error e → ∃ reason, e = .failed reason

/-- Whatever a body is, its decoded form fits the result type, and the result types agree on what
they have in common. So a call whose parameter is resolved never fails for a result outside the
declared type. -/
theorem responses_decode_alike {World : Type} (host : Host World) (ctx : Context) (w : World)
    (f : HttpFunction) :
    (∀ body, f.DecodingLaws body) ∧
    ∀ call : Call, call.function = .http f → ∀ argument,
      (call.parameter.materialize host ctx w).result = .ok argument → ∀ name got,
        ((Expr.application call).evaluate host ctx w).result ≠
          .error (.resultMismatch name f.resultType got) := by
  refine ⟨fun body => ?_, fun call hf argument hargument name got => ?_⟩
  · constructor
    case fits => exact fun h => (HttpFunction.decode_eq_ok_iff.mp h).2
    case plain => exact fun ht d => HttpFunction.decode_of_plain ht
    case structured_isOk =>
      simp only [HttpFunction.decode_structuredObject_iff, HttpFunction.decode_mapping_iff]
      constructor
      · rintro ⟨-, entries, hd, -⟩
        exact ⟨_, entries, hd, rfl⟩
      · rintro ⟨-, entries, hd, -⟩
        exact ⟨_, entries, hd, rfl⟩
    case structured =>
      intro d
      simp only [HttpFunction.decode_structuredObject_iff, HttpFunction.decode_mapping_iff,
        Datum.map.injEq, exists_eq_right']
      rfl
    case raw => rfl
    case failed => exact HttpFunction.decode_eq_error
  · rw [Expr.evaluate, Eval.bind_ok hargument]
    exact Application.run_ne_resultMismatch hf _ _ _ _

/-- A record takes the name of the function. A call narrowed to numbers fails against that type, but
not against the declared one. -/
theorem responses_decode_alike_person :
    let person : HttpFunction :=
      ⟨"person", "http://localhost/person", .genericObject, none, some 250, none⟩
    let body : Json := .obj [("age", .num (.integer 18 (by decide))), ("house", .null)]
    let entries : List (String × Datum) :=
      [("age", .number (.ofInt 18 (by decide))), ("house", .json .null)]
    let host := { Host.echo fun _ => ⟨.text, .text⟩ with
      fetch := fun _ _ world => (.ok body, world) }
    let call : Call := ⟨.http person, .empty, some .number⟩
    let run := (Expr.application call).evaluate host ⟨[]⟩ ()
    (person.returning .structuredObject).decode body = .ok (.record "person" entries) ∧
      (Datum.record "person" entries).fits .structuredObject = true ∧
      run.result = .error (.resultMismatch "person" .number .mapping) ∧
      run.result ≠ .error (.resultMismatch "person" person.resultType .mapping) := by
  intro person body entries host call run
  obtain ⟨hlaws, hcalls⟩ := responses_decode_alike host ⟨[]⟩ () person
  have hrecord : (person.returning .structuredObject).decode body =
      .ok (.record "person" entries) :=
    ((hlaws body).structured _).mpr ⟨entries, rfl, rfl⟩
  exact ⟨hrecord, (hlaws body).fits hrecord, rfl,
    hcalls call rfl (.map []) rfl "person" .mapping⟩

end Rulebook
