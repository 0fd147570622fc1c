import Rulebook.Proofs.Engine.Consistency
import Rulebook.Proofs.Registry.Relinking

/-! # Registries that come from each other

A program has any number of registries, some of them in engines. They are created, cloned and added
to in any order; a clone has the functions of its source, but bindings of its own. `Fleet.serve` is
one such request, to registries that are changed in place, and `Fleet.after` a history of them.

A request binds free names of its target and nothing else. So a binding that a registry once has is
found ever after in that registry and in all that descend from it, and nothing that was built before
notices what is registered later.
-/

set_option autoImplicit false

namespace Rulebook

/-! ## Fleets -/

/-- The engines of a program, by number. A registry that stands alone is that of an engine without
rules. -/
abbrev Fleet := List Engine

/-- What a program may do with its registries. -/
inductive RegistryRequest where
  /-- A new registry, with or without the built-in functions. -/
  | create (builtins : Bool)
  /-- A new registry with the functions of another one. -/
  | clone (source : Nat)
  | register (target : Nat) (f : FunctionRef)
  | registerBuiltins (target : Nat)
  | lookup (target : Nat) (name : String)

/-- The registry that a request may change. -/
def RegistryRequest.target? : RegistryRequest → Option Nat
  | register target _ | registerBuiltins target => some target
  | create _ | clone _ | lookup .. => none

/-- The engine with its registry changed in place. -/
def Engine.withRegistry (engine : Engine) (change : Registry → Except EvalError Unit × Registry) :
    Engine :=
  { engine with registry := (change engine.registry).2 }

namespace Fleet

/-- The fleet after one request. New registries get the next number. -/
def serve (fleet : Fleet) : RegistryRequest → Fleet
  | .create builtins =>
    fleet ++ [{ registry := if builtins then Registry.withBuiltins else ∅ }]
  | .clone source => fleet ++ (fleet[source]?.map fun e => { registry := e.registry }).toList
  | .register target f => fleet.modify target (·.withRegistry (·.registerInPlace f))
  | .registerBuiltins target => fleet.modify target (·.withRegistry (·.registerBuiltinsInPlace))
  | .lookup .. => fleet

def after (fleet : Fleet) (history : List RegistryRequest) : Fleet :=
  history.foldl serve fleet

/-- Number `j` is number `i` itself or was cloned from it during the history, perhaps through other
clones. -/
inductive Descends (j : Nat) : Nat → Fleet → List RegistryRequest → Prop where
  | refl (fleet : Fleet) : Descends j j fleet []
  | stay {i : Nat} {fleet : Fleet} {request : RegistryRequest} {rest : List RegistryRequest} :
      Descends j i (fleet.serve request) rest → Descends j i fleet (request :: rest)
  | clone {i : Nat} {fleet : Fleet} {rest : List RegistryRequest} :
      Descends j fleet.length (fleet.serve (.clone i)) rest → Descends j i fleet (.clone i :: rest)

/-- Every registry stores its functions under their own names. -/
def WellFormed (fleet : Fleet) : Prop :=
  ∀ engine ∈ fleet, engine.registry.WellFormed

variable {fleet : Fleet} {engine : Engine} {i j : Nat}

/-! ## One request -/

/-- What becomes of an engine in place: its rules stay, and its registry grows. -/
structure Grows (a b : Engine) : Prop where
  rules_eq : b.rules = a.rules
  registry_extends : a.registry.Extends b.registry

theorem Grows.refl (engine : Engine) : Grows engine engine :=
  ⟨rfl, .refl _⟩

theorem Grows.trans {a b c : Engine} (hab : Grows a b) (hbc : Grows b c) : Grows a c :=
  ⟨hbc.rules_eq.trans hab.rules_eq, hab.registry_extends.trans hbc.registry_extends⟩

theorem Grows.sameUnder {a b : Engine} (h : Grows a b) (id : String) : a.SameUnder id b := by
  apply Engine.SameUnder.of_candidates
  rw [Engine.candidates, Engine.candidates, Engine.ruleSet, Engine.ruleSet, h.rules_eq]

/-- The step: every engine stays under its number, and at most the target of the request grows. -/
theorem getElem?_serve (h : fleet[j]? = some engine) (request : RegistryRequest) :
    ∃ grown, (fleet.serve request)[j]? = some grown ∧ Grows engine grown ∧
      (request.target? ≠ some j → grown = engine) := by
  have hlt : j < fleet.length := (List.getElem?_eq_some_iff.mp h).1
  have happend (added : List Engine) : (fleet ++ added)[j]? = some engine := by
    rw [List.getElem?_append_left hlt, h]
  have hmodify (target : Nat) (change : Registry → Except EvalError Unit × Registry)
      (hchange : engine.registry.Extends (change engine.registry).2) :
      ∃ grown, (fleet.modify target (·.withRegistry change))[j]? = some grown ∧
        Grows engine grown ∧ (some target ≠ some j → grown = engine) := by
    rw [List.getElem?_modify, h, Option.map_eq_map, Option.map_some]
    by_cases heq : target = j
    · rw [if_pos heq]
      exact ⟨_, rfl, ⟨rfl, hchange⟩, fun hne => absurd (congrArg some heq) hne⟩
    · rw [if_neg heq]
      exact ⟨engine, rfl, .refl engine, fun _ => rfl⟩
  cases request with
  | create builtins => exact ⟨engine, happend _, .refl engine, fun _ => rfl⟩
  | clone source => exact ⟨engine, happend _, .refl engine, fun _ => rfl⟩
  | register target f => exact hmodify target _ (Registry.extends_registerInPlace _ f)
  | registerBuiltins target => exact hmodify target _ (Registry.extends_registerFreeInPlace _ _)
  | lookup target name => exact ⟨engine, h, .refl engine, fun _ => rfl⟩

/-- A clone stands under the next number and has the functions of its source. -/
theorem getElem?_clone (h : fleet[i]? = some engine) :
    (fleet.serve (.clone i))[fleet.length]? = some { registry := engine.registry } := by
  rw [serve, h]
  exact List.getElem?_concat_length

theorem WellFormed.serve (h : fleet.WellFormed) (request : RegistryRequest) :
    (fleet.serve request).WellFormed := by
  have happend {added : Engine} (hadded : added.registry.WellFormed) :
      WellFormed (fleet ++ [added]) :=
    List.forall_mem_append.mpr ⟨h, List.forall_mem_singleton.mpr hadded⟩
  have hmodify (target : Nat) (change : Registry → Except EvalError Unit × Registry)
      (hchange : ∀ registry : Registry, registry.WellFormed → (change registry).2.WellFormed) :
      WellFormed (fleet.modify target (·.withRegistry change)) := by
    intro e he
    obtain ⟨k, hk⟩ := List.getElem?_of_mem he
    rw [List.getElem?_modify, Option.map_eq_map, Option.map_eq_some_iff] at hk
    obtain ⟨old, hold, rfl⟩ := hk
    have hwell := h old (List.mem_of_getElem? hold)
    split
    · exact hchange _ hwell
    · exact hwell
  cases request with
  | create builtins =>
    refine happend ?_
    cases builtins with
    | true => exact Registry.wellFormed_withBuiltins
    | false => exact Registry.WellFormed.empty
  | clone source =>
    rw [Fleet.serve]
    cases hsource : fleet[source]? with
    | none => exact (List.append_nil fleet).symm ▸ h
    | some e => exact happend (h e (List.mem_of_getElem? hsource))
  | register target f => exact hmodify target _ fun _ hr => hr.registerInPlace f
  | registerBuiltins target => exact hmodify target _ fun _ hr => hr.registerFreeInPlace _
  | lookup target name => exact h

/-! ## Histories -/

theorem WellFormed.after (h : fleet.WellFormed) (history : List RegistryRequest) :
    (fleet.after history).WellFormed := by
  induction history generalizing fleet with
  | nil => exact h
  | cons request rest ih => exact ih (h.serve request)

theorem getElem?_after (h : fleet[j]? = some engine) (history : List RegistryRequest) :
    ∃ grown, (fleet.after history)[j]? = some grown ∧ Grows engine grown ∧
      ((∀ request ∈ history, request.target? ≠ some j) → grown = engine) := by
  induction history generalizing fleet engine with
  | nil => exact ⟨engine, h, .refl engine, fun _ => rfl⟩
  | cons request rest ih =>
    obtain ⟨middle, hmiddle, hfirst, hsame⟩ := getElem?_serve h request
    obtain ⟨grown, hgrown, hrest, hsame'⟩ := ih hmiddle
    refine ⟨grown, hgrown, hfirst.trans hrest, fun hnone => ?_⟩
    obtain ⟨hrequest, hnone⟩ := List.forall_mem_cons.mp hnone
    exact (hsame' hnone).trans (hsame hrequest)

/-- A registry and all that descend from it keep its bindings. -/
theorem Descends.registry_extends {history : List RegistryRequest} (hj : Descends j i fleet history)
    (h : fleet[i]? = some engine) :
    ∃ grown, (fleet.after history)[j]? = some grown ∧ engine.registry.Extends grown.registry := by
  induction hj generalizing engine with
  | refl fleet => exact ⟨engine, h, .refl _⟩
  | @stay i fleet request rest _ ih =>
    obtain ⟨middle, hmiddle, hfirst, -⟩ := getElem?_serve h request
    obtain ⟨grown, hgrown, hrest⟩ := ih hmiddle
    exact ⟨grown, hgrown, hfirst.registry_extends.trans hrest⟩
  | clone _ ih =>
    obtain ⟨grown, hgrown, hextends⟩ := ih (getElem?_clone h)
    exact ⟨grown, hgrown, hextends⟩

theorem Descends.self (i : Nat) (fleet : Fleet) (history : List RegistryRequest) :
    Descends i i fleet history := by
  induction history generalizing fleet with
  | nil => exact .refl fleet
  | cons request rest ih => exact .stay (ih _)

end Fleet

/-! ## Main statement -/

/-- What a registration in place does: it fails exactly if the name is taken, and then nothing is
changed; otherwise it binds that name alone. Registering the built-in functions never fails, is done
once and for all, and replaces no function. -/
structure Registry.AppendOnly (registry : Registry) : Prop where
  register_error : ∀ f e, (registry.registerInPlace f).1 = .error e ↔
    (∃ g, registry.get f.name = .ok g) ∧ e = .duplicateFunction f.name
  register_unchanged : ∀ f e, (registry.registerInPlace f).1 = .error e →
    (registry.registerInPlace f).2 = registry
  register_get : ∀ f, (registry.registerInPlace f).1 = .ok () → ∀ name,
    (registry.registerInPlace f).2.get name = if name = f.name then .ok f else registry.get name
  builtins_ok : registry.registerBuiltinsInPlace.1 = .ok ()
  builtins_idempotent : registry.registerBuiltinsInPlace.2.registerBuiltinsInPlace =
    (.ok (), registry.registerBuiltinsInPlace.2)
  builtins_extends : registry.Extends registry.registerBuiltinsInPlace.2

/-- After every history of requests: each registry stores its functions under their own names and
only takes additions. What a name stood for in a registry it stands for ever after, there and in all
registries that descend from it, and what was built from the registry evaluates there as it did,
even if all names are looked up again. Engines answer everything about every id as before, and a
registry that no request was made to is as it was, wherever it or others were cloned from. -/
theorem registries_only_grow {fleet : Fleet} (hfleet : fleet.WellFormed)
    (history : List RegistryRequest) :
    (fleet.after history).WellFormed ∧
    (∀ registry : Registry, registry.AppendOnly) ∧
    (∀ i j engine, fleet[i]? = some engine → Fleet.Descends j i fleet history →
      ∃ grown, (fleet.after history)[j]? = some grown ∧
        (∀ name f, engine.registry.get name = .ok f → grown.registry.get name = .ok f) ∧
        ∀ {World : Type} (host : Host World) (ctx : Context),
          (∀ v : Expr, v.BuiltFrom engine.registry →
            v.evaluateIn grown.registry host ctx = v.evaluate host ctx) ∧
          ∀ r : Rule, r.BuiltFrom engine.registry →
            r.applyIn grown.registry host ctx = r.apply host ctx) ∧
    ∀ i engine, fleet[i]? = some engine →
      Fleet.Descends i i fleet history ∧
      ∃ grown, (fleet.after history)[i]? = some grown ∧ (∀ id, engine.SameUnder id grown) ∧
        ((∀ request ∈ history, request.target? ≠ some i) → grown = engine) := by
  refine ⟨hfleet.after history, fun registry => ?_, fun i j engine h hj => ?_,
    fun i engine h => ⟨.self i fleet history, ?_⟩⟩
  · exact {
      register_error := fun f e => Registry.registerInPlace_eq_error
      register_unchanged := fun f e => Registry.registerInPlace_of_error
      register_get := fun f => Registry.get_registerInPlace
      builtins_ok := by rw [Registry.registerBuiltinsInPlace_eq]
      builtins_idempotent := registry.registerBuiltinsInPlace_idempotent
      builtins_extends := Registry.extends_registerFreeInPlace registry Registry.builtins }
  · obtain ⟨grown, hgrown, hextends⟩ := hj.registry_extends h
    have hwell : grown.registry.WellFormed :=
      hfleet.after history grown (List.mem_of_getElem? hgrown)
    exact ⟨grown, hgrown, hextends, fun host ctx =>
      ⟨fun v hv => hv.evaluateIn_eq host ctx hwell hextends,
        fun r hr => hr.applyIn_eq host ctx hwell hextends⟩⟩
  · obtain ⟨grown, hgrown, hgrows, hsame⟩ := Fleet.getElem?_after h history
    exact ⟨grown, hgrown, hgrows.sameUnder, hsame⟩

/-- The registry of an engine is cloned. The clone refuses another function under a name that it
took over, but takes the built-in one, of which the engine does not know. -/
theorem registries_only_grow_past_clone :
    let echo : FunctionRef := .hosted "echo" 0
    let call : Call := ⟨echo, .value (.element ⟨"name", .text, by decide⟩), none⟩
    let greeting := Rule.fallback "greeting" (.application call)
    let engine : Engine :=
      { registry := ⟨[("echo", echo)]⟩, rules := [("greeting", ⟨[⟨0, greeting⟩]⟩)],
        nextSequence := 1 }
    let history : List RegistryRequest :=
      [.clone 0, .register 1 (.hosted "echo" 1), .registerBuiltins 1, .lookup 0 "echo"]
    let host := Host.echo fun _ => ⟨.text, .text⟩
    let ctx : Context := ⟨[("name", .text "Ann")]⟩
    Fleet.WellFormed [engine] ∧
      (Expr.application call).BuiltFrom engine.registry ∧
      Fleet.Descends 1 0 [engine] history ∧
      (Fleet.after [engine] history)[0]? = some engine ∧
      (∀ id, engine.SameUnder id engine) ∧
      ∃ clone, (Fleet.after [engine] history)[1]? = some clone ∧
        clone.registry.names = ["echo", "get_property"] ∧
        clone.registry.get "echo" = .ok echo ∧
        (Expr.application call).evaluateIn clone.registry host ctx =
          (Expr.application call).evaluate host ctx ∧
        greeting.applyIn clone.registry host ctx = greeting.apply host ctx := by
  intro echo call greeting engine history host ctx
  have hfleet : Fleet.WellFormed [engine] := List.forall_mem_singleton.mpr ⟨by decide, by decide⟩
  have hmade : Application.make host.toDeclarations engine.registry "echo" call.parameter =
      .ok call := rfl
  have hcall : (Expr.application call).BuiltFrom engine.registry :=
    List.forall_mem_singleton.mpr (.make hmade)
  have hgreeting : greeting.BuiltFrom engine.registry := ⟨nofun, nofun, hcall⟩
  have hclone : Fleet.Descends 1 0 [engine] history := .clone (.self 1 _ _)
  obtain ⟨-, -, hdescend, hstay⟩ := registries_only_grow hfleet history
  obtain ⟨clone, hat, hkept, hruns⟩ := hdescend 0 1 engine rfl hclone
  obtain ⟨hvalue, hrule⟩ := hruns host ctx
  obtain ⟨-, grown, hgrown, hsame, huntouched⟩ := hstay 0 engine rfl
  obtain rfl : grown = engine := huntouched (by decide)
  have hnames : clone.registry.names = ["echo", "get_property"] := by
    cases hat
    rfl
  exact ⟨hfleet, hcall, hclone, hgrown, hsame, clone, hat, hnames, hkept "echo" echo rfl,
    hvalue _ hcall, hrule _ hgreeting⟩

end Rulebook
