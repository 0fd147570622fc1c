import Mathlib.Data.List.Induction
import Rulebook.Proofs.Engine.Consistency
import Rulebook.Proofs.Registry.Growth

/-! # Engines from configurations

The engine of a configuration registers one function after the other and stops at the first whose
name is taken. What has been registered so far, or where the loop stopped, is known after each
function (`registerAll_spec`). So a configuration is accepted exactly if no name is used twice
(`EngineConfig.CollisionFree`), the engine then holds what the configuration lists and nothing else
(`EngineConfig.Describes`), and a refusal names the first entry whose name was taken
(`EngineConfig.FirstCollision`).
-/

set_option autoImplicit false

namespace Rulebook

/-- A value under a new key brings that key. -/
theorem Keyed.keys_insert_perm {α : Type} {entries : List (String × α)} (h : Ordered entries)
    {key : String} (hkey : key ∉ keys entries) (value : α) :
    (keys (insert key value entries)).Perm (key :: keys entries) := by
  obtain ⟨before, after, hentries, hinsert⟩ := insert_eq_splice h key value
  have hnone : entries.lookup key = none := by
    rwa [← Option.not_isSome_iff_eq_none, lookup_isSome_iff]
  rw [hnone, Option.map_none, Option.toList_none, List.append_nil] at hentries
  rw [hinsert, hentries, keys, keys, List.map_append, List.map_append]
  exact List.perm_middle

namespace Registry

variable {start registry left : Registry} {functions : List FunctionRef} {f : FunctionRef}

/-! ## One registration -/

theorem contains_iff_mem_names {name : String} :
    registry.contains name = true ↔ name ∈ registry.names :=
  Keyed.lookup_isSome_iff

theorem register_of_taken (h : f.name ∈ registry.names) :
    registry.register f = .error (.duplicateFunction f.name) :=
  if_pos (contains_iff_mem_names.mpr h)

/-- A function whose name is free is registered, and nothing else changes. -/
theorem register_of_free (hregistry : registry.WellFormed) (h : f.name ∉ registry.names) :
    ∃ left, registry.register f = .ok left ∧ left.WellFormed ∧
      left.names.Perm (f.name :: registry.names) ∧ registry.Extends left ∧
      left.get f.name = .ok f := by
  have hfree : registry.contains f.name = false := by
    rwa [← Bool.not_eq_true, contains_iff_mem_names]
  have hplace := registerInPlace_of_free hfree
  have hok : (registry.registerInPlace f).1 = .ok () := by rw [hplace]
  have hwellFormed := hregistry.registerInPlace f
  have hextends := extends_registerInPlace registry f
  have hget := get_registerInPlace hok f.name
  rw [if_pos rfl] at hget
  rw [hplace] at hwellFormed hextends hget
  exact ⟨_, if_neg (by rw [hfree]; exact Bool.false_ne_true), hwellFormed,
    Keyed.keys_insert_perm hregistry.1 h f, hextends, hget⟩

/-! ## A loop of registrations -/

/-- Adds some functions, up to the first whose name is taken. -/
def registerAll (registry : Registry) (functions : List FunctionRef) : Except EvalError Registry :=
  functions.foldlM register registry

theorem registerAll_concat (start : Registry) (functions : List FunctionRef) (f : FunctionRef) :
    start.registerAll (functions ++ [f]) = (start.registerAll functions).bind (register · f) := by
  rw [registerAll, List.foldlM_append]
  exact congrArg _ (funext fun registry => bind_pure (registry.register f))

/-- The functions have names of their own, none of which is taken. -/
structure Admits (start : Registry) (functions : List FunctionRef) : Prop where
  distinct : (functions.map FunctionRef.name).Nodup
  free : ∀ f ∈ functions, f.name ∉ start.names

/-- The registry holds what it held at the start and these functions. -/
structure Gained (start : Registry) (functions : List FunctionRef) (registry : Registry) :
    Prop where
  wellFormed : registry.WellFormed
  names_perm : registry.names.Perm (functions.map FunctionRef.name ++ start.names)
  keeps : start.Extends registry
  get_eq : ∀ f ∈ functions, registry.get f.name = .ok f

/-- `f` is the first of the functions whose name is taken when its turn comes. -/
def FirstTaken (start : Registry) (functions : List FunctionRef) (f : FunctionRef) : Prop :=
  ∃ before after, functions = before ++ f :: after ∧ start.Admits before ∧
    (f.name ∈ before.map FunctionRef.name ∨ f.name ∈ start.names)

theorem Admits.nil (start : Registry) : start.Admits [] :=
  ⟨List.nodup_nil, List.forall_mem_nil _⟩

theorem admits_concat_iff : start.Admits (functions ++ [f]) ↔ start.Admits functions ∧
    ¬ (f.name ∈ functions.map FunctionRef.name ∨ f.name ∈ start.names) := by
  have hdistinct : ((functions ++ [f]).map FunctionRef.name).Nodup ↔
      (functions.map FunctionRef.name).Nodup ∧ f.name ∉ functions.map FunctionRef.name := by
    rw [List.map_append, List.map_singleton, ← List.concat_eq_append, List.nodup_concat, and_comm]
  have hfree : (∀ g ∈ functions ++ [f], g.name ∉ start.names) ↔
      (∀ g ∈ functions, g.name ∉ start.names) ∧ f.name ∉ start.names := by
    rw [List.forall_mem_append, List.forall_mem_singleton]
  constructor
  · intro h
    obtain ⟨hfunctions, hf⟩ := hdistinct.mp h.distinct
    obtain ⟨hfunctions', hf'⟩ := hfree.mp h.free
    exact ⟨⟨hfunctions, hfunctions'⟩, not_or.mpr ⟨hf, hf'⟩⟩
  · rintro ⟨h, hf⟩
    obtain ⟨hf, hf'⟩ := not_or.mp hf
    exact ⟨hdistinct.mpr ⟨h.distinct, hf⟩, hfree.mpr ⟨h.free, hf'⟩⟩

theorem Admits.of_append {before after : List FunctionRef} (h : start.Admits (before ++ after)) :
    start.Admits before := by
  refine ⟨?_, fun f hf => h.free f (List.mem_append_left after hf)⟩
  have hdistinct := h.distinct
  rw [List.map_append] at hdistinct
  exact hdistinct.of_append_left

theorem FirstTaken.not_admits (h : start.FirstTaken functions f) : ¬ start.Admits functions := by
  obtain ⟨before, after, rfl, -, htaken⟩ := h
  intro hadmits
  rw [List.append_cons] at hadmits
  exact (admits_concat_iff.mp hadmits.of_append).2 htaken

theorem FirstTaken.append (h : start.FirstTaken functions f) (more : List FunctionRef) :
    start.FirstTaken (functions ++ more) f := by
  obtain ⟨before, after, rfl, hadmits, htaken⟩ := h
  exact ⟨before, after ++ more, by simp, hadmits, htaken⟩

theorem Gained.refl (h : start.WellFormed) : start.Gained [] start :=
  ⟨h, .refl _, .refl start, List.forall_mem_nil _⟩

theorem Gained.mem_names_iff (h : start.Gained functions registry) {name : String} :
    name ∈ registry.names ↔ name ∈ functions.map FunctionRef.name ∨ name ∈ start.names := by
  rw [h.names_perm.mem_iff, List.mem_append]

/-- One more function whose name is free. -/
theorem Gained.register (h : start.Gained functions registry) (hf : f.name ∉ registry.names) :
    ∃ left, registry.register f = .ok left ∧ start.Gained (functions ++ [f]) left := by
  obtain ⟨left, hleft, hwellFormed, hnames, hextends, hget⟩ := register_of_free h.wellFormed hf
  refine ⟨left, hleft, hwellFormed, ?_, h.keeps.trans hextends, fun g hg => ?_⟩
  · rw [List.map_append, List.map_singleton, List.append_assoc, List.singleton_append]
    exact (hnames.trans (h.names_perm.cons f.name)).trans List.perm_middle.symm
  · rcases List.mem_append.mp hg with hg | hg
    · exact hextends g.name g (h.get_eq g hg)
    · rw [List.mem_singleton.mp hg]
      exact hget

/-- The loop registers functions as long as their names are free, and stops at the first one whose
name is taken. -/
theorem registerAll_spec (hstart : start.WellFormed) (functions : List FunctionRef) :
    match start.registerAll functions with
    | .ok registry => start.Admits functions ∧ start.Gained functions registry
    | .error e => ∃ f, start.FirstTaken functions f ∧ e = .duplicateFunction f.name := by
  -- The loop goes on at the end of the list, so the induction takes functions off there.
  induction functions using List.reverseRecOn with
  | nil => exact ⟨.nil start, .refl hstart⟩
  | append_singleton functions f ih =>
    rw [registerAll_concat]
    cases h : start.registerAll functions with
    | error e =>
      rw [h] at ih
      obtain ⟨g, hg, rfl⟩ := ih
      exact ⟨g, hg.append [f], rfl⟩
    | ok registry =>
      rw [h] at ih
      obtain ⟨hadmits, hgained⟩ := ih
      by_cases hf : f.name ∈ registry.names
      · have hstop : (Except.ok registry).bind (register · f) =
            .error (.duplicateFunction f.name) := register_of_taken hf
        rw [hstop]
        exact ⟨f, ⟨functions, [], rfl, hadmits, hgained.mem_names_iff.mp hf⟩, rfl⟩
      · obtain ⟨left, hleft, hleft'⟩ := hgained.register hf
        have hnext : (Except.ok registry).bind (register · f) = .ok left := hleft
        rw [hnext]
        exact ⟨admits_concat_iff.mpr ⟨hadmits, mt hgained.mem_names_iff.mpr hf⟩, hleft'⟩

section Outcome

variable (hstart : start.WellFormed)

include hstart

theorem gained_of_registerAll (h : start.registerAll functions = .ok registry) :
    start.Gained functions registry := by
  have hspec := registerAll_spec hstart functions
  rw [h] at hspec
  exact hspec.2

theorem registerAll_succeeds_iff :
    (∃ registry, start.registerAll functions = .ok registry) ↔ start.Admits functions := by
  have hspec := registerAll_spec hstart functions
  cases h : start.registerAll functions with
  | error e =>
    rw [h] at hspec
    obtain ⟨f, hf, -⟩ := hspec
    exact iff_of_false nofun hf.not_admits
  | ok registry =>
    rw [h] at hspec
    exact iff_of_true ⟨registry, rfl⟩ hspec.1

theorem registerAll_eq_error_iff {e : EvalError} :
    start.registerAll functions = .error e ↔
      ∃ f, start.FirstTaken functions f ∧ e = .duplicateFunction f.name := by
  constructor
  · intro h
    have hspec := registerAll_spec hstart functions
    rwa [h] at hspec
  · rintro ⟨f, ⟨before, after, rfl, hadmits, htaken⟩, rfl⟩
    obtain ⟨registry, hbefore⟩ := (registerAll_succeeds_iff hstart).mpr hadmits
    have hf := (gained_of_registerAll hstart hbefore).mem_names_iff.mpr htaken
    have hstop : start.registerAll (before ++ f :: after) =
        (registry.register f).bind (registerAll · after) := by
      rw [registerAll, List.foldlM_append]
      exact congrArg (Except.bind · _) hbefore
    rw [hstop, register_of_taken hf]
    rfl

end Outcome

end Registry

/-! ## Configurations -/

namespace EngineConfig

variable {config : EngineConfig}

/-- The built-in functions that the engine starts with. -/
def builtinFunctions (config : EngineConfig) : List FunctionRef :=
  if config.builtins then Registry.builtins else []

/-- The names of the entries are pairwise distinct, and none of them is that of a built-in function
with which the engine starts. -/
structure CollisionFree (config : EngineConfig) : Prop where
  distinct : (config.http.map HttpFunction.name).Nodup
  not_builtin : ∀ f ∈ config.http, ∀ b ∈ config.builtinFunctions, f.name ≠ b.name

/-- `f` is the first entry whose name is that of an entry before it or of a built-in function: the
entries before it do not collide. -/
def FirstCollision (config : EngineConfig) (f : HttpFunction) : Prop :=
  ∃ before after, config.http = before ++ f :: after ∧
    CollisionFree { config with http := before } ∧
    ((∃ g ∈ before, f.name = g.name) ∨ ∃ b ∈ config.builtinFunctions, f.name = b.name)

/-- The engine has the functions of the configuration under their names, and nothing else. -/
structure Describes (config : EngineConfig) (engine : Engine) : Prop where
  names_perm : engine.registry.names.Perm
    (config.http.map HttpFunction.name ++ config.builtinFunctions.map FunctionRef.name)
  names_ascend : engine.registry.names.Pairwise (· < ·)
  get_entry : ∀ f ∈ config.http, engine.registry.get f.name = .ok (.http f)
  signature_entry : ∀ f ∈ config.http, ∀ decl : Declarations,
    (engine.registry.get f.name).map decl.signature = .ok ⟨.mapping, f.resultType⟩
  get_builtin : ∀ b ∈ config.builtinFunctions, engine.registry.get b.name = .ok b
  no_rules : engine.ruleIds = []

/-- The registry before the entries are registered. -/
def startRegistry (config : EngineConfig) : Registry :=
  if config.builtins then Registry.withBuiltins else ∅

def entryFunctions (config : EngineConfig) : List FunctionRef :=
  config.http.map .http

theorem names_entryFunctions (config : EngineConfig) :
    config.entryFunctions.map FunctionRef.name = config.http.map HttpFunction.name := by
  rw [entryFunctions, List.map_map]
  rfl

theorem gained_startRegistry (config : EngineConfig) :
    Registry.Gained ∅ config.builtinFunctions config.startRegistry := by
  rw [builtinFunctions, startRegistry]
  split
  · have hall : Registry.registerAll ∅ Registry.builtins = .ok Registry.withBuiltins := rfl
    have hspec := Registry.registerAll_spec .empty Registry.builtins
    rw [hall] at hspec
    exact hspec.2
  · exact .refl .empty

theorem mem_names_startRegistry {name : String} :
    name ∈ config.startRegistry.names ↔ ∃ b ∈ config.builtinFunctions, name = b.name := by
  have hempty : name ∉ (∅ : Registry).names := List.not_mem_nil
  rw [config.gained_startRegistry.mem_names_iff, or_iff_left hempty, List.mem_map]
  exact exists_congr fun b => and_congr_right fun _ => eq_comm

theorem admits_iff : config.startRegistry.Admits config.entryFunctions ↔ config.CollisionFree := by
  have hdistinct : (config.entryFunctions.map FunctionRef.name).Nodup ↔
      (config.http.map HttpFunction.name).Nodup := by rw [names_entryFunctions]
  have hfree : (∀ f ∈ config.entryFunctions, f.name ∉ config.startRegistry.names) ↔
      ∀ f ∈ config.http, ∀ b ∈ config.builtinFunctions, f.name ≠ b.name := by
    rw [entryFunctions, List.forall_mem_map]
    refine forall₂_congr fun f _ => ?_
    rw [mem_names_startRegistry]
    exact ⟨fun h b hb heq => h ⟨b, hb, heq⟩, fun h ⟨b, hb, heq⟩ => h b hb heq⟩
  exact ⟨fun h => ⟨hdistinct.mp h.distinct, hfree.mp h.free⟩,
    fun h => ⟨hdistinct.mpr h.distinct, hfree.mpr h.not_builtin⟩⟩

theorem firstTaken_iff {g : FunctionRef} :
    config.startRegistry.FirstTaken config.entryFunctions g ↔
      ∃ f, g = .http f ∧ config.FirstCollision f := by
  have htaken (before : List HttpFunction) (f : HttpFunction) :
      (FunctionRef.http f).name ∈ (before.map FunctionRef.http).map FunctionRef.name ∨
          (FunctionRef.http f).name ∈ config.startRegistry.names ↔
        (∃ g ∈ before, f.name = g.name) ∨ ∃ b ∈ config.builtinFunctions, f.name = b.name := by
    rw [mem_names_startRegistry, List.map_map, List.mem_map]
    exact or_congr_left (exists_congr fun g => and_congr_right fun _ => eq_comm)
  have hadmits (before : List HttpFunction) :
      config.startRegistry.Admits (before.map .http) ↔
        CollisionFree { config with http := before } :=
    @admits_iff { config with http := before }
  constructor
  · rintro ⟨before, after, heq, hbefore, hg⟩
    obtain ⟨before, rest, hhttp, rfl, hrest⟩ := List.map_eq_append_iff.mp heq
    obtain ⟨f, after, rfl, rfl, -⟩ := List.map_eq_cons_iff.mp hrest
    exact ⟨f, rfl, before, after, hhttp, (hadmits before).mp hbefore, (htaken before f).mp hg⟩
  · rintro ⟨f, rfl, before, after, hhttp, hbefore, hf⟩
    refine ⟨before.map .http, after.map .http, ?_, (hadmits before).mpr hbefore,
      (htaken before f).mpr hf⟩
    rw [entryFunctions, hhttp, List.map_append, List.map_cons]

/-- The engine is set up by one loop of registrations. -/
theorem ofConfig_eq (config : EngineConfig) : Engine.ofConfig config =
    (config.startRegistry.registerAll config.entryFunctions).bind fun registry =>
      .ok { registry } := by
  rw [Registry.registerAll, entryFunctions, List.foldlM_map]
  rfl

theorem ofConfig_eq_ok {engine : Engine} : Engine.ofConfig config = .ok engine ↔
    ∃ registry, config.startRegistry.registerAll config.entryFunctions = .ok registry ∧
      engine = { registry } := by
  rw [ofConfig_eq]
  cases config.startRegistry.registerAll config.entryFunctions with
  | error e => simp [Except.bind]
  | ok registry => simp [Except.bind, eq_comm]

theorem ofConfig_eq_error {e : EvalError} : Engine.ofConfig config = .error e ↔
    config.startRegistry.registerAll config.entryFunctions = .error e := by
  rw [ofConfig_eq]
  cases config.startRegistry.registerAll config.entryFunctions with
  | error e' => simp [Except.bind]
  | ok registry => simp [Except.bind]

theorem describes_of_gained {registry : Registry}
    (h : config.startRegistry.Gained config.entryFunctions registry) :
    config.Describes { registry } := by
  have hget (f : HttpFunction) (hf : f ∈ config.http) : registry.get f.name = .ok (.http f) :=
    h.get_eq (.http f) (List.mem_map_of_mem hf)
  refine ⟨?_, h.wellFormed.1, hget, fun f hf decl => ?_, fun b hb => ?_, rfl⟩
  · have hstart := config.gained_startRegistry.names_perm
    have hempty : (∅ : Registry).names = [] := rfl
    rw [hempty, List.append_nil] at hstart
    rw [← names_entryFunctions]
    exact h.names_perm.trans (hstart.append_left _)
  · rw [hget f hf]
    rfl
  · exact h.keeps b.name b (config.gained_startRegistry.get_eq b hb)

end EngineConfig

/-- A configuration is accepted exactly if its names do not collide. The engine then holds each
entry under its name, with the result type that it is configured with, besides the built-in
functions, and no rules; otherwise the error names the first entry whose name was taken. -/
theorem configuration_accepted_iff_collision_free (config : EngineConfig) :
    ((∃ engine, Engine.ofConfig config = .ok engine) ↔ config.CollisionFree) ∧
      (∀ engine, Engine.ofConfig config = .ok engine → config.Describes engine) ∧
      ∀ e, Engine.ofConfig config = .error e ↔
        ∃ f, config.FirstCollision f ∧ e = .duplicateFunction f.name := by
  have hstart := config.gained_startRegistry.wellFormed
  refine ⟨?_, fun engine h => ?_, fun e => ?_⟩
  · rw [← EngineConfig.admits_iff, ← Registry.registerAll_succeeds_iff hstart]
    exact ⟨fun ⟨engine, h⟩ => (EngineConfig.ofConfig_eq_ok.mp h).imp fun registry h => h.1,
      fun ⟨registry, h⟩ => ⟨_, EngineConfig.ofConfig_eq_ok.mpr ⟨registry, h, rfl⟩⟩⟩
  · obtain ⟨registry, hregistry, rfl⟩ := EngineConfig.ofConfig_eq_ok.mp h
    exact EngineConfig.describes_of_gained (Registry.gained_of_registerAll hstart hregistry)
  · rw [EngineConfig.ofConfig_eq_error, Registry.registerAll_eq_error_iff hstart]
    simp only [EngineConfig.firstTaken_iff]
    constructor
    · rintro ⟨-, ⟨f, rfl, hf⟩, rfl⟩
      exact ⟨f, hf, rfl⟩
    · rintro ⟨f, hf, rfl⟩
      exact ⟨.http f, ⟨f, rfl, hf⟩, rfl⟩

/-- Two entries beside the built-in function; and three, of which the second takes the name of the
built-in function and the third that of the first: the second is the error. -/
theorem configuration_accepted_iff_collision_free_person :
    let person : HttpFunction :=
      { name := "person", url := "http://localhost/person", resultType := .structuredObject }
    let rate : HttpFunction :=
      { name := "rate", url := "http://localhost/rate", resultType := .number }
    let reader : HttpFunction := { name := "get_property", url := "http://localhost/read" }
    let accepted : EngineConfig := { http := [person, rate] }
    let refused : EngineConfig := { http := [person, reader, person] }
    accepted.CollisionFree ∧
      (∃ engine, Engine.ofConfig accepted = .ok engine ∧
        engine.registry.get "rate" = .ok (.http rate) ∧
        engine.registry.get "get_property" = .ok .property) ∧
      refused.FirstCollision reader ∧
      Engine.ofConfig refused = .error (.duplicateFunction "get_property") := by
  intro person rate reader accepted refused
  obtain ⟨haccepted, hdescribed, -⟩ := configuration_accepted_iff_collision_free accepted
  obtain ⟨-, -, hrefused⟩ := configuration_accepted_iff_collision_free refused
  have hfree : accepted.CollisionFree := ⟨by decide, by decide⟩
  have hfirst : refused.FirstCollision reader :=
    ⟨[person], [person], rfl, ⟨by decide, by decide⟩, .inr ⟨.property, List.mem_cons_self, rfl⟩⟩
  obtain ⟨engine, hengine⟩ := haccepted.mpr hfree
  have hdescribes := hdescribed engine hengine
  exact ⟨hfree, ⟨engine, hengine, hdescribes.get_entry rate (by simp [accepted]),
    hdescribes.get_builtin .property List.mem_cons_self⟩, hfirst,
    (hrefused _).mpr ⟨reader, hfirst, rfl⟩⟩

end Rulebook
