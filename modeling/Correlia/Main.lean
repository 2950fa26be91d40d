import Correlia.Config.Topology
import Correlia.Plugins.Loader
import Correlia.Processing.Ingress
import Correlia.Processing.NotificationDispatcher
import Correlia.RuleSelection

/-!
# Main — how a process is put together (`app/main.py`)

`lifespan` reads the files its settings name and builds the processor and the dispatcher from them.
The rules and topology files are read twice: for the configuration the API shows, and by
`build_icinga2_processor`.
-/

namespace Correlia

open Lib

/-- A file that is read twice. -/
structure TwoReads (α : Type) where
  first : α
  again : α

/-- What a process finds: the documents of the paths that are set, with their digests, and what
compiles, imports and signs. -/
structure Deployment where
  modules : PluginModules
  compileRegex : RegexCompiler
  compilePattern : PatternCompiler
  sha256 : String → HexDigest
  hmac : String → List Char → HexDigest
  plugins : Option (HexDigest × Option (Option (List PluginEntryFields)))
  rules : Option (TwoReads (HexDigest × Option (List RuleDefinitionConfig)))
  topology : Option (TwoReads (Option TopologyFields))
  auditRawPayloadMaxBytes : ℤ
  auditRawPayloadHmacKey : String

/-- The state of the application that requests and tasks work with. -/
structure Application where
  pluginRegistry : PluginRegistry
  rulesConfig : Option CompiledRuleConfig
  topologyConfig : CompiledTopologyConfig
  dispatcher : NotificationDispatcher
  processor : Icinga2DecisionProcessor

inductive StartupError
  | plugins (e : PluginStartupError)
  | input (e : InputError)

namespace Deployment

variable (d : Deployment)

/-- The registry of the file, or the empty one. -/
def pluginRegistry : Except PluginStartupError PluginRegistry :=
  match d.plugins with
  | none => .ok .empty
  | some (configHash, data) => (loadPluginRegistry d.modules configHash data).result

/-- `load_rules_config` with the plugins of the registry, where there is a path. -/
def loadRules (knownPlugins : List String)
    (read : Option (HexDigest × Option (List RuleDefinitionConfig))) :
    Except InputError (Option CompiledRuleConfig) :=
  match read with
  | none => .ok none
  | some (configHash, data) =>
    (loadRulesConfig d.compileRegex configHash ["create_incident"] knownPlugins data).map some

def loadTopology (read : Option (Option TopologyFields)) :
    Except InputError (Option CompiledTopologyConfig) :=
  match read with
  | none => .ok none
  | some data => (loadTopologyConfig d.compilePattern data).map some

/-- `build_icinga2_processor`. -/
def buildProcessor (registry : PluginRegistry) : Except InputError Icinga2DecisionProcessor := do
  let topology ← d.loadTopology (d.topology.map TwoReads.again)
  let rules ← d.loadRules registry.names (d.rules.map TwoReads.again)
  return {
    sha256 := d.sha256
    hmac := d.hmac
    topologyEnricher := topology
    ruleEngine := rules.map CompiledRuleConfig.rules
    hasSessionmaker := true
    hasTaskRunner := true
    pluginNames := registry.names
    configHash := some registry.configHash
    auditRawPayloadMaxBytes := d.auditRawPayloadMaxBytes
    auditRawPayloadHmacKey := d.auditRawPayloadHmacKey }

/-- `lifespan`, up to the start of the workers. -/
def lifespan : Except StartupError Application := do
  let registry ← liftError .plugins d.pluginRegistry
  let rules ← liftError .input (d.loadRules registry.names (d.rules.map TwoReads.first))
  let topology ← liftError .input (d.loadTopology (d.topology.map TwoReads.first))
  let processor ← liftError .input (d.buildProcessor registry)
  return ⟨registry, rules, topology.getD ⟨[], []⟩, ⟨some registry.configHash, registry.names⟩,
    processor⟩

end Deployment

/-! ### What startup has checked -/

section

variable {compile : RegexCompiler} {configHash : HexDigest} {knownActions knownPlugins : List String}
  {data : Option (List RuleDefinitionConfig)} {config : CompiledRuleConfig}

theorem checkAction_eq_ok {rule : String} {a : ActionFields} :
    checkAction knownActions knownPlugins rule a = .ok () ↔
      a.name ∈ knownActions ∧ (knownPlugins ≠ [] → a.plugin ∈ knownPlugins) := by
  unfold checkAction
  split_ifs with hname hplugin
  · exact iff_of_false not_false fun h => hplugin.2 (h.2 hplugin.1)
  · refine iff_of_true rfl ⟨hname, fun hne => ?_⟩
    by_contra hnot
    exact hplugin ⟨hne, hnot⟩
  · exact iff_of_false not_false fun h => hname h.1

theorem forM_eq_ok {α ε : Type} {f : α → Except ε PUnit} {l : List α} :
    l.forM f = .ok () ↔ ∀ a ∈ l, f a = .ok () := by
  induction l with
  | nil => exact iff_of_true rfl (List.forall_mem_nil _)
  | cons a l ih =>
    show (f a >>= fun _ => l.forM f) = .ok () ↔ _
    rw [bind_eq_ok, List.forall_mem_cons, ← ih]
    constructor
    · rintro ⟨⟨⟩, ha, hl⟩
      exact ⟨ha, hl⟩
    · rintro ⟨ha, hl⟩
      exact ⟨(), ha, hl⟩

/-- The actions of a compiled rule are those of its document. -/
theorem compileRuleConfig_actions {r : RuleDefinitionConfig} {c : CompiledRule}
    (h : compileRuleConfig compile r = .ok c) :
    (c.definition.val.actions.map fun a => a.val.plugin) = r.actions.map fun a => a.plugin := by
  unfold compileRuleConfig at h
  obtain ⟨_, -, h⟩ := bind_eq_ok.mp h
  have hactions : ∀ (fields : List ActionFields) (actions : List (Checked ActionFields.errors)),
      List.Forall₂ (fun a c => liftError (InputError.validation "RuleAction")
        (modelValidate ActionFields.errors a) = .ok c) fields actions →
      (actions.map fun a => a.val.plugin) = fields.map fun a => a.plugin := by
    intro fields actions hall
    induction hall with
    | nil => rfl
    | cons hhead _ ih =>
      rw [List.map_cons, List.map_cons, ih, modelValidate_eq_ok.mp (liftError_eq_ok.mp hhead)]
  cases hservice : r.match.servicePattern <;>
    simp only [hservice, bind_eq_ok, liftError_eq_ok, modelValidate_eq_ok] at h <;>
    obtain ⟨_, -, _, -, _, -, _, -, actions, hmap, definition, hdefinition, heq⟩ := h <;>
    cases heq <;>
    rw [hdefinition] <;>
    exact hactions r.actions actions (mapM_eq_ok.mp hmap)

theorem compiled_actions {rules : List RuleDefinitionConfig} {compiled : List CompiledRule}
    (h : rules.mapM (compileRuleConfig compile) = .ok compiled) :
    (compiled.map fun c => c.definition.val.actions.map fun a => a.val.plugin) =
      rules.map fun r => r.actions.map fun a => a.plugin := by
  rw [mapM_eq_ok] at h
  induction h with
  | nil => rfl
  | cons hc _ ih => rw [List.map_cons, List.map_cons, ih, compileRuleConfig_actions hc]

/-- Every action of loaded rules is for a known plugin, unless none is known. -/
theorem loadRulesConfig_known (h : loadRulesConfig compile configHash knownActions knownPlugins data =
    .ok config) (hknown : knownPlugins ≠ []) {c : CompiledRule} (hc : c ∈ config.rules)
    {pluginName : String} (hname : pluginName ∈ c.definition.val.actions.map fun a => a.val.plugin) :
    pluginName ∈ knownPlugins := by
  obtain ⟨⟨-, hcheck⟩, hcompiled, -⟩ := loadRulesConfig_eq_ok.mp h
  obtain ⟨-, -, hpasses⟩ := checkRules_eq_ok.mp hcheck
  have hactions := List.mem_map_of_mem (f := fun c : CompiledRule =>
    c.definition.val.actions.map fun a => a.val.plugin) hc
  rw [compiled_actions hcompiled] at hactions
  obtain ⟨r, hr, heq⟩ := List.mem_map.mp hactions
  rw [← heq] at hname
  obtain ⟨a, ha, rfl⟩ := List.mem_map.mp hname
  exact (checkAction_eq_ok.mp (forM_eq_ok.mp (hpasses r hr).1 a ha)).2 hknown

end

/-- What is known of an application that has started. -/
structure Application.Wired (app : Application) : Prop where
  runner : app.processor.hasTaskRunner = true
  names : app.processor.pluginNames = app.dispatcher.pluginNames
  hash : ∃ configHash : String, configHash.length ≤ 128 ∧
    app.processor.configHash = some configHash ∧ app.dispatcher.configHash = some configHash
  entries : app.dispatcher.pluginNames = app.pluginRegistry.names
  actions : app.dispatcher.pluginNames ≠ [] → ∀ rules, app.processor.ruleEngine = some rules →
    ∀ c ∈ rules, ∀ pluginName ∈ c.definition.val.actions.map fun a => a.val.plugin,
      pluginName ∈ app.dispatcher.pluginNames

theorem Deployment.pluginRegistry_hash {d : Deployment} {r : PluginRegistry}
    (h : d.pluginRegistry = .ok r) : r.configHash.length ≤ 128 := by
  unfold Deployment.pluginRegistry at h
  split at h
  · cases h
    decide
  · rename_i configHash data _
    rw [(loadPluginRegistry_eq_ok h).2.1, configHash.property.1]
    omega

theorem Deployment.lifespan_wired {d : Deployment} {app : Application} (h : d.lifespan = .ok app) :
    app.Wired := by
  obtain ⟨registry, hregistry, h⟩ := bind_eq_ok.mp h
  obtain ⟨rulesConfig, -, h⟩ := bind_eq_ok.mp h
  obtain ⟨topology, -, h⟩ := bind_eq_ok.mp h
  obtain ⟨processor, hprocessor, h⟩ := bind_eq_ok.mp h
  obtain ⟨enricher, -, hprocessor⟩ := bind_eq_ok.mp (liftError_eq_ok.mp hprocessor)
  obtain ⟨rules, hrules, hprocessor⟩ := bind_eq_ok.mp hprocessor
  cases hprocessor
  cases h
  refine ⟨rfl, rfl, ⟨_, d.pluginRegistry_hash (liftError_eq_ok.mp hregistry), rfl, rfl⟩, rfl, ?_⟩
  intro hne engine hengine c hc pluginName hname
  obtain ⟨config, rfl, rfl⟩ := Option.map_eq_some_iff.mp hengine
  unfold Deployment.loadRules at hrules
  split at hrules
  · cases hrules
  · obtain ⟨config', hload, heq⟩ := map_eq_ok.mp hrules
    obtain rfl := Option.some.inj heq
    exact loadRulesConfig_known hload hne hc hname

end Correlia
