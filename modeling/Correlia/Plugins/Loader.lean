import Correlia.Config.Plugins

/-!
# Plugins.Loader — loading output plugins (`app/plugins/loader.py`)

`importlib.import_module` with the class of a module, the class's constructor and the calls of
`plugin_status` are given; what is imported comes with every result, in order.
-/

namespace Correlia

open Lib

inductive PluginCategory
  | email | unknown
deriving DecidableEq

inductive PluginStartupFailureCode
  | registryEntry | moduleOrClass | interface | constructor | status
deriving DecidableEq

structure PluginStartupError where
  category : PluginCategory
  failureCode : PluginStartupFailureCode
  entryPosition : ℕ
deriving DecidableEq

structure PluginStatus where
  pluginType : BoundedString
  ready : Bool
  status : BoundedString

/-- A call of `plugin_status`; `none` if it raises or returns anything else. -/
abbrev StatusReport := Option PluginStatus

/-- An instance: whether it has the two methods, and what its first status is. -/
structure OutputPlugin where
  hasInterface : Bool
  status : StatusReport

/-- The constructor of a class of a module, unless there is no such class; a constructor may raise. -/
abbrev PluginModules :=
  (moduleName className : List Char) → Option (Items String OptionValue → Option OutputPlugin)

/-- What has been imported, and what came of it. -/
structure Loading (α : Type) where
  imports : List (List Char)
  result : Except PluginStartupError α

/-- `_plugin_category`. -/
def pluginCategory (e : PluginRegistryEntry) : PluginCategory :=
  if e.val.pluginType = "email" then .email else .unknown

theorem PluginRegistryEntry.category (e : PluginRegistryEntry) : pluginCategory e = .email := by
  have hvalid := e.valid
  simp only [PluginEntryFields.errors, List.append_eq_nil_iff, check_eq_nil, decide_eq_true_eq] at hvalid
  exact if_pos hvalid.1.1.2

/-- `_instantiate_plugin`. -/
def instantiatePlugin (modules : PluginModules) (e : PluginRegistryEntry) (position : ℕ) :
    Loading OutputPlugin :=
  let module := moduleName e.val.classPath
  let fail (code : PluginStartupFailureCode) : Except PluginStartupError OutputPlugin :=
    .error ⟨pluginCategory e, code, position⟩
  if ¬allowedClassPrefix <+: module then ⟨[], fail .moduleOrClass⟩
  else ⟨[module],
    match modules module (className e.val.classPath) with
    | none => fail .moduleOrClass
    | some construct =>
      match construct e.val.options with
      | none => fail .constructor
      | some plugin => if plugin.hasInterface then .ok plugin else fail .interface⟩

/-- The loop of `PluginRegistry.__init__`; the names of the entries are distinct. -/
def loadPlugins (modules : PluginModules) : (position : ℕ) → List PluginRegistryEntry →
    Loading (List (String × OutputPlugin))
  | _, [] => ⟨[], .ok []⟩
  | position, e :: rest =>
    let one := instantiatePlugin modules e position
    match one.result with
    | .error error => ⟨one.imports, .error error⟩
    | .ok plugin =>
      if plugin.status.isNone then
        ⟨one.imports, .error ⟨pluginCategory e, .status, position⟩⟩
      else
        let more := loadPlugins modules (position + 1) rest
        ⟨one.imports ++ more.imports, more.result.map ((e.val.name, plugin) :: ·)⟩

structure PluginRegistry where
  entries : List PluginRegistryEntry
  configHash : String
  plugins : List (String × OutputPlugin)

def PluginRegistry.empty : PluginRegistry := ⟨[], "", []⟩

/-- `load_plugin_registry`; `none` is a file that cannot be read as a document. -/
def loadPluginRegistry (modules : PluginModules) (configHash : HexDigest)
    (data : Option (Option (List PluginEntryFields))) : Loading PluginRegistry :=
  match data.bind fun document => (loadPluginRegistryConfig configHash document).toOption with
  | none => ⟨[], .error ⟨.unknown, .registryEntry, 0⟩⟩
  | some config =>
    let loaded := loadPlugins modules 1 config.outputs
    ⟨loaded.imports, loaded.result.map fun plugins => ⟨config.outputs, config.configHash.val, plugins⟩⟩

namespace PluginRegistry

/-- `names`. -/
def names (r : PluginRegistry) : List String := sortBy id (r.entries.map fun e => e.val.name)

inductive GetPluginError
  | unknown (name : String)
  | startup (e : PluginStartupError)

/-- `get_plugin`: what it imports, what it returns, and the registry after. -/
def getPlugin (modules : PluginModules) (r : PluginRegistry) (name : String) :
    List (List Char) × Except GetPluginError OutputPlugin × PluginRegistry :=
  match getItem name r.plugins with
  | some plugin => ([], .ok plugin, r)
  | none =>
    match (r.entries.zipIdx 1).find? fun e => decide (e.1.val.name = name) with
    | none => ([], .error (.unknown name), r)
    | some (e, position) =>
      let one := instantiatePlugin modules e position
      match one.result with
      | .error error => (one.imports, .error (.startup error), r)
      | .ok plugin => (one.imports, .ok plugin, { r with plugins := setItem name plugin r.plugins })

end PluginRegistry

/-! ### What loading comes to -/

/-- The first stage at which an entry fails, if it does. -/
def entryFailure (modules : PluginModules) (e : PluginRegistryEntry) :
    Option PluginStartupFailureCode :=
  match modules (moduleName e.val.classPath) (className e.val.classPath) with
  | none => some .moduleOrClass
  | some construct =>
    match construct e.val.options with
    | none => some .constructor
    | some plugin =>
      if ¬plugin.hasInterface then some .interface
      else if plugin.status.isNone then some .status
      else none

/-- The entry gives this plugin. -/
def Gives (modules : PluginModules) (e : PluginRegistryEntry) (p : String × OutputPlugin) : Prop :=
  p.1 = e.val.name ∧ p.2.hasInterface = true ∧ p.2.status.isSome = true ∧
    ∃ construct, modules (moduleName e.val.classPath) (className e.val.classPath) = some construct ∧
      construct e.val.options = some p.2

section

variable (modules : PluginModules) (e : PluginRegistryEntry) (entries : List PluginRegistryEntry)

/-- One entry at the head of the list: it is imported, and fails or gives its plugin. -/
theorem loadPlugins_cons (position : ℕ) : (∃ code, entryFailure modules e = some code ∧
      loadPlugins modules position (e :: entries) =
        ⟨[moduleName e.val.classPath], .error ⟨pluginCategory e, code, position⟩⟩) ∨
    ∃ plugin, entryFailure modules e = none ∧ Gives modules e (e.val.name, plugin) ∧
      loadPlugins modules position (e :: entries) =
        ⟨moduleName e.val.classPath :: (loadPlugins modules (position + 1) entries).imports,
          (loadPlugins modules (position + 1) entries).result.map ((e.val.name, plugin) :: ·)⟩ := by
  rw [loadPlugins]
  unfold instantiatePlugin entryFailure Gives
  simp only [e.module_trusted.1, not_true_eq_false, if_false]
  cases hmodule : modules (moduleName e.val.classPath) (className e.val.classPath) with
  | none => exact Or.inl ⟨_, rfl, rfl⟩
  | some construct =>
    dsimp only
    cases hconstruct : construct e.val.options with
    | none => exact Or.inl ⟨_, rfl, rfl⟩
    | some plugin =>
      dsimp only
      by_cases hinterface : plugin.hasInterface = true
      · rw [if_neg (not_not.mpr hinterface), if_pos hinterface]
        dsimp only
        by_cases hstatus : plugin.status.isNone = true
        · rw [if_pos hstatus, if_pos hstatus]
          exact Or.inl ⟨_, rfl, rfl⟩
        · rw [if_neg hstatus, if_neg hstatus]
          refine Or.inr ⟨plugin, rfl, ⟨trivial, hinterface, ?_, construct, rfl, hconstruct⟩, rfl⟩
          exact Option.isSome_iff_ne_none.mpr fun hnone => hstatus (Option.isNone_iff_eq_none.mpr hnone)
      · rw [if_pos hinterface, if_neg hinterface]
        exact Or.inl ⟨_, rfl, rfl⟩

/-- The modules of entries. -/
def entryModules (entries : List PluginRegistryEntry) : List (List Char) :=
  entries.map fun e => moduleName e.val.classPath

/-- **Loop**: every entry gives its plugin, or the first that fails ends the loop. -/
theorem loadPlugins_cases (position : ℕ) : (∃ plugins, List.Forall₂ (Gives modules) entries plugins ∧
      loadPlugins modules position entries = ⟨entryModules entries, .ok plugins⟩) ∨
    ∃ before e after code, entries = before ++ e :: after ∧
      (∀ e' ∈ before, entryFailure modules e' = none) ∧ entryFailure modules e = some code ∧
      loadPlugins modules position entries = ⟨entryModules (before ++ [e]),
        .error ⟨pluginCategory e, code, position + before.length⟩⟩ := by
  induction entries generalizing position with
  | nil => exact Or.inl ⟨[], .nil, rfl⟩
  | cons e entries ih =>
    rcases loadPlugins_cons modules e entries position with
      ⟨code, hfailure, hload⟩ | ⟨plugin, hnone, hgives, hload⟩
    · exact Or.inr ⟨[], e, entries, code, rfl, List.forall_mem_nil _, hfailure, hload⟩
    · rcases ih (position + 1) with ⟨plugins, hall, hrest⟩ | ⟨before, e', after, code, rfl, hbefore,
        hfailure, hrest⟩
      · refine Or.inl ⟨(e.val.name, plugin) :: plugins, .cons hgives hall, ?_⟩
        rw [hload, hrest]
        rfl
      · refine Or.inr ⟨e :: before, e', after, code, rfl, List.forall_mem_cons.mpr ⟨hnone, hbefore⟩,
          hfailure, ?_⟩
        rw [hload, hrest, List.length_cons, show position + 1 + before.length =
          position + (before.length + 1) by omega]
        rfl

variable {modules entries} in
theorem forall₂_gives_names {plugins : List (String × OutputPlugin)}
    (h : List.Forall₂ (Gives modules) entries plugins) :
    plugins.map Prod.fst = entries.map fun e => e.val.name := by
  induction h with
  | nil => rfl
  | cons hgives _ ih => rw [List.map_cons, List.map_cons, hgives.1, ih]

end

/-- A registry that was loaded: distinct names, and a plugin for each. -/
structure PluginRegistry.Loaded (modules : PluginModules) (r : PluginRegistry) : Prop where
  distinct : (r.entries.map fun e => e.val.name).Nodup
  plugins : List.Forall₂ (Gives modules) r.entries r.plugins

theorem PluginRegistry.mem_names {r : PluginRegistry} {name : String} :
    name ∈ r.names ↔ name ∈ r.entries.map fun e => e.val.name := mem_sortBy

/-- Every name has its plugin at hand: nothing is imported after the load. -/
theorem PluginRegistry.Loaded.getPlugin {modules : PluginModules} {r : PluginRegistry}
    (h : r.Loaded modules) (name : String) :
    (name ∈ r.names → ∃ e ∈ r.entries, ∃ plugin, e.val.name = name ∧ Gives modules e (name, plugin) ∧
      r.getPlugin modules name = ([], .ok plugin, r)) ∧
    (name ∉ r.names → r.getPlugin modules name = ([], .error (.unknown name), r)) := by
  have hkeys := forall₂_gives_names h.plugins
  constructor
  · intro hname
    rw [mem_names, ← hkeys] at hname
    obtain ⟨⟨_, plugin⟩, hmem, rfl⟩ := List.mem_map.mp hname
    obtain ⟨i, hi, hget⟩ := List.getElem_of_mem hmem
    have hi' : i < r.entries.length := by rw [h.plugins.length_eq]; exact hi
    have hgives := h.plugins.get hi' hi
    rw [List.get_eq_getElem, List.get_eq_getElem, hget] at hgives
    refine ⟨_, List.getElem_mem hi', plugin, hgives.1.symm, hgives, ?_⟩
    have hitem : getItem _ r.plugins = some plugin :=
      (getItem_eq_some (by rw [hkeys]; exact h.distinct)).mpr hmem
    unfold PluginRegistry.getPlugin
    rw [hitem]
  · intro hname
    rw [mem_names] at hname
    have hitem : getItem name r.plugins = none := getItem_eq_none.mpr (by rw [hkeys]; exact hname)
    have hfind : ((r.entries.zipIdx 1).find? fun e => decide (e.1.val.name = name)) = none := by
      rw [List.find?_eq_none]
      rintro ⟨e, position⟩ he heq
      refine hname (List.mem_map.mpr ⟨e, List.fst_mem_of_mem_zipIdx he, of_decide_eq_true heq⟩)
    unfold PluginRegistry.getPlugin
    rw [hitem]
    dsimp only
    rw [hfind]

theorem loadPluginRegistry_eq_ok {modules : PluginModules} {configHash : HexDigest}
    {data : Option (Option (List PluginEntryFields))} {r : PluginRegistry}
    (h : (loadPluginRegistry modules configHash data).result = .ok r) :
    r.Loaded modules ∧ r.configHash = configHash.val ∧
      (loadPluginRegistry modules configHash data).imports = entryModules r.entries ∧
      ∃ document, data = some document ∧ pluginConfigErrors (document.getD []) = [] ∧
        r.entries.map (fun e => e.val) = document.getD [] := by
  unfold loadPluginRegistry at h ⊢
  cases data with
  | none => cases h
  | some document =>
    rw [Option.bind_some] at h ⊢
    cases hconfig : loadPluginRegistryConfig configHash document with
    | error e =>
      rw [hconfig] at h
      cases h
    | ok config =>
      rw [hconfig] at h
      dsimp only [Except.toOption] at h ⊢
      obtain ⟨hvalid, houtputs, hhash⟩ := loadPluginRegistryConfig_eq_ok.mp hconfig
      have hnames := loadPluginRegistryConfig_names hconfig
      rcases loadPlugins_cases modules config.outputs 1 with
        ⟨plugins, hall, hload⟩ | ⟨_, _, _, _, -, -, -, hload⟩
      · rw [hload] at h ⊢
        cases h
        exact ⟨⟨hnames, hall⟩, congrArg Subtype.val hhash, rfl, document, rfl, hvalid, houtputs⟩
      · rw [hload] at h
        cases h

/-- **Loading**: whatever the document and whatever the modules do, only modules of the outputs
package are imported; a registry that loads has imported one for each entry, in order, and gives
every name its plugin and no other one, without importing anything more; and an error names the
first entry that fails and why, with nothing imported after it, or a document that is refused. -/
theorem plugin_loading (modules : PluginModules) (configHash : HexDigest)
    (data : Option (Option (List PluginEntryFields))) :
    (∀ module ∈ (loadPluginRegistry modules configHash data).imports,
      allowedClassPrefix <+: module) ∧
    (∀ r, (loadPluginRegistry modules configHash data).result = .ok r →
      (loadPluginRegistry modules configHash data).imports = entryModules r.entries ∧
      (r.entries.map fun e => e.val.name).Nodup ∧ ∀ name,
        (name ∈ r.names → ∃ e ∈ r.entries, ∃ plugin, e.val.name = name ∧
          Gives modules e (name, plugin) ∧ r.getPlugin modules name = ([], .ok plugin, r)) ∧
        (name ∉ r.names → r.getPlugin modules name = ([], .error (.unknown name), r))) ∧
    ∀ error, (loadPluginRegistry modules configHash data).result = .error error →
      (error = ⟨.unknown, .registryEntry, 0⟩ ∧
        (loadPluginRegistry modules configHash data).imports = [] ∧
        ∀ document, data = some document → pluginConfigErrors (document.getD []) ≠ []) ∨
      ∃ document before e after code, data = some document ∧
        document.getD [] = (before ++ e :: after).map (fun e : PluginRegistryEntry => e.val) ∧
        (∀ e' ∈ before, entryFailure modules e' = none) ∧ entryFailure modules e = some code ∧
        error = ⟨.email, code, before.length + 1⟩ ∧
        (loadPluginRegistry modules configHash data).imports = entryModules (before ++ [e]) := by
  have htrusted : ∀ entries : List PluginRegistryEntry, ∀ module ∈ entryModules entries,
      allowedClassPrefix <+: module := by
    intro entries module hmodule
    obtain ⟨e, -, rfl⟩ := List.mem_map.mp hmodule
    exact e.module_trusted.1
  have hok : ∀ r, (loadPluginRegistry modules configHash data).result = .ok r →
      (loadPluginRegistry modules configHash data).imports = entryModules r.entries ∧
      (r.entries.map fun e => e.val.name).Nodup ∧ ∀ name,
        (name ∈ r.names → ∃ e ∈ r.entries, ∃ plugin, e.val.name = name ∧
          Gives modules e (name, plugin) ∧ r.getPlugin modules name = ([], .ok plugin, r)) ∧
        (name ∉ r.names → r.getPlugin modules name = ([], .error (.unknown name), r)) := by
    intro r hr
    obtain ⟨hloaded, -, himports, -⟩ := loadPluginRegistry_eq_ok hr
    exact ⟨himports, hloaded.distinct, hloaded.getPlugin⟩
  have herror : ∀ error, (loadPluginRegistry modules configHash data).result = .error error →
      (error = ⟨.unknown, .registryEntry, 0⟩ ∧
        (loadPluginRegistry modules configHash data).imports = [] ∧
        ∀ document, data = some document → pluginConfigErrors (document.getD []) ≠ []) ∨
      ∃ document before e after code, data = some document ∧
        document.getD [] = (before ++ e :: after).map (fun e : PluginRegistryEntry => e.val) ∧
        (∀ e' ∈ before, entryFailure modules e' = none) ∧ entryFailure modules e = some code ∧
        error = ⟨.email, code, before.length + 1⟩ ∧
        (loadPluginRegistry modules configHash data).imports = entryModules (before ++ [e]) := by
    intro error h
    unfold loadPluginRegistry at h ⊢
    cases data with
    | none =>
      cases h
      exact Or.inl ⟨rfl, rfl, fun document hdocument => by cases hdocument⟩
    | some document =>
      rw [Option.bind_some] at h ⊢
      cases hconfig : loadPluginRegistryConfig configHash document with
      | error e =>
        rw [hconfig] at h
        cases h
        refine Or.inl ⟨rfl, rfl, fun document' hdocument hvalid => ?_⟩
        obtain rfl := Option.some.inj hdocument
        obtain ⟨outputs, houtputs⟩ := outputs_of_valid hvalid
        have hload : loadPluginRegistryConfig _ _ = .ok ⟨outputs, configHash⟩ :=
          loadPluginRegistryConfig_eq_ok.mpr ⟨hvalid, houtputs, rfl⟩
        rw [hload] at hconfig
        cases hconfig
      | ok config =>
        rw [hconfig] at h
        dsimp only [Except.toOption] at h ⊢
        obtain ⟨-, houtputs, -⟩ := loadPluginRegistryConfig_eq_ok.mp hconfig
        rcases loadPlugins_cases modules config.outputs 1 with
          ⟨plugins, -, hload⟩ | ⟨before, e, after, code, hsplit, hbefore, hfailure, hload⟩
        · rw [hload] at h
          cases h
        · rw [hload] at h ⊢
          cases h
          refine Or.inr ⟨document, before, e, after, code, rfl, ?_, hbefore, hfailure, ?_, rfl⟩
          · rw [← houtputs, hsplit]
          · rw [e.category, Nat.add_comm]
  refine ⟨fun module hmodule => ?_, hok, herror⟩
  cases hresult : (loadPluginRegistry modules configHash data).result with
  | ok r =>
    rw [(hok r hresult).1] at hmodule
    exact htrusted _ _ hmodule
  | error error =>
    rcases herror error hresult with ⟨-, himports, -⟩ | ⟨_, _, _, _, _, -, -, -, -, -, himports⟩
    · rw [himports] at hmodule
      cases hmodule
    · rw [himports] at hmodule
      exact htrusted _ _ hmodule

end Correlia
