import Correlia.Lib.Model
import Correlia.Lib.Sorted
import Correlia.Lib.Text

/-!
# Config.Plugins — loading the plugin registry file (`app/config/plugins.py`)

The YAML document is given as the values of its fields, and the digest of the dumped document as a
value.
-/

namespace Correlia

open Lib

/-- An option value: of one of the allowed types, a list, or anything else that YAML can say. -/
inductive OptionValue
  | scalar (literal : String)
  | list (items : List OptionValue)
  | other (literal : String)

def OptionValue.isScalar : OptionValue → Bool
  | scalar _ => true
  | _ => false

/-- The fields of a `PluginRegistryEntry`. -/
structure PluginEntryFields where
  name : String
  pluginType : String
  classPath : String
  options : Items String OptionValue := ⟨[], List.nodup_nil⟩

/-- `_ALLOWED_CLASS_PREFIX`, less its dot. -/
def outputsPackage : List Char := "app.plugins.outputs".toList

def allowedClassPrefix : List Char := outputsPackage ++ ['.']

/-- `value.rpartition(".")`. -/
def moduleName (classPath : String) : List Char := (rpartition '.' classPath.toList).1

def className (classPath : String) : List Char := (rpartition '.' classPath.toList).2

/-- `require_trusted_class_path`. -/
def classPathError (classPath : String) : Option String :=
  if ¬allowedClassPrefix <+: classPath.toList then
    some "plugin class_path must live under app.plugins.outputs"
  else if moduleName classPath = outputsPackage ∨ className classPath = [] then
    some "plugin class_path must include a module and class name"
  else none

/-- `_validate_option_value`. -/
def optionValueError (name : String) : OptionValue → Option String
  | .scalar _ => none
  | .list items =>
    if 100 < items.length then some ("plugin option '" ++ name ++ "' is too large")
    else if items.all OptionValue.isScalar then none
    else some ("plugin option '" ++ name ++ "' contains an unsupported value")
  | .other _ => some ("plugin option '" ++ name ++ "' contains an unsupported value")

/-- One round of `validate_options`. -/
def optionError (e : String × OptionValue) : Option String :=
  if e.1 = "" ∨ 64 < e.1.length ∨ "__".toList <+: e.1.toList then
    some "plugin option names must be bounded public strings"
  else optionValueError e.1 e.2

/-- The `ValueError` of a validator, at its field. -/
def validatorErrors (loc : String) : Option String → List FieldError
  | none => []
  | some message => [⟨loc, .valueError message⟩]

@[simp] theorem validatorErrors_eq_nil {loc : String} {o : Option String} :
    validatorErrors loc o = [] ↔ o = none := by
  cases o <;> simp [validatorErrors]

def PluginEntryFields.errors (e : PluginEntryFields) : List FieldError :=
  strErrors 1 64 "name" e.name ++
  check (decide (e.pluginType = "email")) "plugin_type" .literalError ++
  thenErrors (strErrors 1 256 "class_path" e.classPath)
    (validatorErrors "class_path" (classPathError e.classPath)) ++
  thenErrors (check (decide (e.options.entries.length ≤ 20)) "options" .tooLong)
    (validatorErrors "options" (e.options.entries.findSome? optionError))

abbrev PluginRegistryEntry := Checked PluginEntryFields.errors

/-- The loop of `reject_duplicate_names`, with the names seen so far. -/
def firstDuplicateName : (names : List String) → List String → Option String
  | _, [] => none
  | names, name :: rest =>
    if name ∈ names then some name else firstDuplicateName (name :: names) rest

/-- `PluginRegistryConfigFile`. -/
def pluginConfigErrors (outputs : List PluginEntryFields) : List FieldError :=
  thenErrors
    (itemErrors PluginEntryFields.errors outputs ++
      check (decide (outputs.length ≤ 100)) "outputs" .tooLong)
    (validatorErrors ""
      ((firstDuplicateName [] (outputs.map fun e => e.name)).map ("duplicate output plugin name: " ++ ·)))

structure CompiledPluginRegistryConfig where
  outputs : List PluginRegistryEntry
  configHash : HexDigest

/-- `load_plugin_registry_config`; an empty document is `none`. -/
def loadPluginRegistryConfig (configHash : HexDigest) (data : Option (List PluginEntryFields)) :
    Except InputError CompiledPluginRegistryConfig := do
  let config ← liftError (.validation "PluginRegistryConfigFile")
    (modelValidate pluginConfigErrors (data.getD []))
  let outputs ← liftError (.validation "PluginRegistryEntry")
    (config.val.mapM (modelValidate PluginEntryFields.errors))
  return ⟨outputs, configHash⟩

theorem firstDuplicateName_eq_none {names rest : List String} :
    firstDuplicateName names rest = none ↔ rest.Nodup ∧ ∀ name ∈ rest, name ∉ names := by
  induction rest generalizing names with
  | nil => simp [firstDuplicateName]
  | cons name rest ih =>
    unfold firstDuplicateName
    split_ifs with hseen
    · simp [hseen]
    · rw [ih, List.nodup_cons]
      constructor
      · rintro ⟨hnodup, hnew⟩
        refine ⟨⟨fun hmem => hnew name hmem List.mem_cons_self, hnodup⟩, ?_⟩
        refine List.forall_mem_cons.mpr ⟨hseen, fun other hother hin => ?_⟩
        exact hnew other hother (List.mem_cons_of_mem _ hin)
      · rintro ⟨⟨hnot, hnodup⟩, hnew⟩
        refine ⟨hnodup, fun other hother hin => ?_⟩
        rcases List.mem_cons.mp hin with rfl | hin
        · exact hnot hother
        · exact hnew other (List.mem_cons_of_mem _ hother) hin

theorem mapM_modelValidate {α : Type} {errors : α → List FieldError} {l : List α}
    {cs : List (Checked errors)} :
    l.mapM (modelValidate errors) = .ok cs ↔ cs.map (fun c => c.val) = l := by
  rw [mapM_eq_ok]
  constructor
  · intro h
    induction h with
    | nil => rfl
    | cons hhead _ ih => rw [List.map_cons, ih, modelValidate_eq_ok.mp hhead]
  · rintro rfl
    rw [List.forall₂_map_left_iff]
    exact List.forall₂_same.mpr fun c _ => modelValidate_eq_ok.mpr rfl

/-- The outputs of a loaded file are those of the document. -/
theorem loadPluginRegistryConfig_eq_ok {configHash : HexDigest}
    {data : Option (List PluginEntryFields)} {config : CompiledPluginRegistryConfig} :
    loadPluginRegistryConfig configHash data = .ok config ↔
      pluginConfigErrors (data.getD []) = [] ∧
      config.outputs.map (fun e => e.val) = data.getD [] ∧ config.configHash = configHash := by
  unfold loadPluginRegistryConfig
  simp only [bind_eq_ok, liftError_eq_ok, modelValidate_eq_ok, mapM_modelValidate]
  constructor
  · rintro ⟨c, hc, outputs, houtputs, heq⟩
    cases heq
    exact ⟨hc ▸ c.valid, houtputs.trans hc, rfl⟩
  · rintro ⟨hvalid, houtputs, rfl⟩
    exact ⟨⟨_, hvalid⟩, rfl, config.outputs, houtputs, rfl⟩

theorem loadPluginRegistryConfig_names {configHash : HexDigest}
    {data : Option (List PluginEntryFields)} {config : CompiledPluginRegistryConfig}
    (h : loadPluginRegistryConfig configHash data = .ok config) :
    (config.outputs.map fun e => e.val.name).Nodup := by
  obtain ⟨hvalid, houtputs, -⟩ := loadPluginRegistryConfig_eq_ok.mp h
  unfold pluginConfigErrors at hvalid
  rw [thenErrors_eq_nil, validatorErrors_eq_nil, Option.map_eq_none_iff, firstDuplicateName_eq_none,
    ← houtputs, List.map_map] at hvalid
  exact hvalid.2.1

/-- A valid document has outputs. -/
theorem outputs_of_valid {data : List PluginEntryFields} (h : pluginConfigErrors data = []) :
    ∃ outputs : List PluginRegistryEntry, outputs.map (fun e => e.val) = data := by
  unfold pluginConfigErrors at h
  rw [thenErrors_eq_nil, List.append_eq_nil_iff, itemErrors_eq_nil] at h
  have hentries : ∀ e ∈ data, PluginEntryFields.errors e = [] := h.1.1
  clear h
  induction data with
  | nil => exact ⟨[], rfl⟩
  | cons e data ih =>
    obtain ⟨he, hdata⟩ := List.forall_mem_cons.mp hentries
    obtain ⟨outputs, rfl⟩ := ih hdata
    exact ⟨⟨e, he⟩ :: outputs, rfl⟩

/-- Two checks agree: a class path that is accepted has its module under the outputs package. -/
theorem PluginRegistryEntry.module_trusted (e : PluginRegistryEntry) :
    allowedClassPrefix <+: moduleName e.val.classPath ∧ className e.val.classPath ≠ [] := by
  have hvalid := e.valid
  simp only [PluginEntryFields.errors, List.append_eq_nil_iff, thenErrors_eq_nil,
    validatorErrors_eq_nil] at hvalid
  have hpath := hvalid.1.2.2
  unfold classPathError at hpath
  split_ifs at hpath with hprefix hparts
  obtain ⟨hmodule, hclass⟩ := not_or.mp hparts
  exact ⟨prefix_rpartition hprefix hmodule, hclass⟩

end Correlia
