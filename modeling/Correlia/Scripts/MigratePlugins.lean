import Correlia.Scripts.MigrateVigiloConfig

/-!
# Scripts.MigratePlugins — translating the output plugins
(`scripts/migrate_vigilo_config.py`)

Only email outputs are translated, without credentials and without placeholders.
-/

namespace Correlia

open Lib

/-! ### Placeholders -/

/-- `re.search` for the marker, characters other than a closing brace, and a closing brace. -/
def hasBraced (marker : List Char) : List Char → Bool
  | [] => false
  | c :: cs =>
    (marker.isPrefixOf (c :: cs) && decide ('\x7d' ∈ (c :: cs).drop marker.length)) ||
      hasBraced marker cs

/-- `_ENV_VAR_PLACEHOLDER_RE.search` -/
def hasEnvVarPlaceholder (value : String) : Bool := hasBraced "$\x7b".toList value.toList

/-- `_ENV_KEY_PLACEHOLDER_RE.search` -/
def hasEnvKeyPlaceholder (value : String) : Bool := hasBraced "\x7benv:".toList value.toList

mutual

/-- `_iter_unsupported_placeholders`: locations and descriptions. -/
def unsupportedPlaceholders (location : String) : Yaml → List (String × String)
  | .str value =>
    if hasEnvVarPlaceholder value then
      [(location, "unsupported $\x7b...\x7d placeholder in value '" ++ value ++ "'")]
    else if hasEnvKeyPlaceholder value then
      [(location, "unsupported \x7benv: ...\x7d placeholder in value '" ++ value ++ "'")]
    else []
  | .map entries =>
    if (getKey "env" entries).isSome then
      [(location ++ ".env", "unsupported \x7benv: ...\x7d placeholder")]
    else placeholdersOfEntries location entries
  | .seq items => placeholdersOfItems location 0 items
  | _ => []

def placeholdersOfEntries (location : String) : List (YamlKey × Yaml) → List (String × String)
  | [] => []
  | (key, value) :: entries =>
    unsupportedPlaceholders (location ++ "." ++ key.text) value ++
      placeholdersOfEntries location entries

def placeholdersOfItems (location : String) : ℕ → List Yaml → List (String × String)
  | _, [] => []
  | idx, item :: items =>
    unsupportedPlaceholders (location ++ "[" ++ natText idx ++ "]") item ++
      placeholdersOfItems location (idx + 1) items

end

/-- The issues of a value's placeholders. -/
def placeholderIssues (location : String) (value : Yaml) : List MigrationIssue :=
  (unsupportedPlaceholders location value).map fun p =>
    sourceIssue "plugins" p.1 "unsupported_plugin_option" p.2

/-! ### The preflight -/

def allowedEmailConfigKeys : List String :=
  ["smtp_host", "smtp_port", "from_address", "to_addresses", "subject_prefix", "use_tls"]

def outputSourceFields : List String := ["module", "class", "config"]

def credentialKeys : List String := ["smtp_username", "smtp_password", "username", "password"]

def emailModule : String := "app.plugins.outputs.email"

def emailSourceClass : String := "EmailPlugin"

def emailTargetClass : String := "app.plugins.outputs.email.SmtpOutputPlugin"

/-- A key as a value. -/
def keyValue : YamlKey → Yaml
  | .str s => .str s
  | .other text => .other text

def isBool : Yaml → Bool
  | .bool _ => true
  | _ => false

/-- One option of an email output. -/
def preflightOption (loc : String) (e : YamlKey × Yaml) : List MigrationIssue :=
  let location := loc ++ ".config." ++ e.1.text
  let unsupported := [sourceIssue "plugins" location "unsupported_plugin_option"
    ("unsupported email plugin option '" ++ e.1.text ++ "'")]
  match e.1 with
  | .other _ => unsupported
  | .str key =>
    if key ∈ credentialKeys then
      [sourceIssue "plugins" location "plaintext_smtp_credentials"
        ("plaintext SMTP credential key '" ++ key ++ "' is not allowed")]
    else if key ∉ allowedEmailConfigKeys then unsupported
    else if key = "use_tls" ∧ isBool e.2 = false then
      [sourceIssue "plugins" (loc ++ ".config.use_tls") "unsupported_plugin_option"
        "use_tls must be a boolean"]
    else placeholderIssues location e.2

/-- The checks of an output's module, class and options. -/
def preflightEmail (calls : MigrationCalls) (loc : String) (output : YamlMap) :
    List MigrationIssue :=
  let outputModule := (getKey "module" output).getD (.str "")
  let className := (getKey "class" output).getD (.str "")
  if outputModule.string? ≠ some emailModule then
    if outputModule.string?.any fun m => decide ("app.plugins.outputs.".toList <+: m.toList) then
      [sourceIssue "plugins" (loc ++ ".module") "unsupported_plugin_type"
        ("output type '" ++ pyStr calls outputModule ++
          "' is not supported; only email outputs are supported")]
    else
      [sourceIssue "plugins" (loc ++ ".module") "unsupported_plugin_class"
        ("source module '" ++ pyStr calls outputModule ++ "' cannot be mapped to " ++
          emailTargetClass)]
  else if className.string? ≠ some emailSourceClass then
    [sourceIssue "plugins" (loc ++ ".class") "unsupported_plugin_class"
      ("source class '" ++ pyStr calls className ++ "' cannot be mapped to " ++ emailTargetClass)]
  else
    match (getKey "config" output).getD (.map []) with
    | .map config => config.flatMap (preflightOption loc)
    | _ => [sourceIssue "plugins" (loc ++ ".config") "unsupported_plugin_option"
        "email output config must be a mapping"]

/-- The round of one output in `_preflight_plugins`. -/
def preflightOutput (calls : MigrationCalls) (e : YamlKey × Yaml) : List MigrationIssue :=
  let loc := "plugins.outputs." ++ e.1.text
  placeholderIssues loc (keyValue e.1) ++
  match e.2 with
  | .map output =>
    unknownSourceFieldIssues output outputSourceFields "plugins" loc ++
      preflightEmail calls loc output
  | _ => [sourceIssue "plugins" loc "unsupported_plugin_class" "output entry must be a mapping"]

/-- `_preflight_plugins`. -/
def preflightPlugins (calls : MigrationCalls) : Yaml → List MigrationIssue
  | .map raw =>
    (raw.filterMap fun e =>
      if e.1 = .str "outputs" then none
      else some (sourceIssue "plugins" ("plugins." ++ e.1.text) "unsupported_plugin_section"
        ("unsupported top-level plugin section '" ++ e.1.text ++ "'"))) ++
    match (getKey "outputs" raw).getD (.map []) with
    | .map outputs => outputs.flatMap (preflightOutput calls)
    | _ => [sourceIssue "plugins" "plugins.outputs" "unsupported_plugin_section"
        "plugins.outputs must be a mapping"]
  | _ => [sourceIssue "plugins" "plugins" "unsupported_plugin_section"
      "plugins configuration must be a mapping"]

/-! ### The transform -/

/-- The outputs that are mappings. -/
def outputMaps (outputs : YamlMap) : List (YamlKey × YamlMap) :=
  outputs.filterMap fun e =>
    match e.2 with
    | .map output => some (e.1, output)
    | _ => none

/-- `options` of an output. -/
def emailOptions (config : YamlMap) (startTls : Bool) : Yaml :=
  yamlMap ([("host", (getKey "smtp_host" config).getD (.str "localhost")),
    ("port", (getKey "smtp_port" config).getD (.int 587)),
    ("from_address", (getKey "from_address" config).getD (.str "correlia@localhost")),
    ("to_addresses", (getKey "to_addresses" config).getD (.seq [.str "ops@localhost"]))] ++
    (match getKey "subject_prefix" config with
      | some subjectPrefix => [("subject_prefix", subjectPrefix)]
      | none => []) ++
    [("start_tls", .bool startTls)])

/-- Whether an option would carry a placeholder into the generated file. -/
def carriesPlaceholder (e : YamlKey × Yaml) : Bool :=
  match e.1 with
  | .str key =>
    decide (key ∈ allowedEmailConfigKeys) &&
      !(unsupportedPlaceholders ("config." ++ key) e.2).isEmpty
  | .other _ => false

/-- The round of one output in `_transform_plugins`. -/
def transformOutput (e : YamlKey × YamlMap) : Except TransformError Yaml := do
  if !(unsupportedPlaceholders "name" (keyValue e.1)).isEmpty then
    throw (.valueError
      ("unsupported placeholder syntax in generated output name '" ++ e.1.text ++ "'"))
  let config ← match (getKey "config" e.2).getD (.map []) with
    | .map config => .ok config
    | _ => .error (.valueError ("plugins.outputs." ++ e.1.text ++ ".config must be a mapping"))
  if config.any carriesPlaceholder then
    throw (.valueError
      ("unsupported placeholder syntax in generated options for output '" ++ e.1.text ++ "'"))
  let startTls ← match getKey "use_tls" config with
    | none => .ok true
    | some (.bool useTls) => .ok useTls
    | some _ => .error (.valueError "use_tls must be a boolean")
  return yamlMap [("name", keyValue e.1), ("plugin_type", .str "email"),
    ("class_path", .str emailTargetClass), ("options", emailOptions config startTls)]

/-- `_transform_plugins`. -/
def transformPlugins (raw : YamlMap) : Except TransformError Yaml := do
  let outputs ← match (getKey "outputs" raw).getD (.map []) with
    | .map outputs => .ok outputs
    | _ => .error (.valueError "plugins.outputs must be a mapping")
  let generated ← (outputMaps outputs).mapM transformOutput
  return yamlMap [("outputs", .seq generated)]

/-! ### The actions of the rules -/

/-- `_extract_output_names`. -/
def extractOutputNames (raw : Yaml) : List YamlKey :=
  (outputMaps ((getKey "outputs" raw.entries).getD (.map [])).entries).map Prod.fst

/-- The round of one rule in `_check_action_plugins_exist`. -/
def checkActions (names : List YamlKey) (idx : ℕ) : Yaml → List MigrationIssue
  | .map rule =>
    match (getKey "actions" rule).getD (.seq []) with
    | .seq actions => (actions.mapIdx fun i action =>
        match action with
        | .str action => issueUnless (decide (.str action ∈ names)) "rules"
            ("rules[" ++ natText idx ++ "].actions[" ++ natText i ++ "]") "unknown_action_plugin"
            ("action plugin '" ++ action ++ "' is not defined in plugins.outputs")
        | _ => []).flatten
    | _ => []
  | _ => []

/-- `_check_action_plugins_exist`. -/
def checkActionPluginsExist (names : List YamlKey) : Yaml → List MigrationIssue
  | .seq rules => (rules.mapIdx (checkActions names)).flatten
  | _ => []

/-! ### `main` -/

/-- The source with the issues of its plugins, and the plugins file generated for it. -/
def documentSource (calls : MigrationCalls) (rules topology plugins generated : Yaml) :
    MigrationSource where
  rules := rules
  topology := topology
  pluginIssues := preflightPlugins calls plugins ++
    checkActionPluginsExist (extractOutputNames plugins)
      (unwrapDocument "rules" "rules" (.seq []) rules).1
  plugins := generated

/-- `main` on the three documents, up to `_finish`; the plugins are translated once there are no
issues. -/
def migrateDocuments (calls : MigrationCalls) (fails : PublishStep → Bool)
    (debris : Directory Yaml) (out : Option (Directory Yaml)) (rules topology plugins : Yaml) :
    Migrated :=
  let source := documentSource calls rules topology plugins
  if (sourceIssues calls (source .null)).isEmpty then
    match transformPlugins plugins.entries with
    | .ok generated => migrate calls fails debris out (source generated)
    | .error _ => ⟨[], none, out⟩
  else migrate calls fails debris out (source .null)

/-- The issues `_finish` is given; `stagedIssues` are what `_staged_validation_issues` makes of the
exception. -/
def finalIssues (stagedIssues : List MigrationIssue) (m : Migrated) : List MigrationIssue :=
  match m.failureCode with
  | some .stagedValidation => stagedIssues
  | some .promotionFailure => [⟨"promotion", "output", "promotion_failure",
      "generated config could not be promoted", "CFG-07"⟩]
  | _ => m.issues

/-- Where and when `_finish` reports: the clock, the report file, which is none of the generated
ones, and whether it can be written. -/
structure Reporting where
  now : Timestamptz
  reportPath : Option (Option (List UInt8))
  writes : Bool

/-- The end of a run of `main`: the output directory, and what `_finish` has left if no exception has
escaped. -/
structure MainRun where
  out : Option (Directory Yaml)
  finished : Option Finished

def MainRun.exitCode (r : MainRun) : Option ℕ := r.finished.map Finished.exitCode

/-- `main` on the three documents, to its end. -/
def mainOnDocuments (calls : MigrationCalls) (fails : PublishStep → Bool) (debris : Directory Yaml)
    (stagedIssues : List MigrationIssue) (reporting : Reporting) (outDir : String)
    (out : Option (Directory Yaml)) (rules topology plugins : Yaml) : MainRun :=
  let migrated := migrateDocuments calls fails debris out rules topology plugins
  ⟨migrated.out, migrated.failureCode.map fun code =>
    let ok := decide (code = .none)
    finish reporting.now reporting.reportPath reporting.writes ok
      (finalIssues stagedIssues migrated) (if ok then some outDir else none) code
      (if ok then 0 else 1)⟩

end Correlia
