import Correlia.Config.Rules
import Correlia.Lib.Yaml

/-!
# Config.RulesDocument — the shape of a rules file (`app/config/rules.py`)

`RuleConfig.model_validate` first reads the document into the fields of the model, strictly; the
bounds of the fields are checked by `loadRulesConfig`.  Which fields have a wrong type is left out.
-/

namespace Correlia

open Lib

/-- An optional text: absent, null or a string. -/
def optionalString : Option Yaml → Option (Option String)
  | none | some .null => some none
  | some v => v.string?.map some

/-- `MatchCriteriaConfig`. -/
def readMatch (v : Yaml) : Option MatchConfig := do
  let d ← v.fields? ["severities", "host_pattern", "service_pattern", "tags"]
  let severities ← (getKey "severities" d).bind (Yaml.list? Yaml.string?)
  let hostPattern ← (getKey "host_pattern" d).bind Yaml.string?
  let servicePattern ← optionalString (getKey "service_pattern" d)
  let tags ← ((getKey "tags" d).getD (.map [])).stringDict?
  return { severities, hostPattern, servicePattern, tags }

/-- `RuleWindowConfig`. -/
def readWindow (v : Yaml) : Option WindowRule := do
  let d ← v.fields? ["duration_seconds", "group_by", "trigger_threshold"]
  let durationSeconds ← (getKey "duration_seconds" d).bind Yaml.int?
  let groupBy ← (getKey "group_by" d).bind (Yaml.list? Yaml.string?)
  let triggerThreshold ← (getKey "trigger_threshold" d).bind Yaml.int?
  return { durationSeconds, groupBy, triggerThreshold }

/-- `RuleActionConfig`. -/
def readAction (v : Yaml) : Option ActionFields := do
  let d ← v.fields? ["name", "plugin"]
  let name ← (getKey "name" d).bind Yaml.string?
  let plugin ← (getKey "plugin" d).bind Yaml.string?
  return { name, plugin }

/-- `RuleDefinitionConfig`. -/
def readRule (v : Yaml) : Option RuleDefinitionConfig := do
  let d ← v.fields? ["name", "priority", "match", "window", "output_summary", "actions"]
  let name ← (getKey "name" d).bind Yaml.string?
  let priority ← (getKey "priority" d).bind Yaml.int?
  let «match» ← (getKey "match" d).bind readMatch
  let window ← (getKey "window" d).bind readWindow
  let outputSummary ← (getKey "output_summary" d).bind Yaml.string?
  let actions ← (getKey "actions" d).bind (Yaml.list? readAction)
  return { name, priority, «match», window, outputSummary, actions }

/-- `load_rules_config` of the file with these rules. -/
def loadRulesFile (compile : RegexCompiler) (configHash : HexDigest)
    (knownActions knownPlugins : List String) (rules : List Yaml) :
    Except InputError CompiledRuleConfig :=
  match rules.mapM readRule with
  | none => .error (.validation "RuleConfig" [])
  | some definitions =>
    loadRulesConfig compile configHash knownActions knownPlugins (some definitions)

end Correlia
