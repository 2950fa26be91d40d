import Correlia.Domain.Rules

/-!
# Config.Rules — loading the rules file (`app/config/rules.py`)

The YAML document is given as the values of its fields, `re.compile` as a function that returns the
`match` test of a pattern or refuses it, and the digest of the dumped document as a value.
-/

namespace Correlia

open Lib

/-- `re.compile`: the test of `pattern.match`, or `none` for `re.error`. -/
abbrev RegexCompiler := String → Option (String → Bool)

/-! ### The document -/

structure MatchConfig where
  severities : List String
  hostPattern : String
  servicePattern : Option String := none
  tags : Items String String := ⟨[], List.nodup_nil⟩

/-- `{e.value for e in Severity}`. -/
def severityValues : List String := ["OK", "WARNING", "UNKNOWN", "CRITICAL"]

/-- `Severity(value)`. -/
def Severity.ofValue : String → Option Severity
  | "OK" => some .ok
  | "WARNING" => some .warning
  | "UNKNOWN" => some .unknown
  | "CRITICAL" => some .critical
  | _ => none

/-- `_validate_severities`. -/
def severitiesErrors (values : List String) : List FieldError :=
  match values.find? fun s => decide (s ∉ severityValues) with
  | none => []
  | some s => [⟨"severities", .valueError ("invalid severity: " ++ s)⟩]

def MatchConfig.errors (m : MatchConfig) : List FieldError :=
  severitiesErrors m.severities ++
    check (decide (1 ≤ m.hostPattern.length)) "host_pattern" .stringTooShort

/-- `RuleActionConfig`. -/
def actionConfigErrors (a : ActionFields) : List FieldError :=
  check (decide (1 ≤ a.name.length)) "name" .stringTooShort ++
    check (decide (1 ≤ a.plugin.length)) "plugin" .stringTooShort

/-- `RuleWindowConfig`: the group-by fields are not bounded yet. -/
def windowConfigErrors (w : WindowRule) : List FieldError :=
  check (decide (1 ≤ w.durationSeconds)) "duration_seconds" .greaterThanEqual ++
  check (decide (1 ≤ w.groupBy.length)) "group_by" .tooShort ++
  thresholdErrors w.triggerThreshold

structure RuleDefinitionConfig where
  name : String
  priority : ℤ
  «match» : MatchConfig
  window : WindowRule
  outputSummary : String
  actions : List ActionFields

def RuleDefinitionConfig.errors (r : RuleDefinitionConfig) : List FieldError :=
  check (decide (1 ≤ r.name.length)) "name" .stringTooShort ++
  r.match.errors ++
  windowConfigErrors r.window ++
  check (decide (1 ≤ r.outputSummary.length)) "output_summary" .stringTooShort ++
  thenErrors (itemErrors actionConfigErrors r.actions)
    (actionsErrors (r.actions.map fun a => a.plugin))

/-! ### Summary variables -/

def knownNormalizedFields : List String :=
  ["host", "service", "message", "severity", "event_type", "fingerprint", "source_id", "timestamp",
   "ip_address"]

/-- The texts between braces, in order: an opening brace and everything up to the next closing one.
The argument is what has been read since the opening brace, when inside. -/
def scanVariables : Option (List Char) → List Char → List (List Char)
  | _, [] => []
  | none, c :: cs => if c = '\x7b' then scanVariables (some []) cs else scanVariables none cs
  | some inner, c :: cs =>
    if c = '\x7d' then inner.reverse :: scanVariables none cs
    else scanVariables (some (c :: inner)) cs

/-- `[a-zA-Z0-9_.-]`. -/
def isVariableChar (c : Char) : Bool := isTagChar c || decide ('A' ≤ c ∧ c ≤ 'Z')

/-- A variable that `_validate_summary_variables` lets pass. -/
def summaryVariableOk (inner : List Char) : Bool :=
  !inner.isEmpty && inner.all isVariableChar &&
    (decide (String.ofList inner ∈ knownNormalizedFields) || matchesTagKey (String.ofList inner))

/-- `_validate_summary_variables`. -/
def validateSummaryVariables (summary : String) : Except InputError Unit :=
  match (scanVariables none summary.toList).find? fun inner => !summaryVariableOk inner with
  | none => .ok ()
  | some inner =>
    .error (.value ("unknown summary variable: " ++ "\x7b" ++ String.ofList inner ++ "\x7d"))

/-! ### Compiled rules -/

structure CompiledRule where
  definition : RuleDefinition
  hostPattern : String → Bool
  servicePattern : Option (String → Bool)

structure CompiledRuleConfig where
  rules : List CompiledRule
  configHash : HexDigest

/-- `re.compile(pattern)`, with the message of the `ValueError` it is turned into. -/
def compilePattern (compile : RegexCompiler) (rule field pattern : String) :
    Except InputError (String → Bool) :=
  orThrow (.value ("Invalid regex in rule '" ++ rule ++ "' " ++ field ++ ": " ++ pattern))
    (compile pattern)

/-- `_compile_rule_config`. -/
def compileRuleConfig (compile : RegexCompiler) (r : RuleDefinitionConfig) :
    Except InputError CompiledRule := do
  let hostPattern ← compilePattern compile r.name "host_pattern" r.match.hostPattern
  let servicePattern ← match r.match.servicePattern with
    | none => .ok none
    | some p => (compilePattern compile r.name "service_pattern" p).map some
  let severities ← r.match.severities.mapM fun s =>
    orThrow (.value (s ++ " is not a valid Severity")) (Severity.ofValue s)
  let criteria ← liftError (.validation "MatchCriteria") (modelValidate MatchFields.errors
    ⟨severities, r.match.hostPattern, r.match.servicePattern, r.match.tags⟩)
  let window ← liftError (.validation "RuleWindow") (modelValidate WindowRule.errors r.window)
  let actions ← r.actions.mapM fun a =>
    liftError (.validation "RuleAction") (modelValidate ActionFields.errors a)
  let definition ← liftError (.validation "RuleDefinition") (modelValidate RuleFields.errors
    ⟨r.name, r.priority, criteria, window, r.outputSummary, actions⟩)
  return ⟨definition, hostPattern, servicePattern⟩

/-! ### `load_rules_config` -/

/-- The two checks of an action; no known plugin means any plugin. -/
def checkAction (knownActions knownPlugins : List String) (rule : String) (a : ActionFields) :
    Except InputError Unit :=
  if a.name ∉ knownActions then
    .error (.value ("unknown action '" ++ a.name ++ "' in rule '" ++ rule ++ "'"))
  else if knownPlugins ≠ [] ∧ a.plugin ∉ knownPlugins then
    .error (.value ("unknown plugin '" ++ a.plugin ++ "' in rule '" ++ rule ++ "'"))
  else .ok ()

/-- The loop over the rules, with the priorities and names seen so far. -/
def checkRules (knownActions knownPlugins : List String) :
    (priorities : List ℤ) → (names : List String) → List RuleDefinitionConfig →
      Except InputError Unit
  | _, _, [] => .ok ()
  | priorities, names, r :: rest => do
    if r.priority ∈ priorities then
      throw (.value ("duplicate priority " ++ toString r.priority ++ " in rule '" ++ r.name ++ "'"))
    if r.name ∈ names then
      throw (.value ("duplicate name: " ++ r.name))
    r.actions.forM (checkAction knownActions knownPlugins r.name)
    validateSummaryVariables r.outputSummary
    checkRules knownActions knownPlugins (r.priority :: priorities) (r.name :: names) rest

/-- `load_rules_config`; an empty document is `none`. -/
def loadRulesConfig (compile : RegexCompiler) (configHash : HexDigest)
    (knownActions knownPlugins : List String) (data : Option (List RuleDefinitionConfig)) :
    Except InputError CompiledRuleConfig := do
  let config ← liftError (.validation "RuleConfig")
    (modelValidate (itemErrors RuleDefinitionConfig.errors) (data.getD []))
  checkRules knownActions knownPlugins [] [] config.val
  let rules ← config.val.mapM (compileRuleConfig compile)
  return ⟨rules, configHash⟩

end Correlia
