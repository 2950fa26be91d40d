import Correlia.Config.Rules

/-!
# Processing.RuleEngine — the first matching rule (`app/processing/rule_engine.py`)
-/

namespace Correlia

open Lib

inductive EngineDecision
  | ruleMatch (decision : RuleMatch)
  | noOp (decision : NoOpDecision)

/-- `_resolve_field`. -/
def resolveField (field : String) (event : EventData) : Option String :=
  if field = "host" then some event.host
  else if field = "service" then event.service
  else if field = "message" then some event.message
  else if field = "severity" then some event.severity.value
  else if field = "event_type" then some event.eventType.value
  else if field = "fingerprint" then some event.fingerprint
  else if field = "source_id" then some event.sourceId
  else if field = "timestamp" then some event.timestamp.isoformat
  else if field = "ip_address" then event.ipAddress
  else getItem field event.tags.entries

/-- `_matches_rule`. -/
def matchesRule (compiled : CompiledRule) (event : EventData) : Bool :=
  let rule := compiled.definition.val
  decide (event.severity ∈ rule.match.val.severities) &&
  compiled.hostPattern event.host &&
  (match compiled.servicePattern with
    | none => true
    | some pattern => event.service.any pattern) &&
  rule.match.val.tags.entries.all fun e => decide (getItem e.1 event.tags.entries = some e.2)

/-- `f"{field}={value}"` of every group-by field, or `none` when one is missing. -/
def groupSegments (fields : List String) (event : EventData) : Option (List String) :=
  fields.mapM fun field => (resolveField field event).map fun value => field ++ "=" ++ value

/-- `_build_group_key`. -/
def buildGroupKey (compiled : CompiledRule) (event : EventData) : Option String :=
  (groupSegments compiled.definition.val.window.val.groupBy event).map fun segments =>
    "|".intercalate segments

/-- `_find_missing_group_field`. -/
def findMissingGroupField (compiled : CompiledRule) (event : EventData) : String :=
  (compiled.definition.val.window.val.groupBy.find? fun field =>
    (resolveField field event).isNone).getD "unknown"

/-- The normalized fields, which override tags of the same name. -/
def normalizedFields (event : EventData) : List (String × Option String) :=
  [("host", some event.host), ("service", event.service), ("message", some event.message),
   ("severity", some event.severity.value), ("event_type", some event.eventType.value),
   ("fingerprint", some event.fingerprint), ("source_id", some event.sourceId),
   ("timestamp", some event.timestamp.isoformat), ("ip_address", event.ipAddress)]

/-- `context`: the tags in their order, updated with the normalized fields. -/
def summaryContext (event : EventData) : List (String × Option String) :=
  (normalizedFields event).foldl (fun context e => setItem e.1 e.2 context)
    (event.tags.entries.map fun e => (e.1, some e.2))

/-- `result.replace(f"{{{key}}}", str(value))`, unless the value is `None`. -/
def substituteVariable (result : String) (e : String × Option String) : String :=
  match e.2 with
  | none => result
  | some value => replaceText ("\x7b" ++ e.1 ++ "\x7d") value result

/-- `_render_summary`. -/
def renderSummary (template : String) (event : EventData) : String :=
  (summaryContext event).foldl substituteVariable template

/-- `sorted(rules, key=lambda r: r.definition.priority)`. -/
def sortedRules (rules : List CompiledRule) : List CompiledRule :=
  sortBy (fun r => r.definition.val.priority) rules

/-- The rule `evaluate` stops at. -/
def firstMatch (rules : List CompiledRule) (event : EventData) : Option CompiledRule :=
  (sortedRules rules).find? fun compiled => matchesRule compiled event

/-- `NoOpDecision(reason=...)`. -/
def NoOpDecision.ofReason (reason : String) : Except InputError EngineDecision := do
  let decision ← liftError (.validation "NoOpDecision") (modelValidate NoOpFields.errors
    { reason := reason })
  return .noOp decision

/-- The fields of the `RuleMatch` of a rule. -/
def matchDecision (rule : RuleFields) (event : EventData) (groupKey : String) : MatchDecision where
  ruleName := rule.name
  priority := rule.priority
  matchedRules := [rule.name]
  groupKey := groupKey
  window := rule.window
  summary := renderSummary rule.outputSummary event
  actions := rule.actions.map fun a => a.val.plugin

/-- The decision of the rule that matches. -/
def decideRule (compiled : CompiledRule) (event : EventData) : Except InputError EngineDecision := do
  match buildGroupKey compiled event with
  | none =>
    NoOpDecision.ofReason ("missing required group-by field: " ++
      findMissingGroupField compiled event)
  | some groupKey =>
    let decision ← liftError (.validation "RuleMatch") (modelValidate MatchDecision.errors
      (matchDecision compiled.definition.val event groupKey))
    return .ruleMatch decision

/-- `RuleEngine(rules).evaluate(event)`. -/
def evaluate (rules : List CompiledRule) (event : NormalizedEvent) :
    Except InputError EngineDecision :=
  if event.val.eventType = .recovery then
    NoOpDecision.ofReason "recovery events bypass rule aggregation"
  else
    match firstMatch rules event.val with
    | none => NoOpDecision.ofReason "no matching rule"
    | some compiled => decideRule compiled event.val

end Correlia
