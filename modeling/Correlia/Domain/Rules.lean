import Correlia.Domain.Incidents

/-!
# Domain.Rules — rule definitions and the decisions they lead to (`app/domain/rules.py`)
-/

namespace Correlia

open Lib

/-- `BoundedString`. -/
def boundedErrors (loc s : String) : List FieldError := strErrors 1 256 loc s

@[simp] theorem boundedErrors_eq_nil {loc s : String} :
    boundedErrors loc s = [] ↔ 1 ≤ s.length ∧ s.length ≤ 256 := strErrors_eq_nil

structure MatchFields where
  severities : List Severity
  hostPattern : String
  servicePattern : Option String
  tags : Items String String

def MatchFields.errors (m : MatchFields) : List FieldError :=
  boundedErrors "host_pattern" m.hostPattern ++
  optErrors (boundedErrors "service_pattern") m.servicePattern ++
  itemErrors (fun e => tagKeyErrors "tags" e.1 ++ tagValueErrors "tags" e.2) m.tags.entries

abbrev MatchCriteria := Checked MatchFields.errors

structure ActionFields where
  name : String
  plugin : String

def ActionFields.errors (a : ActionFields) : List FieldError :=
  boundedErrors "name" a.name ++ boundedErrors "plugin" a.plugin

abbrev RuleAction := Checked ActionFields.errors

structure WindowRule where
  durationSeconds : ℤ
  groupBy : List String
  triggerThreshold : ℤ

/-- `Field(ge=1, le=MAX_WINDOW_FINGERPRINTS)`. -/
def thresholdErrors (n : ℤ) : List FieldError :=
  thenErrors (check (decide (1 ≤ n)) "trigger_threshold" .greaterThanEqual)
    (check (decide (n ≤ maxWindowFingerprints)) "trigger_threshold" .lessThanEqual)

def WindowRule.errors (w : WindowRule) : List FieldError :=
  check (decide (1 ≤ w.durationSeconds)) "duration_seconds" .greaterThanEqual ++
  thenErrors (itemErrors (boundedErrors "group_by") w.groupBy)
    (check (decide (1 ≤ w.groupBy.length)) "group_by" .tooShort) ++
  thresholdErrors w.triggerThreshold

abbrev RuleWindow := Checked WindowRule.errors

structure RuleFields where
  name : String
  priority : ℤ
  «match» : MatchCriteria
  window : RuleWindow
  outputSummary : String
  actions : List RuleAction

/-- The field `actions`, then `_actions_are_unique_plugins`. -/
def actionsErrors (plugins : List String) : List FieldError :=
  thenErrors (check (decide (1 ≤ plugins.length)) "actions" .tooShort)
    (thenErrors (check (decide (plugins.length ≤ 20)) "actions" .tooLong)
      (check (decide plugins.Nodup) "actions" (.valueError "actions must reference unique plugins")))

def RuleFields.errors (r : RuleFields) : List FieldError :=
  boundedErrors "name" r.name ++ boundedErrors "output_summary" r.outputSummary ++
    actionsErrors (r.actions.map fun a => a.val.plugin)

abbrev RuleDefinition := Checked RuleFields.errors

/-! ### Decisions -/

structure MatchDecision where
  ruleName : String
  priority : ℤ
  matchedRules : List String
  groupKey : String
  window : RuleWindow
  summary : String
  actions : List String

def MatchDecision.errors (m : MatchDecision) : List FieldError :=
  boundedErrors "rule_name" m.ruleName ++ itemErrors (boundedErrors "matched_rules") m.matchedRules ++
    boundedErrors "group_key" m.groupKey ++ boundedErrors "summary" m.summary ++
    itemErrors (boundedErrors "actions") m.actions

/-- `RuleMatch`: the threshold outcome comes from aggregation. -/
abbrev RuleMatch := Checked MatchDecision.errors

structure NoOpFields where
  matchedRules : List String := []
  reason : String

def NoOpFields.errors (n : NoOpFields) : List FieldError :=
  itemErrors (boundedErrors "matched_rules") n.matchedRules ++
    check (decide (1 ≤ n.reason.length)) "reason" .stringTooShort

abbrev NoOpDecision := Checked NoOpFields.errors

structure ThresholdFields where
  ruleName : String
  groupKey : String
  windowStart : Datetime
  windowEnd : Datetime
  threshold : ℕ
  countedFingerprints : List String
  counted : ℕ
  crossed : Bool
  replayOrSkipReasons : List String

def ThresholdFields.errors (t : ThresholdFields) : List FieldError :=
  boundedErrors "rule_name" t.ruleName ++ boundedErrors "group_key" t.groupKey ++
    check (decide (1 ≤ t.threshold)) "threshold" .greaterThanEqual ++
    itemErrors (boundedErrors "counted_fingerprints") t.countedFingerprints

abbrev ThresholdDecision := Checked ThresholdFields.errors

end Correlia
