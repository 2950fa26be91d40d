import Correlia.Domain.Rules
import Correlia.Persistence.Incidents

/-!
# Processing.IncidentManager — problem aggregation (`app/processing/incident_manager.py`)
-/

namespace Correlia

open Lib

inductive NoDispatchReason
  | belowThreshold | replay | alreadyNotified
deriving DecidableEq, Repr

def NoDispatchReason.value : NoDispatchReason → String
  | belowThreshold => "below_threshold"
  | replay => "replay"
  | alreadyNotified => "already_notified"

inductive NotificationIntent
  | dispatchPlanned | noDispatch
deriving DecidableEq, Repr

structure IncidentAggregationResult where
  incidentId : UUID
  effect : IncidentEffect
  status : IncidentStatus
  replay : Bool
  insideWindow : Bool
  counted : Bool
  countedCount : ℕ
  thresholdDecision : ThresholdDecision
  thresholdCrossed : Bool
  firstThresholdTransition : Bool
  notificationIntent : NotificationIntent
  noDispatchReason : Option NoDispatchReason

/-- `_no_dispatch_reason`. -/
def noDispatchReason (w : IncidentAggregationWriteResult) : Option NoDispatchReason :=
  if w.replay then some .replay
  else if w.firstThresholdTransition then none
  else if w.thresholdCrossed then some .alreadyNotified
  else some .belowThreshold

/-- The notes of `_decision_context`. -/
def dispatchNotes (event : NormalizedEvent) (reason : Option NoDispatchReason) :
    Dict JsonKey String :=
  let notes := (Dict.empty.insert ⟨"event.type"⟩ event.val.eventType.value).insert
    ⟨"event.severity"⟩ event.val.severity.value
  match reason with
  | none => notes
  | some r => notes.insert ⟨"dispatch.reason"⟩ r.value

/-- The delivery records of the written row, validated. -/
def storedDeliveries (w : IncidentAggregationWriteResult) :
    Except OpError (List NotificationDeliveryRecord) := do
  let c ← liftError (.validation "DecisionContext") (DecisionContext.modelValidate
    { notificationDeliveryResults :=
        some (w.incident.decisionContext.notificationDeliveryResults.getD []) })
  return c.val.notificationDeliveryResults

/-- `_decision_context`. -/
def decisionContext (configHash : Option String) (event : NormalizedEvent) (decision : RuleMatch)
    (writeResult : Option IncidentAggregationWriteResult) (reason : Option NoDispatchReason) :
    Except OpError DecisionContext := do
  let deliveries ← (writeResult.map storedDeliveries).getD (.ok [])
  liftError (.validation "DecisionContext") (modelValidate ContextFields.errors
    { fingerprint := some event.val.fingerprint
      sourceId := some event.val.sourceId
      ruleName := some decision.val.ruleName
      groupKey := some decision.val.groupKey
      matchedRuleNames := decision.val.matchedRules
      enrichmentRefs := []
      eventCount := writeResult.map fun w => w.incident.eventCount
      configHash := configHash
      notes := dispatchNotes event reason
      thresholdCount := some (match writeResult with
        | some w => w.thresholdCount
        | none => decision.val.window.val.triggerThreshold.toNat)
      countedCount := writeResult.map fun w => w.countedCount
      thresholdCrossed := writeResult.map fun w => w.thresholdCrossed
      firstThresholdTransition := writeResult.map fun w => w.firstThresholdTransition
      replay := writeResult.map fun w => w.replay
      actionNames := decision.val.actions
      notificationDeliveryResults := deliveries })

/-- The arguments of the upsert input `apply_problem` builds. -/
def upsertArgs (event : NormalizedEvent) (decision : RuleMatch) (context : DecisionContext) :
    UpsertArgs where
  ruleName := decision.val.ruleName
  groupKey := decision.val.groupKey
  severity := event.val.severity
  eventTime := event.val.timestamp
  summary := decision.val.summary
  affectedHosts := [event.val.host]
  affectedServices := event.val.service.toList
  decisionContext := some context
  fingerprint := some event.val.fingerprint
  thresholdCount := decision.val.window.val.triggerThreshold
  windowSeconds := decision.val.window.val.durationSeconds

/-- The upsert input of a problem: the preliminary context, then `__post_init__`. -/
def problemInput (configHash : Option String) (event : NormalizedEvent) (decision : RuleMatch) :
    Except OpError IncidentUpsertInput := do
  let preliminary ← decisionContext configHash event decision none none
  liftError .value (upsertArgs event decision preliminary).postInit

/-- `replay_or_skip_reasons`. -/
def replayOrSkipReasons (event : NormalizedEvent) (w : IncidentAggregationWriteResult) :
    List String :=
  (if w.replay then
    ["replay: fingerprint " ++ event.val.fingerprint ++ " already counted in window"]
  else []) ++
  if w.insideWindow then [] else ["outside window: event timestamp not counted"]

/-- The `ThresholdDecision` of a write. -/
def thresholdDecision (event : NormalizedEvent) (decision : RuleMatch)
    (w : IncidentAggregationWriteResult) : Except OpError ThresholdDecision :=
  liftError (.validation "ThresholdDecision") (modelValidate ThresholdFields.errors
    { ruleName := decision.val.ruleName
      groupKey := decision.val.groupKey
      windowStart := w.windowStartedAt
      windowEnd := w.windowEndedAt
      threshold := w.thresholdCount
      countedFingerprints := w.countedFingerprints
      counted := w.countedCount
      crossed := w.windowCrossed
      replayOrSkipReasons := replayOrSkipReasons event w })

/-- `apply_problem`: record the problem, then write the final decision context. -/
def applyProblem (now : Timestamptz) (id : UUID) (configHash : Option String)
    (event : NormalizedEvent) (decision : RuleMatch) (t : List Incident) :
    Except OpError (List Incident × IncidentAggregationResult) := do
  if event.val.eventType ≠ .problem then
    throw (.value "IncidentManager.apply_problem only accepts PROBLEM events")
  let input ← problemInput configHash event decision
  let (t', w) ← recordProblemIncident now id input t
  let threshold ← thresholdDecision event decision w
  let reason := noDispatchReason w
  let final ← decisionContext configHash event decision (some w) reason
  let t'' := updateWhere (fun r => decide (r.id = w.incident.id))
    (fun r => { r with decisionContext := final.val.dump }) t'
  return (t'',
    { incidentId := w.incident.id
      effect := w.effect
      status := w.incident.status
      replay := w.replay
      insideWindow := w.insideWindow
      counted := w.counted
      countedCount := w.countedCount
      thresholdDecision := threshold
      thresholdCrossed := w.thresholdCrossed
      firstThresholdTransition := w.firstThresholdTransition
      notificationIntent := if reason = none then .dispatchPlanned else .noDispatch
      noDispatchReason := reason })

end Correlia
