import Correlia.Persistence.Context

/-!
# Persistence.Incidents — recording problems and deliveries (`app/persistence/incidents.py`)

A call is a function of the table as its transaction finds it, of `func.now()` and, for an insert,
of `uuid4()`.
-/

namespace Correlia

open Lib

/-- The largest number of elements of a `jsonb` array. -/
def jsonbArrayMax : ℕ := 268435455

/-- One more than the largest `integer`. -/
def int4End : ℕ := 2147483648

/-- The window state as the value of a `jsonb` parameter. -/
def windowStateParam (w : WindowStateJson) : Except OpError WindowStateJson :=
  if w.val.activeObjects.length ≤ jsonbArrayMax then .ok w
  else .error (.database "number of jsonb array elements exceeds the maximum allowed")

@[simp] theorem windowStateParam_eq_ok {w w' : WindowStateJson} :
    windowStateParam w = .ok w' ↔ w.val.activeObjects.length ≤ jsonbArrayMax ∧ w' = w := by
  unfold windowStateParam
  split_ifs with h <;> simp [h, eq_comm]

/-- `_max_severity`, by `_severity_rank`. -/
def maxSeverity (existing incoming : Severity) : Severity :=
  if existing.rank < incoming.rank then incoming else existing

inductive IncidentEffect
  | inserted | updated
deriving DecidableEq

structure IncidentAggregationWriteResult where
  incident : Incident
  effect : IncidentEffect
  replay : Bool
  insideWindow : Bool
  counted : Bool
  thresholdCount : ℕ
  windowStartedAt : Datetime
  windowEndedAt : Datetime
  windowCrossed : Bool
  thresholdCrossed : Bool
  firstThresholdTransition : Bool
  countedCount : ℕ
  countedFingerprints : List String

/-- `state.counted_count >= state.threshold_count`. -/
def WindowFields.crossed {T : Type} (w : WindowFields T) : Bool := decide (w.thresholdCount ≤ w.countedCount)

/-- The row `_insert_problem_incident` inserts. -/
def freshIncident (now : Timestamptz) (id : UUID) (i : IncidentUpsertInput)
    (eventTime : Timestamptz) (state : IncidentWindowState) : Incident :=
  let affected := affectedSetsFromObjects state.val.activeObjects
  { id, ruleName := i.ruleName, groupKey := i.groupKey, status := .«open», severity := i.severity,
    summary := i.summary, eventCount := 1, affectedHosts := affected.1,
    affectedServices := affected.2, decisionContext := decisionContextDump i,
    windowState := state.dump,
    thresholdCrossed := decide (i.thresholdCount ≤ state.val.countedCount), notifiedAt := none,
    startTime := eventTime, lastUpdateTime := eventTime, acknowledgedAt := none,
    acknowledgedBy := none, resolvedAt := none, closedAt := none, createdAt := now,
    updatedAt := now }

/-- `_insert_problem_incident`: `none` when the open row of the key is there already. -/
def insertProblemIncident (now : Timestamptz) (id : UUID) (i : IncidentUpsertInput)
    (t : List Incident) : Except OpError (List Incident × Option Incident) := do
  let initialState ← initialWindowState i
  let eventTime ← orThrow .overflow i.eventTime.toTimestamptz
  let _ ← windowStateParam initialState.dump
  if t.any (Incident.isOpenFor i.key) then
    return (t, none)
  else if t.any fun r => decide (r.id = id) then
    throw .integrity
  else
    let row := freshIncident now id i eventTime initialState
    return (t ++ [row], some row)

/-- The values `record_problem_incident` updates an existing row with. -/
def mergedIncident (now : Timestamptz) (i : IncidentUpsertInput) (eventTime : Timestamptz)
    (w : WindowUpdate) (context : ContextData) (existing : Incident) : Incident :=
  let affected := affectedSetsFromObjects w.state.val.activeObjects
  { existing with
    eventCount := existing.eventCount + if w.counted then 1 else 0
    lastUpdateTime := max existing.lastUpdateTime eventTime
    severity := maxSeverity existing.severity i.severity
    summary := if w.counted then i.summary else existing.summary
    affectedHosts := affected.1
    affectedServices := affected.2
    decisionContext := context
    windowState := w.state.dump
    thresholdCrossed := existing.thresholdCrossed || w.state.val.crossed
    updatedAt := now }

def insertedResult (row : Incident) : IncidentAggregationWriteResult where
  incident := row
  effect := .inserted
  replay := false
  insideWindow := true
  counted := true
  thresholdCount := row.windowState.val.thresholdCount
  windowStartedAt := (windowStateFromJson row.windowState).val.windowStartedAt
  windowEndedAt := (windowStateFromJson row.windowState).val.windowEndedAt
  windowCrossed := row.windowState.val.crossed
  thresholdCrossed := row.thresholdCrossed
  firstThresholdTransition := row.thresholdCrossed
  countedCount := row.windowState.val.countedCount
  countedFingerprints := row.windowState.val.countedFingerprintTimestamps.keys

def updatedResult (existing updated : Incident) (w : WindowUpdate) :
    IncidentAggregationWriteResult where
  incident := updated
  effect := .updated
  replay := w.replay
  insideWindow := w.insideWindow
  counted := w.counted
  thresholdCount := w.state.val.thresholdCount
  windowStartedAt := w.state.val.windowStartedAt
  windowEndedAt := w.state.val.windowEndedAt
  windowCrossed := w.state.val.crossed
  thresholdCrossed := existing.thresholdCrossed || w.state.val.crossed
  firstThresholdTransition :=
    !existing.thresholdCrossed && (existing.thresholdCrossed || w.state.val.crossed)
  countedCount := w.state.val.countedCount
  countedFingerprints := w.state.val.countedFingerprintTimestamps.keys

/-- The update of `record_problem_incident` on the open row it has locked. -/
def mergeProblem (now : Timestamptz) (i : IncidentUpsertInput) (existing : Incident)
    (t : List Incident) : Except OpError (List Incident × IncidentAggregationWriteResult) := do
  let w ← nextWindowState existing i
  let context ← preserveNotificationDeliveryResults existing.decisionContext (decisionContextDump i)
  let eventTime ← orThrow .overflow i.eventTime.toTimestamptz
  let _ ← windowStateParam w.state.dump
  if int4End ≤ existing.eventCount + (if w.counted then 1 else 0) then
    throw (.database "integer out of range")
  let (t', updated) ← updateOne (fun r => decide (r.id = existing.id))
    (mergedIncident now i eventTime w context) t
  return (t', updatedResult existing updated w)

/-- `record_problem_incident`. -/
def recordProblemIncident (now : Timestamptz) (id : UUID) (i : IncidentUpsertInput)
    (t : List Incident) : Except OpError (List Incident × IncidentAggregationWriteResult) := do
  let (t', inserted) ← insertProblemIncident now id i t
  match inserted with
  | some row => return (t', insertedResult row)
  | none =>
    let existing ← one (t'.filter (Incident.isOpenFor i.key))
    mergeProblem now i existing t'

/-- `record_notification_result`. -/
def recordNotificationResult (now : Timestamptz) (id : UUID) (pluginName : String)
    (result : NotificationResult) (t : List Incident) : Except OpError (List Incident × Bool) :=
  match t.filter fun r => decide (r.id = id) with
  | [] => .ok (t, false)
  | [incident] => do
    let context ← validatedNotificationContext incident.decisionContext pluginName result
    let values (r : Incident) : Incident := { r with
      decisionContext := context
      updatedAt := now
      notifiedAt := if result.success then some now else r.notifiedAt }
    return (updateWhere (fun r => decide (r.id = id)) values t, true)
  | _ => .error .multipleResultsFound

end Correlia
