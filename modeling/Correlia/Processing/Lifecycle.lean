import Correlia.Persistence.Lifecycle

/-!
# Processing.Lifecycle — recovery events (`app/processing/lifecycle.py`)
-/

namespace Correlia

open Lib

structure LifecycleResult where
  incidentIds : List UUID
  effect : LifecycleEffect
  transitionedTo : Option IncidentStatus
  previousHostCount : ℕ
  previousServiceCount : ℕ
  affectedObjectRemoved : Bool

/-- `_empty_result`. -/
def emptyResult : LifecycleResult := ⟨[], .noop, none, 0, 0, false⟩

/-- `_result_from_writes`. -/
def resultFromWrites (writes : List LifecycleWriteResult) : LifecycleResult :=
  match writes with
  | [] => emptyResult
  | first :: _ =>
    let resolved := writes.filter fun w => decide (w.effect = .resolved)
    let shrunk := writes.filter fun w => decide (w.effect = .affectedSetShrunk)
    let outcome : LifecycleEffect × Option IncidentStatus :=
      match resolved with
      | r :: _ => (.resolved, r.transitionedTo)
      | [] => if shrunk ≠ [] then (.affectedSetShrunk, none)
        else (first.effect, first.transitionedTo)
    { incidentIds := writes.map fun w => w.incident.id
      effect := outcome.1
      transitionedTo := outcome.2
      previousHostCount := (writes.map fun w => w.previousHostCount).sum
      previousServiceCount := (writes.map fun w => w.previousServiceCount).sum
      affectedObjectRemoved := writes.any fun w => w.affectedObjectRemoved }

/-- What `resolve_for_event` passes on of a recovery event. -/
def recoveryArgs (event : NormalizedEvent) : RecoveryArgs where
  host := event.val.host
  recoveryTime := event.val.timestamp
  fingerprint := event.val.fingerprint
  sourceId := event.val.sourceId

/-- The writes of `resolve_for_event`: a service recovery when the event names a service. -/
def recoveryWrites (now : Timestamptz) (event : NormalizedEvent) (t : List Incident) :
    Except OpError (List Incident × List LifecycleWriteResult) :=
  match event.val.service with
  | some service => resolveServiceRecovery now (recoveryArgs event) service t
  | none => resolveHostRecovery now (recoveryArgs event) t

/-- `resolve_for_event`. -/
def resolveForEvent (now : Timestamptz) (event : NormalizedEvent) (t : List Incident) :
    Except OpError (List Incident × LifecycleResult) := do
  if event.val.eventType ≠ .recovery then
    throw (.value "LifecycleManager.resolve_for_event only accepts RECOVERY events")
  let (t', writes) ← recoveryWrites now event t
  return (t', resultFromWrites writes)

end Correlia
