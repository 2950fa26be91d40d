import Correlia.Persistence.Incidents

/-!
# Persistence.Lifecycle — recoveries, acknowledgement, closing, expiration
(`app/persistence/incidents.py`)

The rows a recovery selects come in no order in SQL; here they come in table order.
-/

namespace Correlia

open Lib

inductive LifecycleEffect
  | affectedSetShrunk | resolved | noop | acknowledged | closed | expired
deriving DecidableEq

structure LifecycleWriteResult where
  incident : Incident
  effect : LifecycleEffect
  transitionedTo : Option IncidentStatus
  previousHostCount : ℕ
  previousServiceCount : ℕ
  affectedObjectRemoved : Bool

/-! ### The containment filter -/

/-- A flat JSON object; a value is a string or null. -/
abbrev JsonObject := List (String × Option String)

/-- An incident object as it stands in `window_state["active_objects"]`. -/
def IncidentObject.dump (o : IncidentObject) : JsonObject :=
  [("host", some o.val.host), ("service", o.val.service)]

/-- `@>` on two flat objects: every pair of the right one is in the left one. -/
def objectContains (a b : JsonObject) : Bool := b.all fun e => decide (e ∈ a)

/-- `@>` on two arrays of flat objects: every right element is contained in a left one. -/
def arrayContains (a b : List JsonObject) : Bool := b.all fun y => a.any fun x => objectContains x y

/-- `Incident.window_state["active_objects"].contains(objs)`. -/
def activeObjectsContain (objs : List JsonObject) (r : Incident) : Bool :=
  arrayContains (r.windowState.val.activeObjects.map IncidentObject.dump) objs

/-! ### Recoveries -/

/-- `_window_state_with_active_objects`. -/
def windowStateWithActiveObjects (r : Incident) (objs : List IncidentObject) :
    WindowStateJson :=
  ((windowStateFromJson r.windowState).withActiveObjects (sortBy IncidentObject.sortKey objs)).dump

/-- The values `_shrink_affected_sets` writes. -/
def shrunkIncident (now : Timestamptz) (objs : List IncidentObject) (context : ContextData)
    (r : Incident) : Incident :=
  { r with
    affectedHosts := (affectedSetsFromObjects objs).1
    affectedServices := (affectedSetsFromObjects objs).2
    decisionContext := context
    windowState := windowStateWithActiveObjects r objs
    updatedAt := now }

/-- `_shrink_affected_sets`. -/
def shrinkAffectedSets (now : Timestamptz) (incident : Incident) (objs : List IncidentObject)
    (context : ContextData) (t : List Incident) : Except OpError (List Incident × Incident) :=
  let windowState := windowStateWithActiveObjects incident objs
  updateOne (openWithId incident.id)
    (fun r => { shrunkIncident now objs context r with windowState }) t

/-- The values `_resolve_to_resolved` writes. -/
def resolvedIncident (now : Timestamptz) (status : IncidentStatus) (context : ContextData)
    (r : Incident) : Incident :=
  { r with
    status
    affectedHosts := []
    affectedServices := []
    decisionContext := context
    windowState := windowStateWithActiveObjects r []
    resolvedAt := some now
    updatedAt := now }

/-- `_resolve_to_resolved`. -/
def resolveToResolved (now : Timestamptz) (incident : Incident) (context : ContextData)
    (t : List Incident) : Except OpError (List Incident × Incident) := do
  let windowState := windowStateWithActiveObjects incident []
  let target ← liftError .value (validateIncidentTransition .«open» .resolved)
  updateOne (openWithId incident.id)
    (fun r => { resolvedIncident now target context r with windowState }) t

/-- The rest of a recovery's iteration, once the remaining objects are known. -/
def applyRecovery (now : Timestamptz) (incident : Incident) (remaining : List IncidentObject)
    (a : LifecycleArgs) (t : List Incident) :
    Except OpError (List Incident × Option LifecycleWriteResult) := do
  let counts := activeObjectCounts incident.windowState.val.activeObjects
  let context ← lifecycleContext incident
    { a with previousHostCount := counts.1, previousServiceCount := counts.2 }
  if remaining = [] then
    let (t', updated) ← resolveToResolved now incident context t
    return (t', some ⟨updated, .resolved, some .resolved, counts.1, counts.2, true⟩)
  else
    let (t', updated) ← shrinkAffectedSets now incident remaining context t
    return (t', some ⟨updated, .affectedSetShrunk, none, counts.1, counts.2, true⟩)

/-- The arguments both recoveries are called with. -/
structure RecoveryArgs where
  host : String
  recoveryTime : Datetime
  fingerprint : String
  sourceId : String

/-- The notes of a recovery. -/
def RecoveryArgs.lifecycleArgs (a : RecoveryArgs) (service : Option String) : LifecycleArgs where
  reason := "source_recovery"
  fingerprint := some a.fingerprint
  sourceId := some a.sourceId
  host := some a.host
  service := service
  recoveryTime := some a.recoveryTime

/-- One iteration of `resolve_host_recovery`. -/
def hostRecoveryRow (now : Timestamptz) (a : RecoveryArgs) (incident : Incident)
    (t : List Incident) : Except OpError (List Incident × Option LifecycleWriteResult) :=
  let activeObjects := incident.windowState.val.activeObjects
  let remaining := activeObjects.filter fun o => decide (o.val.host ≠ a.host)
  if remaining.length = activeObjects.length then .ok (t, none)
  else applyRecovery now incident remaining (a.lifecycleArgs none) t

/-- `resolve_host_recovery`. -/
def resolveHostRecovery (now : Timestamptz) (a : RecoveryArgs) (t : List Incident) :
    Except OpError (List Incident × List LifecycleWriteResult) :=
  let candidates := t.filter fun r =>
    r.isOpen && activeObjectsContain [[("host", some a.host)]] r
  forEachRow (hostRecoveryRow now a) candidates t

/-- One iteration of `resolve_service_recovery`. -/
def serviceRecoveryRow (now : Timestamptz) (a : RecoveryArgs) (service : String)
    (incident : Incident) (t : List Incident) :
    Except OpError (List Incident × Option LifecycleWriteResult) := do
  let activeObjects := incident.windowState.val.activeObjects
  let recoveredObject ← IncidentObject.validate a.host (some service)
  if recoveredObject ∉ activeObjects then
    return (t, none)
  let remaining := activeObjects.filter fun o => decide (o ≠ recoveredObject)
  applyRecovery now incident remaining (a.lifecycleArgs (some service)) t

/-- `resolve_service_recovery`. -/
def resolveServiceRecovery (now : Timestamptz) (a : RecoveryArgs) (service : String)
    (t : List Incident) : Except OpError (List Incident × List LifecycleWriteResult) :=
  let candidates := t.filter fun r =>
    r.isOpen && activeObjectsContain [[("host", some a.host), ("service", some service)]] r
  forEachRow (serviceRecoveryRow now a service) candidates t

/-! ### Acknowledgement and closing -/

/-- `scalar_one_or_none()`. -/
def oneOrNone {α : Type} : List α → Except OpError (Option α)
  | [] => .ok none
  | [a] => .ok (some a)
  | _ => .error .multipleResultsFound

/-- The answer for an incident that is not open: the row as it is, or nothing. -/
def noopResult (id : UUID) (t : List Incident) : Except OpError (Option LifecycleWriteResult) := do
  let row ← oneOrNone (t.filter fun r => decide (r.id = id))
  return row.map fun r =>
    let counts := activeObjectCounts r.windowState.val.activeObjects
    ⟨r, .noop, none, counts.1, counts.2, false⟩

/-- An operator's texts as parameters of an update. -/
def textParams (texts : List String) : Except OpError Unit :=
  if texts.all isStorable then .ok ()
  else .error (.database "unsupported Unicode escape sequence")

/-- The values of an acknowledgement. -/
def acknowledgedIncident (now : Timestamptz) (operator : String) (context : ContextData)
    (r : Incident) : Incident :=
  { r with
    acknowledgedAt := some (r.acknowledgedAt.getD now)
    acknowledgedBy := some operator
    decisionContext := context
    updatedAt := now }

/-- `ack_open_incident`. -/
def ackOpenIncident (now : Timestamptz) (id : UUID) (operator : String) (t : List Incident) :
    Except OpError (List Incident × Option LifecycleWriteResult) := do
  match ← oneOrNone (t.filter (openWithId id)) with
  | none => return (t, ← noopResult id t)
  | some incident =>
    let counts := activeObjectCounts incident.windowState.val.activeObjects
    let context ← lifecycleContext incident
      { reason := "acknowledged", operator := some operator,
        previousHostCount := counts.1, previousServiceCount := counts.2 }
    textParams [operator]
    let (t', updated) ← updateOne (openWithId id) (acknowledgedIncident now operator context) t
    return (t', some ⟨updated, .acknowledged, none, counts.1, counts.2, false⟩)

/-- The values of a closing update. -/
def closedIncident (now : Timestamptz) (status : IncidentStatus) (context : ContextData)
    (r : Incident) : Incident :=
  { r with status, decisionContext := context, closedAt := some now, updatedAt := now }

/-- `close_open_incident`. -/
def closeOpenIncident (now : Timestamptz) (id : UUID) (operator reason : String)
    (t : List Incident) : Except OpError (List Incident × Option LifecycleWriteResult) := do
  match ← oneOrNone (t.filter (openWithId id)) with
  | none => return (t, ← noopResult id t)
  | some incident =>
    let counts := activeObjectCounts incident.windowState.val.activeObjects
    let context ← lifecycleContext incident
      { reason := "manual_close", operator := some operator, detail := some reason,
        previousHostCount := counts.1, previousServiceCount := counts.2 }
    let target ← liftError .value (validateIncidentTransition .«open» .closed)
    -- the notes hold both texts, cut to their length
    textParams [takeText noteTextMax operator, takeText noteTextMax reason]
    let (t', updated) ← updateOne (openWithId id) (closedIncident now target context) t
    return (t', some ⟨updated, .closed, some .closed, counts.1, counts.2, false⟩)

/-! ### Expiration -/

/-- `_stale_expiration_cutoff`. -/
def staleExpirationCutoff (r : Incident) : Instant :=
  r.lastUpdateTime.val + seconds r.windowState.val.windowSeconds

/-- The rows of the sweep: the cast of `window_seconds` to `integer` fails out of its range, and rows
that other transactions have locked are skipped (`FOR UPDATE SKIP LOCKED`). -/
def expirationCandidates (now : Timestamptz) (locked : List UUID) (limit : ℕ) (t : List Incident) :
    Except OpError (List Incident) :=
  let openRows := t.filter Incident.isOpen
  if openRows.any fun r => decide (int4End ≤ r.windowState.val.windowSeconds) then
    .error (.database "value is out of range for type integer")
  else
    let stale := openRows.filter fun r => decide (staleExpirationCutoff r < now.val)
    .ok (((sortBy Incident.id stale).filter fun r => decide (r.id ∉ locked)).take limit)

/-- The notes of an expiration. -/
def expirationArgs (now : Timestamptz) (incident : Incident) : LifecycleArgs where
  reason := "expired"
  ruleName := some incident.ruleName
  windowSeconds := some incident.windowState.val.windowSeconds
  lastUpdateTime := some incident.lastUpdateTime.toDatetime
  expirationTime := some now.toDatetime
  previousHostCount := (activeObjectCounts incident.windowState.val.activeObjects).1
  previousServiceCount := (activeObjectCounts incident.windowState.val.activeObjects).2

/-- One iteration of `expire_stale_incidents`. -/
def expireRow (now : Timestamptz) (incident : Incident) (t : List Incident) :
    Except OpError (List Incident × Option Incident) := do
  let context ← lifecycleContext incident (expirationArgs now incident)
  let target ← liftError .value (validateIncidentTransition .«open» .closed)
  let update := closedIncident now target context
  match ← oneOrNone (returning (openWithId incident.id) update t) with
  | none => return (t, none)
  | some updated => return (updateWhere (openWithId incident.id) update t, some updated)

/-- `expire_stale_incidents`. -/
def expireStaleIncidents (now : Timestamptz) (locked : List UUID) (limit : ℤ) (t : List Incident) :
    Except OpError (List Incident × List Incident) := do
  if limit < 1 then
    return (t, [])
  let candidates ← expirationCandidates now locked limit.toNat t
  forEachRow (expireRow now) candidates t

end Correlia
