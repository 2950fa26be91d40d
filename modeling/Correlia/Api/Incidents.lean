import Correlia.Api.Responses
import Correlia.Service

/-!
# Api.Incidents — the routes on one incident (`app/api/routers/incidents.py`)

A request has passed the checks of its path and its model.  A route answers with the row it has read
or written, once its transaction has committed; the compatibility routes also count an outcome.
-/

namespace Correlia

open Lib

/-- `record_compatibility_mutation`: what the compatibility routes count. -/
inductive CompatibilityOperation
  | patch | patchAcknowledge | patchClose | deleteClose
deriving DecidableEq

inductive CompatibilityOutcome
  | success | notFound | invalidStatus | invalidTransition
deriving DecidableEq

/-- An answer: 200 with an incident, an `HTTPException`, or an exception that leaves the route. -/
inductive IncidentAnswer
  | incident (response : IncidentDetailResponse)
  | refused (status : ℕ) (detail : String)
  | raised

structure IncidentReply where
  answer : IncidentAnswer
  outcomes : List (CompatibilityOperation × CompatibilityOutcome) := []

def incidentNotFound : IncidentAnswer := .refused 404 "incident not found"

def statusRequired : IncidentAnswer := .refused 422 "status is required"

/-- `_incident_response`, at the end of a route. -/
def IncidentAnswer.ofRow (r : Incident) : IncidentAnswer :=
  match incidentResponse r with
  | .ok response => .incident response
  | .error _ => .raised

/-- `get_incident_by_id`, then the route. -/
def getIncident (id : UUID) (w : World) : IncidentAnswer :=
  match oneOrNone (w.database.incidents.filter fun r => decide (r.id = id)) with
  | .ok (some r) => .ofRow r
  | .ok none => incidentNotFound
  | .error _ => .raised

/-- A route that changes an incident; `operation` is what a compatibility route counts. -/
def mutateIncident (operation : Option CompatibilityOperation)
    (call : List Incident → Except OpError (List Incident × Option LifecycleWriteResult))
    (w : World) : World × IncidentReply :=
  let count (outcome : CompatibilityOutcome) := (operation.map fun o => (o, outcome)).toList
  match call w.database.incidents with
  | .error _ => (w, ⟨.raised, []⟩)
  | .ok (_, none) => (w, ⟨incidentNotFound, count .notFound⟩)
  | .ok (t, some result) =>
    (w.withIncidents t, ⟨.ofRow result.incident,
      count (if result.effect ≠ .noop then .success else .invalidTransition)⟩)

def acknowledgeIncident (now : Timestamptz) (id : UUID) (body : IncidentAckRequest) :
    World → World × IncidentReply :=
  mutateIncident none (ackOpenIncident now id body.val.operator)

def closeIncidentEndpoint (now : Timestamptz) (id : UUID) (body : IncidentCloseRequest) :
    World → World × IncidentReply :=
  mutateIncident none (closeOpenIncident now id body.val.operator body.val.reason)

/-- The body of a PATCH: `request.json()` raises, or it is no object, or it is one. -/
inductive PatchBody
  | unreadable
  | other (value : Json)
  | object (fields : Items String Json)

def vigiloCompatOperator : String := "vigilo-compat"

def vigiloCompatReason : String := "vigilo-compat"

def patchIncident (now : Timestamptz) (id : UUID) (body : PatchBody) (w : World) :
    World × IncidentReply :=
  match body with
  | .unreadable => (w, ⟨statusRequired, [(.patch, .invalidStatus)]⟩)
  | .other _ => (w, ⟨statusRequired, [(.patch, .invalidStatus)]⟩)
  | .object fields =>
    if fields.entries.any fun e => decide (e.1 ≠ "status") then
      (w, ⟨.refused 422 "summary mutation is not supported", [(.patch, .invalidStatus)]⟩)
    else
      match fields.get "status" with
      | some (.string value) =>
        if value = "ACKNOWLEDGED" then
          mutateIncident (some .patchAcknowledge) (ackOpenIncident now id vigiloCompatOperator) w
        else if value = "CLOSED" then
          mutateIncident (some .patchClose)
            (closeOpenIncident now id vigiloCompatOperator vigiloCompatReason) w
        else (w, ⟨statusRequired, [(.patch, .invalidStatus)]⟩)
      | _ => (w, ⟨statusRequired, [(.patch, .invalidStatus)]⟩)

def deleteIncident (now : Timestamptz) (id : UUID) : World → World × IncidentReply :=
  mutateIncident (some .deleteClose)
    (closeOpenIncident now id vigiloCompatOperator vigiloCompatReason)

/-- A request to a route. -/
inductive IncidentRequest
  | get (id : UUID)
  | ack (now : Timestamptz) (id : UUID) (body : IncidentAckRequest)
  | close (now : Timestamptz) (id : UUID) (body : IncidentCloseRequest)
  | patch (now : Timestamptz) (id : UUID) (body : PatchBody)
  | delete (now : Timestamptz) (id : UUID)

def IncidentRequest.handle : IncidentRequest → World → World × IncidentReply
  | get id, w => (w, ⟨getIncident id w, []⟩)
  | ack now id body, w => acknowledgeIncident now id body w
  | close now id body, w => closeIncidentEndpoint now id body w
  | patch now id body, w => patchIncident now id body w
  | delete now id, w => deleteIncident now id w

end Correlia
