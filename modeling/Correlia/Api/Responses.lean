import Correlia.Persistence.Audit

/-!
# Api.Responses — rows as the list routes return them (`app/api/routers/incidents.py`, `audit.py`)

The response models are checked again when a row is mapped; a failed check fails the whole page.
-/

namespace Correlia

open Lib

/-! ### Incidents -/

structure AcknowledgementFields where
  acknowledgedAt : Option Timestamptz := none
  acknowledgedBy : Option String := none

def AcknowledgementFields.errors (a : AcknowledgementFields) : List FieldError :=
  optErrors (strErrors 1 128 "acknowledged_by") a.acknowledgedBy

abbrev Acknowledgement := Checked AcknowledgementFields.errors

structure IncidentDetailFields where
  id : UUID
  ruleName : String
  groupKey : String
  status : IncidentStatus
  severity : Severity
  summary : String
  eventCount : ℤ
  affectedHosts : List String
  affectedServices : List String
  acknowledgement : Acknowledgement
  windowState : WindowStateJson
  decisionContext : DecisionContext
  thresholdCrossed : Bool
  notifiedAt : Option Timestamptz
  startTime : Timestamptz
  lastUpdateTime : Timestamptz
  resolvedAt : Option Timestamptz
  closedAt : Option Timestamptz
  createdAt : Timestamptz
  updatedAt : Timestamptz

/-- The fields `affected_hosts` and `affected_services`. -/
def affectedErrors (loc : String) (l : List String) : List FieldError :=
  thenErrors (check (decide (l.length ≤ 100)) loc .tooLong) (itemErrors (strErrors 1 256 loc) l)

@[simp] theorem affectedErrors_eq_nil {loc : String} {l : List String} :
    affectedErrors loc l = [] ↔ l.length ≤ 100 ∧ ∀ s ∈ l, Bounded s := by
  simp only [affectedErrors, thenErrors_eq_nil, check_eq_nil, decide_eq_true_eq,
    itemErrors_eq_nil, strErrors_eq_nil, Bounded]

def IncidentDetailFields.errors (i : IncidentDetailFields) : List FieldError :=
  strErrors 1 256 "rule_name" i.ruleName ++ strErrors 1 256 "group_key" i.groupKey ++
    strErrors 1 256 "summary" i.summary ++
    check (decide (0 ≤ i.eventCount)) "event_count" .greaterThanEqual ++
    affectedErrors "affected_hosts" i.affectedHosts ++
    affectedErrors "affected_services" i.affectedServices

abbrev IncidentDetailResponse := Checked IncidentDetailFields.errors

/-- `DecisionContext()`. -/
def emptyDecisionContext : DecisionContext := ⟨ContextData.fill {}, ContextData.fill_empty_errors⟩

/-- `_safe_decision_context`. -/
def safeDecisionContext (r : Incident) : DecisionContext :=
  match DecisionContext.modelValidate r.decisionContext with
  | .ok context => context
  | .error _ => emptyDecisionContext

/-- `_incident_response`. -/
def incidentResponse (r : Incident) : Except InputError IncidentDetailResponse := do
  let acknowledgement ← liftError (.validation "Acknowledgement")
    (modelValidate AcknowledgementFields.errors ⟨r.acknowledgedAt, r.acknowledgedBy⟩)
  liftError (.validation "IncidentDetailResponse") (modelValidate IncidentDetailFields.errors
    { id := r.id
      ruleName := r.ruleName
      groupKey := r.groupKey
      status := r.status
      severity := r.severity
      summary := r.summary
      eventCount := r.eventCount
      affectedHosts := r.affectedHosts
      affectedServices := r.affectedServices
      acknowledgement := acknowledgement
      windowState := r.windowState
      decisionContext := safeDecisionContext r
      thresholdCrossed := r.thresholdCrossed
      notifiedAt := r.notifiedAt
      startTime := r.startTime
      lastUpdateTime := r.lastUpdateTime
      resolvedAt := r.resolvedAt
      closedAt := r.closedAt
      createdAt := r.createdAt
      updatedAt := r.updatedAt })

/-- A row of which every field fits the response. -/
structure Incident.Presentable (r : Incident) : Prop where
  ruleName : Bounded r.ruleName
  groupKey : Bounded r.groupKey
  summary : Bounded r.summary
  affectedHosts : r.affectedHosts.length ≤ 100 ∧ ∀ s ∈ r.affectedHosts, Bounded s
  affectedServices : r.affectedServices.length ≤ 100 ∧ ∀ s ∈ r.affectedServices, Bounded s
  acknowledgedBy : ∀ s ∈ r.acknowledgedBy, 1 ≤ s.length ∧ s.length ≤ 128

/-- These rows, and no others, have a response. -/
theorem incidentResponse_ok_iff {r : Incident} :
    (∃ response, incidentResponse r = .ok response) ↔ r.Presentable := by
  have hack : AcknowledgementFields.errors ⟨r.acknowledgedAt, r.acknowledgedBy⟩ = [] ↔
      ∀ s ∈ r.acknowledgedBy, 1 ≤ s.length ∧ s.length ≤ 128 := by
    simp only [AcknowledgementFields.errors, optErrors_eq_nil, strErrors_eq_nil]
  constructor
  · rintro ⟨response, h⟩
    obtain ⟨acknowledgement, hacknowledgement, h⟩ := bind_eq_ok.mp h
    rw [liftError_eq_ok, modelValidate_eq_ok] at hacknowledgement h
    have hvalid := response.valid
    rw [h] at hvalid
    simp only [IncidentDetailFields.errors, List.append_eq_nil_iff, strErrors_eq_nil,
      affectedErrors_eq_nil] at hvalid
    obtain ⟨⟨⟨⟨⟨hname, hkey⟩, hsummary⟩, -⟩, hhosts⟩, hservices⟩ := hvalid
    exact ⟨hname, hkey, hsummary, hhosts, hservices,
      hack.mp (hacknowledgement ▸ acknowledgement.valid)⟩
  · intro h
    have hvalid := modelValidate_of_valid (hack.mpr h.acknowledgedBy)
    unfold incidentResponse
    rw [hvalid]
    refine ⟨_, liftError_eq_ok.mpr (modelValidate_of_valid ?_)⟩
    simp only [IncidentDetailFields.errors, List.append_eq_nil_iff, strErrors_eq_nil,
      affectedErrors_eq_nil, check_eq_nil, decide_eq_true_eq]
    exact ⟨⟨⟨⟨⟨h.ruleName, h.groupKey⟩, h.summary⟩, Int.natCast_nonneg _⟩, h.affectedHosts⟩,
      h.affectedServices⟩

/-! ### Audit events -/

/-- `_audit_event_response`. -/
def auditEventResponse (row : AuditEventListRow) : Except InputError AuditEventResponse := do
  let decisionSummary ← liftError (.validation "AuditDecisionSummary")
    (AuditDecisionSummary.ofDict row.decisionSummary)
  liftError (.validation "AuditEventResponse") (modelValidate ResponseFields.errors
    { id := row.id
      acceptedAt := row.acceptedAt
      eventTimestamp := row.eventTimestamp
      sourceId := row.sourceId
      fingerprint := row.fingerprint
      eventType := row.eventType
      severity := row.severity
      host := row.host
      service := row.service
      incidentIds := row.incidentIds
      incidentEffect := row.incidentEffect
      decisionSummary := decisionSummary
      normalizedEventMessage := row.normalizedEventMessage
      normalizedEventTags := row.normalizedEventTags
      normalizedEventTagsOmitted := row.normalizedEventTagsOmitted
      normalizedEventTagsOmissionReasons := row.normalizedEventTagsOmissionReasons
      rawPayloadOriginalByteLength := row.rawPayloadOriginalByteLength
      rawPayloadStoredByteLength := row.rawPayloadStoredByteLength
      rawPayloadTruncated := row.rawPayloadTruncated
      redactionVersion := row.redactionVersion
      redactedPathCount := row.redactedPathCount
      rawPayloadHmac := row.rawPayloadHmac.val })

/-! ### A summary read back -/

theorem readField_eq_ok {α : Type} {d : Dictionary} {key : String} {read : Read α} {default : Option α}
    {v : DictValue} {a : α} (hget : getItem key d = some v) (hread : read v = .ok a) :
    readField d key read default = .ok a := by
  unfold readField
  rw [hget]
  dsimp only
  rw [hread]
  rfl

theorem readOption_jsonOf {α : Type} {read : Read α} {f : α → Json} (hnull : ∀ a, f a ≠ .null)
    (hread : ∀ a, read (.json (f a)) = .ok a) (o : Option α) :
    readOption read (.json (jsonOf f o)) = .ok o := by
  cases o with
  | none => rfl
  | some a =>
    have hsome : readOption read (.json (f a)) = some <$> read (.json (f a)) := by
      unfold readOption
      split
      · rename_i heq
        exact absurd (DictValue.json.inj heq) (hnull a)
      · rfl
    show readOption read (.json (f a)) = .ok (some a)
    rw [hsome, hread]
    rfl

theorem readStrings_tuple (l : List String) :
    readStrings (.tuple (l.map Json.string)) = .ok l := by
  show (l.map Json.string).mapM (fun item => readString (.json item)) = .ok l
  rw [mapM_eq_ok]
  exact List.forall₂_map_left_iff.mpr (List.forall₂_same.mpr fun _ _ => rfl)

theorem readField_text {d : Dictionary} {key : String} {o : Option String}
    (hget : getItem key d = some (.json (jsonOf .string o))) :
    readField d key (readOption readString) (some none) = .ok o :=
  readField_eq_ok hget (readOption_jsonOf (f := .string) (fun _ h => by cases h) (fun _ => rfl) o)

theorem readField_int {d : Dictionary} {key : String} {o : Option ℤ}
    (hget : getItem key d = some (.json (jsonOf .int o))) :
    readField d key (readOption readInt) (some none) = .ok o :=
  readField_eq_ok hget (readOption_jsonOf (f := .int) (fun _ h => by cases h) (fun _ => rfl) o)

theorem readField_bool {d : Dictionary} {key : String} {o : Option Bool}
    (hget : getItem key d = some (.json (jsonOf .bool o))) :
    readField d key (readOption readBool) (some none) = .ok o :=
  readField_eq_ok hget (readOption_jsonOf (f := .bool) (fun _ h => by cases h) (fun _ => rfl) o)

/-- **A dumped summary reads back as itself.** -/
theorem ofDict_dump (s : AuditDecisionSummary) :
    AuditDecisionSummary.ofDict (normalizeSummary s.val.dump) = .ok s := by
  have hkeys : forbidExtra summaryKeys (normalizeSummary s.val.dump) = .ok () := rfl
  have hversion : readField (normalizeSummary s.val.dump) "schema_version" readVersion
      (some ()) = .ok () := readField_eq_ok rfl rfl
  have hkind : readField (normalizeSummary s.val.dump) "decision_kind"
      (readLiteral [.problem, .recovery, .noop] DecisionKind.value) none =
        .ok s.val.decisionKind :=
    readField_eq_ok rfl (by cases s.val.decisionKind <;> rfl)
  have heffect : readField (normalizeSummary s.val.dump) "incident_effect"
      (readLiteral [.none, .inserted, .updated, .resolved, .affectedSetShrunk] AuditEffect.value)
      none = .ok s.val.incidentEffect :=
    readField_eq_ok rfl (by cases s.val.incidentEffect <;> rfl)
  have hintent : readField (normalizeSummary s.val.dump) "notification_intent"
      (readLiteral [.dispatchPlanned, .noDispatch] NotificationIntent.value) none =
        .ok s.val.notificationIntent :=
    readField_eq_ok rfl (by cases s.val.notificationIntent <;> rfl)
  have hresolution : readField (normalizeSummary s.val.dump) "recovery_resolution" (readOption
      (readLiteral [.noop, .affectedSetShrunk, .resolved] RecoveryResolution.value))
      (some none) = .ok s.val.recoveryResolution :=
    readField_eq_ok rfl (readOption_jsonOf (f := fun r : RecoveryResolution => .string r.value)
      (fun _ h => by cases h) (fun r => by cases r <;> rfl) _)
  have hids : readField (normalizeSummary s.val.dump) "incident_ids" readStrings (some []) =
      .ok s.val.incidentIds := readField_eq_ok rfl (readStrings_tuple _)
  have hcount : readField (normalizeSummary s.val.dump) "affected_incident_count" readInt
      (some 0) = .ok s.val.affectedIncidentCount := readField_eq_ok rfl rfl
  have htruncated : readField (normalizeSummary s.val.dump) "incident_ids_truncated" readBool
      (some false) = .ok s.val.incidentIdsTruncated := readField_eq_ok rfl rfl
  unfold AuditDecisionSummary.ofDict
  rw [hkeys, ok_bind, hversion, ok_bind, hkind, ok_bind, heffect, ok_bind,
    readField_text (o := s.val.ruleName) rfl, ok_bind,
    readField_text (o := s.val.groupKey) rfl, ok_bind, hids, ok_bind, hcount, ok_bind,
    htruncated, ok_bind, readField_text (o := s.val.decisionReason) rfl, ok_bind,
    readField_text (o := s.val.noDispatchReason) rfl, ok_bind, hintent, ok_bind,
    readField_int (o := s.val.countedCount) rfl, ok_bind,
    readField_int (o := s.val.thresholdCount) rfl, ok_bind,
    readField_bool (o := s.val.thresholdCrossed) rfl, ok_bind,
    readField_bool (o := s.val.replay) rfl, ok_bind,
    readField_bool (o := s.val.firstThresholdTransition) rfl, ok_bind, hresolution, ok_bind,
    readField_bool (o := s.val.affectedObjectRemoved) rfl, ok_bind]
  exact modelValidate_eq_ok.mpr rfl

end Correlia
