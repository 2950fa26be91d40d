import Correlia.Lib.Json
import Correlia.Processing.IncidentManager

/-!
# Domain.Audit — audit summaries, list filters and responses (`app/domain/audit.py`)
-/

namespace Correlia

open Lib

def auditIncidentIdsMax : ℕ := 20
def auditTagMaxEntries : ℕ := 32
def auditTagMaxBytes : ℕ := 4096

inductive DecisionKind
  | problem | recovery | noop
deriving DecidableEq, Repr

def DecisionKind.value : DecisionKind → String
  | problem => "problem"
  | recovery => "recovery"
  | noop => "noop"

/-- The `Literal` type of `incident_effect`. -/
inductive AuditEffect
  | none | inserted | updated | resolved | affectedSetShrunk
deriving DecidableEq, Repr

def AuditEffect.value : AuditEffect → String
  | none => "none"
  | inserted => "inserted"
  | updated => "updated"
  | resolved => "resolved"
  | affectedSetShrunk => "affected_set_shrunk"

inductive RecoveryResolution
  | noop | affectedSetShrunk | resolved
deriving DecidableEq, Repr

def RecoveryResolution.value : RecoveryResolution → String
  | noop => "noop"
  | affectedSetShrunk => "affected_set_shrunk"
  | resolved => "resolved"

def NotificationIntent.value : NotificationIntent → String
  | dispatchPlanned => "dispatch_planned"
  | noDispatch => "no_dispatch"

/-! ### `AuditDecisionSummary` -/

structure SummaryFields where
  decisionKind : DecisionKind
  incidentEffect : AuditEffect
  ruleName : Option String := none
  groupKey : Option String := none
  incidentIds : List String := []
  affectedIncidentCount : ℤ := 0
  incidentIdsTruncated : Bool := false
  decisionReason : Option String := none
  noDispatchReason : Option String := none
  notificationIntent : NotificationIntent
  countedCount : Option ℤ := none
  thresholdCount : Option ℤ := none
  thresholdCrossed : Option Bool := none
  replay : Option Bool := none
  firstThresholdTransition : Option Bool := none
  recoveryResolution : Option RecoveryResolution := none
  affectedObjectRemoved : Option Bool := none
deriving DecidableEq

def SummaryFields.errors (s : SummaryFields) : List FieldError :=
  optErrors (strErrors 1 256 "rule_name") s.ruleName ++
  optErrors (strErrors 1 256 "group_key") s.groupKey ++
  stringTupleErrors "incident_ids" s.incidentIds ++
  check (decide (0 ≤ s.affectedIncidentCount)) "affected_incident_count" .greaterThanEqual ++
  optErrors (strErrors 1 256 "decision_reason") s.decisionReason ++
  optErrors (strErrors 1 128 "no_dispatch_reason") s.noDispatchReason ++
  optErrors (fun n => check (decide (0 ≤ n)) "counted_count" .greaterThanEqual) s.countedCount ++
  optErrors (fun n => check (decide (1 ≤ n)) "threshold_count" .greaterThanEqual) s.thresholdCount

abbrev AuditDecisionSummary := Checked SummaryFields.errors

/-- A nullable value as JSON. -/
def jsonOf {α : Type} (f : α → Json) : Option α → Json
  | none => .null
  | some a => f a

/-- `summary.model_dump(mode="json")`. -/
def SummaryFields.dump (s : SummaryFields) : List (String × Json) :=
  [("schema_version", .int 1),
   ("decision_kind", .string s.decisionKind.value),
   ("incident_effect", .string s.incidentEffect.value),
   ("rule_name", jsonOf .string s.ruleName),
   ("group_key", jsonOf .string s.groupKey),
   ("incident_ids", .array (s.incidentIds.map .string)),
   ("affected_incident_count", .int s.affectedIncidentCount),
   ("incident_ids_truncated", .bool s.incidentIdsTruncated),
   ("decision_reason", jsonOf .string s.decisionReason),
   ("no_dispatch_reason", jsonOf .string s.noDispatchReason),
   ("notification_intent", .string s.notificationIntent.value),
   ("counted_count", jsonOf .int s.countedCount),
   ("threshold_count", jsonOf .int s.thresholdCount),
   ("threshold_crossed", jsonOf .bool s.thresholdCrossed),
   ("replay", jsonOf .bool s.replay),
   ("first_threshold_transition", jsonOf .bool s.firstThresholdTransition),
   ("recovery_resolution", jsonOf (fun r => .string r.value) s.recoveryResolution),
   ("affected_object_removed", jsonOf .bool s.affectedObjectRemoved)]

/-! ### List filters -/

structure AuditFilterFields where
  incidentId : Option UUID := none
  hasIncident : Option Bool := none
  fingerprint : Option String := none
  sourceId : Option String := none
  eventType : Option EventType := none
  incidentEffect : Option AuditEffect := none
  noDispatchReason : Option String := none
  severity : Option Severity := none
  host : Option String := none
  service : Option String := none
  acceptedSince : Option Datetime := none
  acceptedUntil : Option Datetime := none
  eventTimestampSince : Option Datetime := none
  eventTimestampUntil : Option Datetime := none
  limit : ℤ := 50
  cursor : Option String := none
  offset : Option ℤ := none

def AuditFilterFields.errors (f : AuditFilterFields) : List FieldError :=
  optErrors (strErrors 1 256 "fingerprint") f.fingerprint ++
  optErrors (strErrors 1 256 "source_id") f.sourceId ++
  optErrors (strErrors 1 128 "no_dispatch_reason") f.noDispatchReason ++
  optErrors (strErrors 1 256 "host") f.host ++
  optErrors (strErrors 1 256 "service") f.service ++
  pageErrors f.limit f.cursor f.offset

abbrev AuditEventListFilters := Checked AuditFilterFields.errors

/-! ### Reading a summary from a `dict` -/

/-- A value of the `dict`: what JSON gives, or an array made a tuple. -/
inductive DictValue
  | json (j : Json)
  | tuple (items : List Json)

abbrev Dictionary := List (String × DictValue)

abbrev Read (α : Type) := DictValue → Except ErrorKind α

def readString : Read String
  | .json (.string s) => .ok s
  | _ => .error .stringType

def readInt : Read ℤ
  | .json (.int n) => .ok n
  | _ => .error .intType

def readBool : Read Bool
  | .json (.bool b) => .ok b
  | _ => .error .boolType

/-- A strict tuple field: a list is refused. -/
def readStrings : Read (List String)
  | .tuple items => items.mapM fun item => readString (.json item)
  | .json _ => .error .tupleType

/-- A `Literal` field: one of these members, by its text. -/
def readLiteral {α : Type} (members : List α) (value : α → String) : Read α
  | .json (.string s) => orThrow .literalError (members.find? fun a => value a == s)
  | _ => .error .literalError

/-- `Literal[1]`. -/
def readVersion : Read Unit
  | .json (.int n) => if n = 1 then .ok () else .error .literalError
  | _ => .error .literalError

/-- A field that may be `None`. -/
def readOption {α : Type} (read : Read α) : Read (Option α)
  | .json .null => .ok none
  | v => some <$> read v

/-- One field of a model, at its key; a field without default is required. -/
def readField {α : Type} (d : Dictionary) (key : String) (read : Read α)
    (default : Option α) : Except (List FieldError) α :=
  match getItem key d with
  | some v => liftError (fun kind => [⟨key, kind⟩]) (read v)
  | none => orThrow [⟨key, .missing⟩] default

def summaryKeys : List String :=
  ["schema_version", "decision_kind", "incident_effect", "rule_name", "group_key", "incident_ids",
   "affected_incident_count", "incident_ids_truncated", "decision_reason", "no_dispatch_reason",
   "notification_intent", "counted_count", "threshold_count", "threshold_crossed", "replay",
   "first_threshold_transition", "recovery_resolution", "affected_object_removed"]

/-- `extra="forbid"`. -/
def forbidExtra (keys : List String) (d : Dictionary) : Except (List FieldError) Unit :=
  match d.filter fun e => e.1 ∉ keys with
  | [] => .ok ()
  | extra => .error (extra.map fun e => ⟨e.1, .extraForbidden⟩)

/-- `AuditDecisionSummary(**d)`: the types of the fields, then their bounds. -/
def AuditDecisionSummary.ofDict (d : Dictionary) :
    Except (List FieldError) AuditDecisionSummary := do
  forbidExtra summaryKeys d
  let _ ← readField d "schema_version" readVersion (some ())
  let fields : SummaryFields := {
    decisionKind := ← readField d "decision_kind"
      (readLiteral [.problem, .recovery, .noop] DecisionKind.value) none
    incidentEffect := ← readField d "incident_effect"
      (readLiteral [.none, .inserted, .updated, .resolved, .affectedSetShrunk] AuditEffect.value)
      none
    ruleName := ← readField d "rule_name" (readOption readString) (some none)
    groupKey := ← readField d "group_key" (readOption readString) (some none)
    incidentIds := ← readField d "incident_ids" readStrings (some [])
    affectedIncidentCount := ← readField d "affected_incident_count" readInt (some 0)
    incidentIdsTruncated := ← readField d "incident_ids_truncated" readBool (some false)
    decisionReason := ← readField d "decision_reason" (readOption readString) (some none)
    noDispatchReason := ← readField d "no_dispatch_reason" (readOption readString) (some none)
    notificationIntent := ← readField d "notification_intent"
      (readLiteral [.dispatchPlanned, .noDispatch] NotificationIntent.value) none
    countedCount := ← readField d "counted_count" (readOption readInt) (some none)
    thresholdCount := ← readField d "threshold_count" (readOption readInt) (some none)
    thresholdCrossed := ← readField d "threshold_crossed" (readOption readBool) (some none)
    replay := ← readField d "replay" (readOption readBool) (some none)
    firstThresholdTransition :=
      ← readField d "first_threshold_transition" (readOption readBool) (some none)
    recoveryResolution := ← readField d "recovery_resolution" (readOption
      (readLiteral [.noop, .affectedSetShrunk, .resolved] RecoveryResolution.value)) (some none)
    affectedObjectRemoved :=
      ← readField d "affected_object_removed" (readOption readBool) (some none) }
  modelValidate SummaryFields.errors fields

/-! ### `AuditEventResponse` -/

inductive TagOmissionReason
  | sizeLimit | invalidLegacyShape | sensitiveKey
deriving DecidableEq, Repr

structure ResponseFields where
  id : UUID
  acceptedAt : Timestamptz
  eventTimestamp : Timestamptz
  sourceId : String
  fingerprint : String
  eventType : EventType
  severity : Severity
  host : String
  service : Option String
  incidentIds : List String
  incidentEffect : AuditEffect
  decisionSummary : AuditDecisionSummary
  normalizedEventMessage : String
  normalizedEventTags : Items String String
  normalizedEventTagsOmitted : Bool
  normalizedEventTagsOmissionReasons : Finset TagOmissionReason
  rawPayloadOriginalByteLength : ℤ
  rawPayloadStoredByteLength : ℤ
  rawPayloadTruncated : Bool
  redactionVersion : ℤ
  redactedPathCount : ℤ
  rawPayloadHmac : String

/-- `len(json.dumps(tags, sort_keys=True, ...).encode("utf-8"))`. -/
def tagBytes (tags : List (String × String)) : ℕ :=
  byteLength (Json.object (tags.map fun e => (e.1, .string e.2))).canonicalJson

/-- The field `normalized_event_tags`, then `require_bounded_response_tags`. -/
def responseTagsErrors (tags : Items String String) : List FieldError :=
  thenErrors
    (thenErrors
      (itemErrors (fun e => eventTagKeyErrors "normalized_event_tags" e.1 ++
        tagValueErrors "normalized_event_tags" e.2) tags.entries)
      (check (decide (tags.entries.length ≤ auditTagMaxEntries)) "normalized_event_tags" .tooLong))
    (thenErrors
      (check (validateEventTags tags) "normalized_event_tags"
        (.valueError "invalid audit response tags"))
      (check (decide (tagBytes tags.entries ≤ auditTagMaxBytes)) "normalized_event_tags"
        (.valueError "audit response tags exceed byte limit")))

/-- `BoundedResponseHmac`. -/
def responseHmacErrors (hmac : String) : List FieldError :=
  thenErrors (strErrors 64 64 "raw_payload_hmac" hmac)
    (check (hmac.toList.all fun c => hexChars.contains c) "raw_payload_hmac"
      .stringPatternMismatch)

/-- The fields, then the model validator `require_consistent_tag_omissions`. -/
def ResponseFields.errors (r : ResponseFields) : List FieldError :=
  thenErrors
    (strErrors 1 256 "source_id" r.sourceId ++
    strErrors 1 256 "fingerprint" r.fingerprint ++
    strErrors 1 256 "host" r.host ++
    optErrors (strErrors 1 256 "service") r.service ++
    stringTupleErrors "incident_ids" r.incidentIds ++
    check (decide (r.normalizedEventMessage.length ≤ 512)) "normalized_event_message"
      .stringTooLong ++
    responseTagsErrors r.normalizedEventTags ++
    check (decide (r.normalizedEventTagsOmissionReasons.card ≤ 3))
      "normalized_event_tags_omission_reasons" .tooLong ++
    responseHmacErrors r.rawPayloadHmac)
    (check
      (r.normalizedEventTagsOmitted == decide (r.normalizedEventTagsOmissionReasons.Nonempty)) ""
      (.valueError "audit tag omission metadata is inconsistent"))

abbrev AuditEventResponse := Checked ResponseFields.errors

end Correlia
