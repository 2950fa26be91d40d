import Correlia.Domain.Audit
import Correlia.Persistence.Redaction

/-!
# Persistence.Audit — audit rows and their read projection (`app/persistence/audit.py`)

An `incident_events` row with its three `jsonb` objects.  The list query selects no payload and no
whole event: the message, and of the tags the entries with string values, if their text is small.
-/

namespace Correlia

open Lib

structure IncidentEvent where
  id : UUID
  acceptedAt : Timestamptz
  eventTimestamp : Timestamptz
  sourceId : String
  fingerprint : String
  eventType : EventType
  severity : Severity
  host : String
  service : Option String
  incidentIds : List String
  incidentEffect : AuditEffect
  decisionSummary : JsonDict
  normalizedEvent : JsonDict
  rawPayload : List (String × Json)
  rawPayloadOriginalByteLength : ℤ
  rawPayloadStoredByteLength : ℤ
  rawPayloadTruncated : Bool
  redactionVersion : ℤ
  redactedPathCount : ℤ
  rawPayloadHmac : HexDigest

/-! ### What the query computes of a `jsonb` value -/

mutual

/-- `value::text`. -/
def jsonbText : Json → List Char
  | .array items => ['['] ++ [',', ' '].intercalate (jsonbItems items) ++ [']']
  | .object fields =>
    ['\x7b'] ++ [',', ' '].intercalate ((sortBy (fun e : JsonKey × List Char => e.1)
      (jsonbFields fields)).map fun e => Json.stringText e.1.text ++ [':', ' '] ++ e.2) ++ ['\x7d']
  | j => j.canonicalJson

def jsonbItems : List Json → List (List Char)
  | [] => []
  | item :: rest => jsonbText item :: jsonbItems rest

def jsonbFields : List (String × Json) → List (JsonKey × List Char)
  | [] => []
  | (key, value) :: rest => (⟨key⟩, jsonbText value) :: jsonbFields rest

end

/-- `value ->> key`: a string as it is, `NULL` for `null` and for a missing key. -/
def astext (fields : List (String × Json)) (key : String) : Option String :=
  match getItem key fields with
  | none => none
  | some .null => none
  | some (.string s) => some s
  | some value => some (String.ofList (jsonbText value))

def auditTagSqlMaxBytes : ℕ := 32768

/-- `_guarded_tags`, with `_tag_size_limited` and `_tag_invalid_shape`. -/
structure SqlTags where
  tags : List (String × String)
  sizeLimited : Bool
  invalidShape : Bool

def stringEntry : String × Json → Option (String × String)
  | (key, .string s) => some (key, s)
  | _ => none

/-- The columns of an object: its entries with string values, unless its text is too large. -/
def sqlObjectTags (fields : List (String × Json)) : SqlTags :=
  if byteLength (jsonbText (.object fields)) ≤ auditTagSqlMaxBytes then
    ⟨fields.filterMap stringEntry, false, fields.any fun e => (stringEntry e).isNone⟩
  else ⟨[], true, false⟩

def sqlTags : Option Json → SqlTags
  | some (.object fields) => sqlObjectTags fields
  | _ => ⟨[], false, true⟩

/-! ### `_row_to_audit_event_list_row` -/

def auditMessageMaxLength : ℕ := 512

/-- `_project_normalized_event_message`. -/
def projectNormalizedEventMessage (message : Option String) : String :=
  let rawMessage := message.getD ""
  let safeMessage :=
    if rawMessage ≠ "" ∧ containsSensitiveFragment rawMessage then auditRedactionPlaceholder
    else rawMessage
  takeText auditMessageMaxLength safeMessage

/-- The loop of `_project_normalized_event_tags`. -/
structure TagProjection where
  projected : List (String × String)
  reasons : Finset TagOmissionReason
  encodedBytes : ℕ

/-- `reasons.add(reason)`, then `continue`. -/
def TagProjection.omit (p : TagProjection) (reason : TagOmissionReason) : TagProjection :=
  ⟨p.projected, insert reason p.reasons, p.encodedBytes⟩

/-- The pair with a sensitive value replaced. -/
def safePair (pair : String × String) : String × String :=
  (pair.1, if containsSensitiveFragment pair.2 then auditRedactionPlaceholder else pair.2)

/-- `additional_bytes`. -/
def TagProjection.additionalBytes (p : TagProjection) (pair : String × String) : ℕ :=
  (tagBytes [pair] - 2) + if p.projected = [] then 0 else 1

/-- `projected[key] = safe_value`. -/
def TagProjection.keep (p : TagProjection) (pair : String × String) : TagProjection :=
  ⟨p.projected ++ [pair], p.reasons, p.encodedBytes + p.additionalBytes pair⟩

/-- One pair of the loop. -/
def TagProjection.step (p : TagProjection) (pair : String × String) : TagProjection :=
  if validateEventTags ⟨[pair], List.nodup_singleton _⟩ = false then p.omit .invalidLegacyShape
  else if containsSensitiveFragment pair.1 then p.omit .sensitiveKey
  else if auditTagMaxEntries ≤ p.projected.length then p.omit .sizeLimit
  else if auditTagMaxBytes < p.encodedBytes + p.additionalBytes (safePair pair) then
    p.omit .sizeLimit
  else p.keep (safePair pair)

/-- `_project_normalized_event_tags`. -/
def projectNormalizedEventTags (tags : List (String × String))
    (invalidLegacyShape sizeLimit : Bool) : TagProjection :=
  let reasons : Finset TagOmissionReason :=
    (if invalidLegacyShape then {.invalidLegacyShape} else ∅) ∪
      (if sizeLimit then {.sizeLimit} else ∅)
  (sortBy Prod.fst tags).foldl TagProjection.step ⟨[], reasons, 2⟩

structure AuditEventListRow where
  id : UUID
  acceptedAt : Timestamptz
  eventTimestamp : Timestamptz
  sourceId : String
  fingerprint : String
  eventType : EventType
  severity : Severity
  host : String
  service : Option String
  incidentIds : List String
  incidentEffect : AuditEffect
  decisionSummary : Dictionary
  rawPayloadOriginalByteLength : ℤ
  rawPayloadStoredByteLength : ℤ
  rawPayloadTruncated : Bool
  redactionVersion : ℤ
  redactedPathCount : ℤ
  rawPayloadHmac : HexDigest
  normalizedEventMessage : String
  normalizedEventTags : Items String String
  normalizedEventTagsOmitted : Bool
  normalizedEventTagsOmissionReasons : Finset TagOmissionReason

/-- What one pair of the loop does: it is left out for a reason, or kept. -/
theorem TagProjection.step_cases (p : TagProjection) (pair : String × String) :
    (∃ reason, p.step pair = p.omit reason) ∨
      validateEventTags ⟨[pair], List.nodup_singleton _⟩ = true ∧
        containsSensitiveFragment pair.1 = false ∧
        p.projected.length < auditTagMaxEntries ∧
        p.encodedBytes + p.additionalBytes (safePair pair) ≤ auditTagMaxBytes ∧
        p.step pair = p.keep (safePair pair) := by
  unfold TagProjection.step
  by_cases h1 : validateEventTags ⟨[pair], List.nodup_singleton _⟩ = false
  · rw [if_pos h1]
    exact Or.inl ⟨_, rfl⟩
  by_cases h2 : containsSensitiveFragment pair.1 = true
  · rw [if_neg h1, if_pos h2]
    exact Or.inl ⟨_, rfl⟩
  by_cases h3 : auditTagMaxEntries ≤ p.projected.length
  · rw [if_neg h1, if_neg h2, if_pos h3]
    exact Or.inl ⟨_, rfl⟩
  by_cases h4 : auditTagMaxBytes < p.encodedBytes + p.additionalBytes (safePair pair)
  · rw [if_neg h1, if_neg h2, if_neg h3, if_pos h4]
    exact Or.inl ⟨_, rfl⟩
  rw [if_neg h1, if_neg h2, if_neg h3, if_neg h4]
  exact Or.inr ⟨Bool.eq_true_of_not_eq_false h1, Bool.eq_false_of_not_eq_true h2,
    not_le.mp h3, not_lt.mp h4, rfl⟩

theorem TagProjection.step_keys (p : TagProjection) (pair : String × String) :
    ((p.step pair).projected.map Prod.fst).Sublist (p.projected.map Prod.fst ++ [pair.1]) := by
  obtain ⟨reason, h⟩ | ⟨-, -, -, -, h⟩ := p.step_cases pair
  · rw [h]
    exact List.sublist_append_left _ _
  · rw [h, TagProjection.keep, List.map_append]
    exact List.Sublist.refl _

theorem TagProjection.foldl_keys (l : List (String × String)) (p : TagProjection) :
    ((l.foldl TagProjection.step p).projected.map Prod.fst).Sublist
      (p.projected.map Prod.fst ++ l.map Prod.fst) := by
  induction l generalizing p with
  | nil => simp
  | cons pair l ih =>
    rw [List.foldl_cons, List.map_cons, List.append_cons]
    exact (ih _).trans ((p.step_keys pair).append_right _)

theorem projectNormalizedEventTags_nodup {tags : List (String × String)}
    (h : (tags.map Prod.fst).Nodup) (invalidLegacyShape sizeLimit : Bool) :
    ((projectNormalizedEventTags tags invalidLegacyShape sizeLimit).projected.map
      Prod.fst).Nodup := by
  have hsorted : ((sortBy Prod.fst tags).map Prod.fst).Nodup :=
    List.pairwise_map.mpr ((sortBy_strict h).imp fun hlt => hlt.ne)
  exact hsorted.sublist (TagProjection.foldl_keys _ _)

theorem stringEntries_keys (fields : List (String × Json)) :
    ((fields.filterMap stringEntry).map Prod.fst).Sublist (fields.map Prod.fst) := by
  induction fields with
  | nil => simp
  | cons e fields ih =>
    obtain ⟨key, value⟩ := e
    cases value with
    | string s =>
      rw [List.filterMap_cons, List.map_cons]
      exact ih.cons_cons key
    | _ =>
      rw [List.filterMap_cons, List.map_cons]
      exact ih.cons key

theorem sqlTags_nodup {fields : List (String × Json)} (h : (Json.object fields).Distinct) :
    ((sqlTags (getItem "tags" fields)).tags.map Prod.fst).Nodup := by
  cases hget : getItem "tags" fields with
  | none => exact List.nodup_nil
  | some source =>
    cases source with
    | object tags =>
      have htags : (tags.map Prod.fst).Nodup := (h.values _ (mem_of_getItem hget)).keys
      change ((sqlObjectTags tags).tags.map Prod.fst).Nodup
      unfold sqlObjectTags
      by_cases hsize : byteLength (jsonbText (.object tags)) ≤ auditTagSqlMaxBytes
      · rw [if_pos hsize]
        exact htags.sublist (stringEntries_keys tags)
      · rw [if_neg hsize]
        exact List.nodup_nil
    | _ => exact List.nodup_nil

/-- A `jsonb` array made a tuple. -/
def asTuple : Json → DictValue
  | .array items => .tuple items
  | value => .json value

/-- The summary as a `dict`, its incident ids a tuple. -/
def normalizeSummary (summary : List (String × Json)) : Dictionary :=
  summary.map fun e => (e.1, if e.1 = "incident_ids" then asTuple e.2 else .json e.2)

/-- `_row_to_audit_event_list_row` of what the list query selects of a row. -/
def rowToAuditEventListRow (row : IncidentEvent) : AuditEventListRow :=
  let tags := sqlTags (getItem "tags" row.normalizedEvent.fields)
  let safe := projectNormalizedEventTags tags.tags tags.invalidShape tags.sizeLimited
  { id := row.id
    acceptedAt := row.acceptedAt
    eventTimestamp := row.eventTimestamp
    sourceId := row.sourceId
    fingerprint := row.fingerprint
    eventType := row.eventType
    severity := row.severity
    host := row.host
    service := row.service
    incidentIds := row.incidentIds.take auditIncidentIdsMax
    incidentEffect := row.incidentEffect
    decisionSummary := normalizeSummary row.decisionSummary.fields
    rawPayloadOriginalByteLength := row.rawPayloadOriginalByteLength
    rawPayloadStoredByteLength := row.rawPayloadStoredByteLength
    rawPayloadTruncated := row.rawPayloadTruncated
    redactionVersion := row.redactionVersion
    redactedPathCount := row.redactedPathCount
    rawPayloadHmac := row.rawPayloadHmac
    normalizedEventMessage :=
      projectNormalizedEventMessage (astext row.normalizedEvent.fields "message")
    normalizedEventTags := ⟨safe.projected,
      projectNormalizedEventTags_nodup (sqlTags_nodup row.normalizedEvent.distinct) _ _⟩
    normalizedEventTagsOmitted := decide safe.reasons.Nonempty
    normalizedEventTagsOmissionReasons := safe.reasons }

end Correlia
