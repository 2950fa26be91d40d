import Correlia.Lib.Base64
import Correlia.Persistence.Audit
import Correlia.Persistence.Models

/-!
# Persistence.Listing — cursors and list queries (`app/persistence/incidents.py`, `audit.py`)

A cursor is the unpadded base64 of a JSON text.  `json.loads`, `datetime.fromisoformat` and `UUID`
are parameters: what they make of a text, or nothing where they raise.  A list query filters,
orders by timestamp and id, and takes one row more than the page holds.  The database refuses some of
the values that a statement can bind.
-/

namespace Correlia

open Lib

/-! ### Cursors -/

structure PageCursor where
  timestamp : Datetime
  id : UUID

inductive ParsedDatetime
  | naive
  | aware (d : Datetime)

/-- The readers of the standard library a cursor goes through; `none` is a `ValueError`. -/
structure CursorReaders where
  jsonLoads : String → Option Json
  fromisoformat : String → Option ParsedDatetime
  parseUuid : String → Option UUID

inductive CursorError
  /-- `ValueError("invalid incident cursor")`, `InvalidAuditCursorError`. -/
  | invalid
  /-- Not caught: `UUID` of what is neither a string nor `None`. -/
  | attribute
deriving DecidableEq

/-- `text.encode()`. -/
def utf8Bytes (text : String) : List UInt8 := text.toByteArray.data.toList

/-- `data.decode()`. -/
def utf8Text (bytes : List UInt8) : Option String := String.fromUTF8? ⟨bytes.toArray⟩

theorem utf8Text_utf8Bytes (text : String) : utf8Text (utf8Bytes text) = some text := by
  have hbytes : (⟨(utf8Bytes text).toArray⟩ : ByteArray) = text.toByteArray := by
    simp [utf8Bytes]
  rw [utf8Text, hbytes, String.fromUTF8?, dif_pos text.isValidUTF8]
  rfl

theorem length_utf8Bytes (text : List Char) :
    (utf8Bytes (String.ofList text)).length = byteLength text := by
  have hbytes : utf8Bytes (String.ofList text) = text.flatMap String.utf8EncodeChar := by
    simp [utf8Bytes, List.utf8Encode]
  rw [hbytes, List.length_flatMap, List.map_congr_left fun c _ => String.length_utf8EncodeChar c]
  rfl

/-- `json.dumps({timeKey: …, "id": …}, separators=(",", ":"))`. -/
def cursorText (timeKey : String) (cursor : PageCursor) : String :=
  String.ofList (['\x7b'] ++ Json.stringText timeKey ++ [':'] ++
    Json.stringText cursor.timestamp.isoformat ++ [','] ++ Json.stringText "id" ++ [':'] ++
    Json.stringText (uuidText cursor.id) ++ ['\x7d'])

def encodeCursor (timeKey : String) (cursor : PageCursor) : String :=
  String.ofList (stripPadding (b64encode (utf8Bytes (cursorText timeKey cursor))))

/-- `payload[key]`. -/
def payloadItem (payload : Json) (key : String) : Except CursorError Json :=
  match payload with
  | .object fields => orThrow .invalid (getItem key fields)
  | _ => .error .invalid

/-- `datetime.fromisoformat(value)`, which must be aware. -/
def cursorTimestamp (readers : CursorReaders) (value : Json) : Except CursorError Datetime :=
  match value with
  | .string s =>
    match readers.fromisoformat s with
    | some (.aware d) => .ok d
    | _ => .error .invalid
  | _ => .error .invalid

/-- `UUID(value)`. -/
def cursorUuid (readers : CursorReaders) (value : Json) : Except CursorError UUID :=
  match value with
  | .string s => orThrow .invalid (readers.parseUuid s)
  | .null => .error .invalid
  | _ => .error .attribute

def decodeCursor (strict : Bool) (timeKey : String) (readers : CursorReaders) (value : String) :
    Except CursorError PageCursor := do
  let bytes ← orThrow .invalid (b64decode strict (pad value.toList))
  let text ← orThrow .invalid (utf8Text bytes)
  let payload ← orThrow .invalid (readers.jsonLoads text)
  let timestamp ← cursorTimestamp readers (← payloadItem payload timeKey)
  let id ← cursorUuid readers (← payloadItem payload "id")
  return ⟨timestamp, id⟩

def encodeIncidentCursor (cursor : PageCursor) : String := encodeCursor "last_update_time" cursor

def decodeIncidentCursor (readers : CursorReaders) (value : String) :
    Except CursorError PageCursor := decodeCursor false "last_update_time" readers value

def encodeAuditCursor (cursor : PageCursor) : String := encodeCursor "accepted_at" cursor

def decodeAuditCursor (readers : CursorReaders) (value : String) :
    Except CursorError PageCursor := decodeCursor true "accepted_at" readers value

/-! ### What a statement binds -/

/-- How a list query fails: its cursor, or a `DBAPIError`. -/
inductive ListError
  | cursor (e : CursorError)
  | database
deriving DecidableEq

/-- The texts and the timestamps that a statement binds. -/
structure Parameters where
  texts : List String := []
  timestamps : List Datetime := []

/-- There is no U+0000, and every timestamp has an instant in UTC. -/
def Parameters.Encodable (p : Parameters) : Prop :=
  (∀ s ∈ p.texts, isStorable s = true) ∧ ∀ d ∈ p.timestamps, d.toTimestamptz.isSome = true

instance Parameters.decidableEncodable (p : Parameters) : Decidable p.Encodable :=
  inferInstanceAs (Decidable (_ ∧ _))

/-- What the driver and the database make of the parameters. -/
def Parameters.bind (p : Parameters) : Except ListError Unit :=
  if p.Encodable then .ok () else .error .database

theorem Parameters.bind_eq_ok {p : Parameters} {u : Unit} : p.bind = .ok u ↔ p.Encodable := by
  unfold Parameters.bind
  split_ifs with h <;> simp [h]

theorem Parameters.encodable_timestamp {d : Datetime} :
    Parameters.Encodable { timestamps := [d] } ↔ d.toTimestamptz ≠ none := by
  unfold Parameters.Encodable
  simp [Option.isSome_iff_ne_none]

/-- 0001-01-01T00:00:00+14:00: in UTC, before the first year. -/
def firstMidnight : Datetime := ⟨0, 14 * 3600 * usPerSecond, datetimeEnd_pos, by decide, by decide⟩

example : ¬Parameters.Encodable { timestamps := [firstMidnight] } := by decide

/-- The end of PostgreSQL's `bigint`. -/
def bigintEnd : ℤ := 2 ^ 63

/-! ### The page of a list query -/

structure ListPage (β : Type) where
  rows : List β
  nextCursor : Option String
  total : ℕ
  offset : ℤ

/-- What the two list queries differ in. -/
structure Listing (α β : Type) where
  timestamp : α → Timestamptz
  id : α → UUID
  encode : PageCursor → String
  decode : String → Except CursorError PageCursor
  project : α → β

namespace Listing

variable {α β : Type} (listing : Listing α β)

/-- What the rows are ordered by. -/
def key (r : α) : Timestamptz ×ₗ UUID := toLex (listing.timestamp r, listing.id r)

/-- `ORDER BY timestamp DESC, id DESC`. -/
def ordered (rows : List α) : List α := sortBy (fun r => OrderDual.toDual (listing.key r)) rows

/-- `timestamp < c.timestamp OR (timestamp = c.timestamp AND id < c.id)`. -/
def beforeCursor (cursor : PageCursor) (r : α) : Bool :=
  decide ((listing.timestamp r).val < cursor.timestamp.instant) ||
    (decide ((listing.timestamp r).val = cursor.timestamp.instant) &&
      decide (listing.id r < cursor.id))

def cursorOf (r : α) : PageCursor := ⟨(listing.timestamp r).toDatetime, listing.id r⟩

/-- The rows of a query that looks one row ahead. -/
def lookAhead (limit total : ℕ) (rows : List α) : ListPage β :=
  let rows := (listing.ordered rows).take (limit + 1)
  let kept := rows.take limit
  { rows := kept.map listing.project
    nextCursor :=
      if limit < rows.length then
        kept.getLast?.map fun last => listing.encode (listing.cursorOf last)
      else none
    total
    offset := 0 }

/-- The second statement, on the rows that match the filters; a cursor goes before an offset. -/
def select (limit : ℕ) (cursor : Option String) (offset : Option ℤ) (rows : List α) :
    Except ListError (ListPage β) :=
  match cursor, offset with
  | some value, _ => do
    let cursor ← liftError .cursor (listing.decode value)
    Parameters.bind { timestamps := [cursor.timestamp] }
    return listing.lookAhead limit rows.length (rows.filter (listing.beforeCursor cursor))
  | none, some offset =>
    if bigintEnd ≤ offset then .error .database
    else .ok
      { rows := (((listing.ordered rows).drop offset.toNat).take limit).map listing.project
        nextCursor := none
        total := rows.length
        offset }
  | none, none => .ok (listing.lookAhead limit rows.length rows)

/-- A list query: the statement that counts the rows binds the filters before the cursor is read. -/
def page (filters : Parameters) (limit : ℕ) (cursor : Option String) (offset : Option ℤ)
    (rows : List α) : Except ListError (ListPage β) :=
  filters.bind >>= fun _ => listing.select limit cursor offset rows

end Listing

/-! ### `list_incidents` -/

/-- `window_state - 'active_objects'`. -/
structure ListedWindow where
  windowStartedAt : Timestamp
  windowEndedAt : Timestamp
  windowSeconds : ℕ
  thresholdCount : ℕ
  countedFingerprintTimestamps : Dict String Timestamp
  countedCount : ℕ
  maxSize : ℕ

def WindowFields.listed (w : WindowFields Timestamp) : ListedWindow :=
  ⟨w.windowStartedAt, w.windowEndedAt, w.windowSeconds, w.thresholdCount,
    w.countedFingerprintTimestamps, w.countedCount, w.maxSize⟩

/-- A row of the list query. -/
structure ListedIncident where
  id : UUID
  ruleName : String
  groupKey : String
  status : IncidentStatus
  severity : Severity
  summary : String
  eventCount : ℕ
  affectedHosts : List String
  affectedServices : List String
  decisionContext : ContextData
  windowState : ListedWindow
  thresholdCrossed : Bool
  notifiedAt : Option Timestamptz
  startTime : Timestamptz
  lastUpdateTime : Timestamptz
  acknowledgedAt : Option Timestamptz
  acknowledgedBy : Option String
  resolvedAt : Option Timestamptz
  closedAt : Option Timestamptz
  createdAt : Timestamptz
  updatedAt : Timestamptz

def Incident.listed (r : Incident) : ListedIncident :=
  ⟨r.id, r.ruleName, r.groupKey, r.status, r.severity, r.summary, r.eventCount, r.affectedHosts,
    r.affectedServices, r.decisionContext, r.windowState.val.listed, r.thresholdCrossed,
    r.notifiedAt, r.startTime, r.lastUpdateTime, r.acknowledgedAt, r.acknowledgedBy, r.resolvedAt,
    r.closedAt, r.createdAt, r.updatedAt⟩

/-- A filter that is set. -/
def optTest {γ : Type} (filter : Option γ) (test : γ → Bool) : Bool := filter.all test

def statusTest (r : Incident) : IncidentStatusFilter → Bool
  | .acknowledged =>
    decide (r.status = .«open») && r.acknowledgedAt.isSome && r.acknowledgedBy.isSome
  | .«open» => decide (r.status = .«open»)
  | .resolved => decide (r.status = .resolved)
  | .closed => decide (r.status = .closed)

/-- `apply_filters`. -/
def IncidentFilterFields.matches (f : IncidentFilterFields) (r : Incident) : Bool :=
  optTest f.status (statusTest r) &&
  optTest f.severity (fun s => decide (r.severity = s)) &&
  optTest f.ruleName (fun s => decide (r.ruleName = s)) &&
  optTest f.host (fun s => r.windowState.val.activeObjects.any fun o => decide (o.val.host = s)) &&
  optTest f.service (fun s =>
    r.windowState.val.activeObjects.any fun o => decide (o.val.service = some s)) &&
  optTest f.updatedSince (fun d => decide (d.instant ≤ r.lastUpdateTime.val))

/-- The values of the filters. -/
def IncidentFilterFields.parameters (f : IncidentFilterFields) : Parameters where
  texts := f.ruleName.toList ++ f.host.toList ++ f.service.toList
  timestamps := f.updatedSince.toList

def incidentListing (readers : CursorReaders) : Listing Incident ListedIncident where
  timestamp := Incident.lastUpdateTime
  id := Incident.id
  encode := encodeIncidentCursor
  decode := decodeIncidentCursor readers
  project := Incident.listed

def listIncidents (readers : CursorReaders) (filters : IncidentListFilters)
    (t : List Incident) : Except ListError (ListPage ListedIncident) :=
  (incidentListing readers).page filters.val.parameters filters.val.limit.toNat filters.val.cursor
    filters.val.offset (t.filter filters.val.matches)

/-! ### `list_incident_events` -/

/-- `_apply_audit_filters`. -/
def AuditFilterFields.matches (f : AuditFilterFields) (r : IncidentEvent) : Bool :=
  optTest f.incidentId (fun id => r.incidentIds.contains (uuidText id)) &&
  optTest f.hasIncident (fun has =>
    if has then decide (r.incidentEffect ≠ .none) else decide (r.incidentEffect = .none)) &&
  optTest f.fingerprint (fun s => decide (r.fingerprint = s)) &&
  optTest f.sourceId (fun s => decide (r.sourceId = s)) &&
  optTest f.eventType (fun e => decide (r.eventType = e)) &&
  optTest f.incidentEffect (fun e => decide (r.incidentEffect = e)) &&
  optTest f.noDispatchReason (fun s =>
    decide (astext r.decisionSummary.fields "no_dispatch_reason" = some s)) &&
  optTest f.severity (fun s => decide (r.severity = s)) &&
  optTest f.host (fun s => decide (r.host = s)) &&
  optTest f.service (fun s => decide (r.service = some s)) &&
  optTest f.acceptedSince (fun d => decide (d.instant ≤ r.acceptedAt.val)) &&
  optTest f.acceptedUntil (fun d => decide (r.acceptedAt.val < d.instant)) &&
  optTest f.eventTimestampSince (fun d => decide (d.instant ≤ r.eventTimestamp.val)) &&
  optTest f.eventTimestampUntil (fun d => decide (r.eventTimestamp.val < d.instant))

def AuditFilterFields.parameters (f : AuditFilterFields) : Parameters where
  texts := f.fingerprint.toList ++ f.sourceId.toList ++ f.noDispatchReason.toList ++
    f.host.toList ++ f.service.toList
  timestamps := f.acceptedSince.toList ++ f.acceptedUntil.toList ++
    f.eventTimestampSince.toList ++ f.eventTimestampUntil.toList

def auditListing (readers : CursorReaders) : Listing IncidentEvent AuditEventListRow where
  timestamp := IncidentEvent.acceptedAt
  id := IncidentEvent.id
  encode := encodeAuditCursor
  decode := decodeAuditCursor readers
  project := rowToAuditEventListRow

def listIncidentEvents (readers : CursorReaders) (filters : AuditEventListFilters)
    (events : List IncidentEvent) : Except ListError (ListPage AuditEventListRow) :=
  (auditListing readers).page filters.val.parameters filters.val.limit.toNat filters.val.cursor
    filters.val.offset (events.filter filters.val.matches)

end Correlia
