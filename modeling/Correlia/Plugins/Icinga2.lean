import Correlia.Domain.Events

/-!
# Plugins.Icinga2 — the Icinga2 input plugin (`app/plugins/inputs/icinga2.py`)

SHA-256 is a parameter: a function from the hashed text to its hexadecimal digest.
-/

namespace Correlia

open Lib

inductive StateType
  | hard | soft
deriving DecidableEq, Repr

/-- `_ICINGA_HOST_STATES`. -/
def icingaHostStates : List (String × Severity × EventType) :=
  [("UP", .ok, .recovery), ("DOWN", .critical, .problem), ("UNREACHABLE", .unknown, .problem)]

/-- `_ICINGA_SERVICE_STATES`. -/
def icingaServiceStates : List (String × Severity × EventType) :=
  [("OK", .ok, .recovery), ("WARNING", .warning, .problem), ("CRITICAL", .critical, .problem),
   ("UNKNOWN", .unknown, .problem)]

def icingaStates (isHost : Bool) : List (String × Severity × EventType) :=
  if isHost then icingaHostStates else icingaServiceStates

/-! ### The payload -/

/-- The fields of a payload whose timestamp has been parsed to an aware datetime. -/
structure PayloadFields where
  sourceId : String
  host : String
  service : Option String
  state : String
  stateType : StateType
  timestamp : Datetime
  checkOutput : String
  ipAddress : Option String
  tags : Items String String

/-- `validate_state_against_object_type`. -/
def PayloadFields.stateErrors (p : PayloadFields) : List FieldError :=
  let isHost := p.service.isNone
  let allowed := if isHost then "DOWN, UNREACHABLE, UP" else "CRITICAL, OK, UNKNOWN, WARNING"
  check (decide (p.state ∈ (icingaStates isHost).map Prod.fst)) "state"
    (.valueError ("invalid state '" ++ p.state ++ "' for " ++
      (if isHost then "host" else "service") ++ " object; allowed: " ++ allowed))

def PayloadFields.errors (p : PayloadFields) : List FieldError :=
  thenErrors
    (strErrors 1 256 "source_id" p.sourceId ++
      strErrors 1 256 "host" p.host ++
      optErrors (strErrors 1 256 "service") p.service ++
      check (decide (1 ≤ p.checkOutput.length)) "check_output" .stringTooShort ++
      optErrors (fun s => check (decide (1 ≤ s.length)) "ip_address" .stringTooShort) p.ipAddress ++
      eventTagsErrors p.tags)
    p.stateErrors

abbrev Icinga2WebhookPayload := Checked PayloadFields.errors

structure RejectionFields where
  reason : String
  sourceId : String
  host : String
  service : Option String
  state : String
  stateType : StateType

def RejectionFields.errors (r : RejectionFields) : List FieldError :=
  check (decide (1 ≤ r.reason.length)) "reason" .stringTooShort ++
  check (decide (1 ≤ r.sourceId.length)) "source_id" .stringTooShort ++
  check (decide (1 ≤ r.host.length)) "host" .stringTooShort ++
  optErrors (fun s => check (decide (1 ≤ s.length)) "service" .stringTooShort) r.service

abbrev Icinga2Rejection := Checked RejectionFields.errors

/-! ### Processing -/

/-- `map_icinga_state`. -/
def mapIcingaState (state : String) (isHost : Bool) : Except InputError (Severity × EventType) :=
  orThrow (.value ("Unknown Icinga2 state: " ++ state)) (getItem state (icingaStates isHost))

/-- `fingerprint_icinga_event`. -/
def fingerprintIcingaEvent (sha256 : String → HexDigest) (sourceId host : String)
    (service : Option String) (eventType : EventType) (severity : Severity) : String :=
  let parts := [sourceId, host, eventType.value, severity.value] ++ service.toList
  takeText 32 (sha256 ("|".intercalate parts)).val

/-- The event data of a payload whose state means this severity and event type. -/
def eventData (sha256 : String → HexDigest) (p : PayloadFields) (severity : Severity)
    (eventType : EventType) : EventData where
  fingerprint := fingerprintIcingaEvent sha256 p.sourceId p.host p.service eventType severity
  sourceId := p.sourceId
  host := p.host
  service := p.service
  severity := severity
  eventType := eventType
  timestamp := p.timestamp
  tags := p.tags
  message := p.checkOutput
  ipAddress := p.ipAddress

inductive PayloadOutcome
  | event (event : NormalizedEvent)
  | rejection (rejection : Icinga2Rejection)

/-- `Icinga2InputPlugin.process_payload` on a validated payload. -/
def processPayload (sha256 : String → HexDigest) (payload : Icinga2WebhookPayload) :
    Except InputError PayloadOutcome := do
  let p := payload.val
  if p.stateType = .soft then
    let rejection ← liftError (.validation "Icinga2Rejection") (modelValidate RejectionFields.errors
      ⟨"SOFT state is non-actionable", p.sourceId, p.host, p.service, p.state, p.stateType⟩)
    return .rejection rejection
  let (severity, eventType) ← mapIcingaState p.state p.service.isNone
  let event ← liftError (.validation "NormalizedEvent")
    (modelValidate EventData.errors (eventData sha256 p severity eventType))
  return .event event

end Correlia
