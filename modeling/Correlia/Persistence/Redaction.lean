import Correlia.Lib.Json
import Correlia.Lib.Model

/-!
# Persistence.Redaction — the stored payload snapshot (`app/persistence/audit.py`)

The keyed HMAC-SHA256 is a parameter: a function of the key and the message to its digest.
-/

namespace Correlia

open Lib

def redactionVersion : ℕ := 2

def auditRedactionPlaceholder : String := "[redacted]"

def auditSensitiveFragments : List String :=
  ["raw_payload", "payload", "credential", "password", "token", "secret", "plugin_config", "api_key",
   "apikey", "auth"]

/-- `_contains_sensitive_fragment`. -/
def containsSensitiveFragment (text : String) : Bool :=
  auditSensitiveFragments.any fun f => hasFragment f text

/-- The test of a key, which is lowered before the test lowers it again. -/
def sensitiveKey (key : String) : Bool := containsSensitiveFragment (String.ofList (lower key))

/-! ### Redacting -/

mutual

/-- `_redact_value`. -/
def redactValue : Json → Json
  | .object fields => .object (redactFields fields)
  | .array items => .array (redactItems items)
  | .string s =>
    .string (if containsSensitiveFragment s then auditRedactionPlaceholder else s)
  | j => j

def redactItems : List Json → List Json
  | [] => []
  | item :: rest => redactValue item :: redactItems rest

def redactFields : List (String × Json) → List (String × Json)
  | [] => []
  | (key, sub) :: rest =>
    (key, if sensitiveKey key then .string auditRedactionPlaceholder else redactValue sub) ::
      redactFields rest

end

/-- `original != redacted`, where the two are scalars of one type. -/
def scalarNe : Json → Json → Bool
  | .null, .null => false
  | .bool a, .bool b => decide (a ≠ b)
  | .int a, .int b => decide (a ≠ b)
  | .float a, .float b => decide (a ≠ b)
  | .string a, .string b => decide (a ≠ b)
  | _, _ => true

mutual

/-- `_count_redacted_leaves`. -/
def countRedactedLeaves : Json → Json → ℕ
  | .object fields, .object redacted => countRedactedFields fields redacted
  | .array items, .array redacted => countRedactedItems items redacted
  | original, redacted => if scalarNe original redacted then 1 else 0

def countRedactedItems : List Json → List Json → ℕ
  | original :: rest, redacted :: rest' =>
    countRedactedLeaves original redacted + countRedactedItems rest rest'
  | _, _ => 0

def countRedactedFields : List (String × Json) → List (String × Json) → ℕ
  | [], _ => 0
  | (key, sub) :: rest, redacted =>
    (if sensitiveKey key then 1 else countRedactedLeaves sub ((getItem key redacted).getD sub)) +
      countRedactedFields rest redacted

end

/-! ### The size cap -/

/-- `len(canonical_json_bytes(value))`. -/
def canonicalBytes (value : Json) : ℕ := byteLength value.canonicalJson

/-- `(-field[0], field[1])`. -/
def capRank (field : ℤ × String) : ℤ ×ₗ String := toLex (-field.1, field.2)

/-- The removal loop: the fields left to try, the length kept up to date, the payload. -/
def capLoop (maxBytes : ℤ) : List (ℤ × String) → ℤ → List (String × Json) → List (String × Json)
  | [], _, payload => payload
  | (fieldBytes, key) :: rest, stored, payload =>
    if stored ≤ maxBytes then payload
    else capLoop maxBytes rest (stored - (fieldBytes + if 1 < payload.length then 1 else 0))
      (payload.filter fun e => decide (e.1 ≠ key))

/-- What `_semantic_cap_payload` returns. -/
structure CappedPayload where
  payload : List (String × Json)
  truncated : Bool
  storedByteLength : ℕ

/-- `_semantic_cap_payload`. -/
def semanticCapPayload (payload : List (String × Json)) (maxBytes : ℤ) : CappedPayload :=
  let stored := canonicalBytes (.object payload)
  if stored ≤ maxBytes then ⟨payload, false, stored⟩
  else
    let fields := sortBy capRank
      (payload.map fun e => ((canonicalBytes (.object [e]) : ℤ) - 2, e.1))
    let capped := capLoop maxBytes fields stored payload
    ⟨capped, true, canonicalBytes (.object capped)⟩

/-! ### `redact_payload` -/

/-- A JSON object: a Python `dict` tree. -/
structure JsonDict where
  fields : List (String × Json)
  distinct : (Json.object fields).Distinct

structure RedactedPayload where
  payload : List (String × Json)
  originalByteLength : ℕ
  storedByteLength : ℕ
  truncated : Bool
  redactionVersion : ℕ
  redactedPathCount : ℕ
  payloadHmac : HexDigest

/-- `_coerce_hmac_key`. -/
def coerceHmacKey (hmacKey : String) : Except InputError String :=
  if hmacKey = "" then .error (.value "audit_raw_payload_hmac_key must be non-empty")
  else .ok hmacKey

/-- The payload for `None`. -/
def emptyPayload : JsonDict := ⟨[], .object List.nodup_nil (by simp)⟩

/-- `redact_payload`. -/
def redactPayload (hmac : String → List Char → HexDigest) (payload : Option JsonDict)
    (maxBytes : ℤ) (hmacKey : String) : Except InputError RedactedPayload := do
  if maxBytes < 2 then
    throw (.value "max_bytes must be at least 2")
  let source := (payload.getD emptyPayload).fields
  let originalBytes := (Json.object source).canonicalJson
  let originalByteLength := byteLength originalBytes
  let key ← coerceHmacKey hmacKey
  let redacted := redactFields source
  let redactedPathCount := countRedactedLeaves (.object source) (.object redacted)
  let effectiveCap := min maxBytes originalByteLength
  let capped := semanticCapPayload redacted effectiveCap
  return {
    payload := capped.payload
    originalByteLength
    storedByteLength := capped.storedByteLength
    truncated := capped.truncated
    redactionVersion
    redactedPathCount
    payloadHmac := hmac key originalBytes }

end Correlia
