import Correlia.Lib.Timestamp
import Correlia.Lib.Model
import Correlia.Lib.Sorted

/-!
# Domain.Events — severities, event tags and the normalized event (`app/domain/events.py`)
-/

namespace Correlia

open Lib

inductive EventType
  | problem | recovery
deriving DecidableEq, Repr

def EventType.value : EventType → String
  | problem => "PROBLEM"
  | recovery => "RECOVERY"

inductive Severity
  | ok | warning | unknown | critical
deriving DecidableEq, Repr

def Severity.value : Severity → String
  | ok => "OK"
  | warning => "WARNING"
  | unknown => "UNKNOWN"
  | critical => "CRITICAL"

/-- `SEVERITY_RANK`. -/
def Severity.rank : Severity → ℕ
  | ok => 0
  | warning => 1
  | unknown => 2
  | critical => 3

theorem Severity.rank_injective : Function.Injective Severity.rank := by
  intro a b h
  cases a <;> cases b <;> first | rfl | exact absurd h (by decide)

/-! ### Tag keys and values -/

def isTagStart (c : Char) : Bool := decide ('a' ≤ c ∧ c ≤ 'z')

def isTagChar (c : Char) : Bool :=
  isTagStart c || decide ('0' ≤ c ∧ c ≤ '9') || c == '_' || c == '.' || c == '-'

/-- `^[a-z][a-z0-9_.-]*$` -/
def matchesTagKey (s : String) : Bool :=
  match s.toList with
  | [] => false
  | c :: cs => isTagStart c && cs.all isTagChar

theorem isTagChar_of_matchesTagKey {s : String} (h : matchesTagKey s = true) :
    ∀ c ∈ s.toList, isTagChar c = true := by
  unfold matchesTagKey at h
  split at h
  · cases h
  · rename_i c cs heq
    obtain ⟨hc, hcs⟩ := Bool.and_eq_true_iff.mp h
    rw [heq]
    refine List.forall_mem_cons.mpr ⟨?_, List.all_eq_true.mp hcs⟩
    simp only [isTagChar, hc, Bool.true_or]

/-- `TagKey`. -/
def tagKeyErrors (loc : String) (key : String) : List FieldError :=
  thenErrors (check (decide (1 ≤ key.length)) loc .stringTooShort)
    (check (matchesTagKey key) loc .stringPatternMismatch)

/-- `TagValue`. -/
def tagValueErrors (loc : String) (value : String) : List FieldError := strErrors 1 256 loc value

@[simp] theorem tagKeyErrors_eq_nil {loc key : String} :
    tagKeyErrors loc key = [] ↔ 1 ≤ key.length ∧ matchesTagKey key = true := by
  simp [tagKeyErrors]

@[simp] theorem tagValueErrors_eq_nil {loc value : String} :
    tagValueErrors loc value = [] ↔ 1 ≤ value.length ∧ value.length ≤ 256 := strErrors_eq_nil

def eventTagMaxKeyBytes : ℕ := 64
def eventTagMaxEntries : ℕ := 128
def eventTagMaxBytes : ℕ := 16384
def eventTagErrorMessage : String := "invalid event tags"

/-- `EventTagKey`. -/
def eventTagKeyErrors (loc : String) (key : String) : List FieldError :=
  thenErrors (strErrors 1 eventTagMaxKeyBytes loc key)
    (check (matchesTagKey key) loc .stringPatternMismatch)

/-! ### `validate_event_tags` -/

/-- UTF-8 length of one character as `json.dumps(.., ensure_ascii=False)` writes it. -/
def jsonCharBytes (c : Char) : ℕ :=
  if c = '"' ∨ c = '\\' ∨ c = '\n' ∨ c = '\r' ∨ c = '\t' ∨ c.toNat = 8 ∨ c.toNat = 12 then 2
  else if c.toNat < 32 then 6
  else c.utf8Size

/-- `len(json.dumps(s, ensure_ascii=False).encode("utf-8"))` -/
def jsonStringBytes (s : String) : ℕ := (s.toList.map jsonCharBytes).sum + 2

/-- The checks of one pair that do not depend on the bytes counted so far. -/
def eventTagPairOk (key value : String) : Bool :=
  matchesTagKey key && decide (key.length ≤ eventTagMaxKeyBytes) &&
    decide (1 ≤ value.length ∧ value.length ≤ 256) && !value.toList.contains (Char.ofNat 0)

/-- The loop over the sorted keys; `encoded` counts the bytes so far, `comma` is `index != 0`. -/
def eventTagLoop : (encoded comma : ℕ) → List (String × String) → Bool
  | _, _, [] => true
  | encoded, comma, (key, value) :: rest =>
    let encoded' := encoded + (jsonStringBytes key + 1 + jsonStringBytes value + comma)
    eventTagPairOk key value && decide (encoded' ≤ eventTagMaxBytes) &&
      eventTagLoop encoded' 1 rest

/-- `validate_event_tags`: true where it returns, false where it raises `EventTagValidationError`. -/
def validateEventTags (tags : Items String String) : Bool :=
  decide (tags.entries.length ≤ eventTagMaxEntries) &&
    eventTagLoop 2 0 (sortBy Prod.fst tags.entries)

/-- The field type `EventTags`, then the validator `require_valid_event_tags`. -/
def eventTagsErrors (tags : Items String String) : List FieldError :=
  thenErrors
    (itemErrors (fun e => eventTagKeyErrors "tags" e.1 ++ tagValueErrors "tags" e.2) tags.entries)
    (check (validateEventTags tags) "tags" (.valueError eventTagErrorMessage))

/-! ### `NormalizedEvent` -/

structure EventData where
  fingerprint : String
  sourceId : String
  host : String
  service : Option String
  severity : Severity
  eventType : EventType
  timestamp : Datetime
  tags : Items String String
  message : String
  ipAddress : Option String

def EventData.errors (d : EventData) : List FieldError :=
  check (decide (1 ≤ d.fingerprint.length)) "fingerprint" .stringTooShort ++
  check (decide (1 ≤ d.sourceId.length)) "source_id" .stringTooShort ++
  check (decide (1 ≤ d.host.length)) "host" .stringTooShort ++
  optErrors (fun s => check (decide (1 ≤ s.length)) "service" .stringTooShort) d.service ++
  eventTagsErrors d.tags ++
  strErrors 1 4096 "message" d.message ++
  optErrors (fun s => check (decide (1 ≤ s.length)) "ip_address" .stringTooShort) d.ipAddress

abbrev NormalizedEvent := Checked EventData.errors

end Correlia
