import Correlia.Persistence.Upsert

/-!
# Persistence.Context — what is written into `decision_context` (`app/persistence/incidents.py`)

`_normalizable_decision_context` turns JSON arrays into tuples and is the identity here.
-/

namespace Correlia

open Lib

/-- `DecisionContext.model_validate(data).model_dump(mode="json")`. -/
def normalizeContext (d : ContextData) : Except OpError ContextData := do
  let c ← liftError (.validation "DecisionContext") (DecisionContext.modelValidate d)
  return c.val.dump

/-- A JSON object that validates as a decision context. -/
def ContextData.Valid (d : ContextData) : Prop := d.fill.errors = []

theorem normalizeContext_eq_ok {d d' : ContextData} :
    normalizeContext d = .ok d' ↔ d.Valid ∧ d' = d.fill.dump := by
  rw [normalizeContext, bind_eq_ok]
  constructor
  · rintro ⟨c, hc, hd⟩
    rw [liftError_eq_ok, DecisionContext.modelValidate, modelValidate_eq_ok] at hc
    cases hd
    rw [ContextData.Valid, ← hc]
    exact ⟨c.valid, rfl⟩
  · rintro ⟨hv, rfl⟩
    exact ⟨⟨d.fill, hv⟩, liftError_eq_ok.mpr (modelValidate_of_valid hv), rfl⟩

/-- `_decision_context_dump`. -/
def decisionContextDump (i : IncidentUpsertInput) : ContextData :=
  match i.decisionContext with
  | none => {}
  | some c =>
    if c.val.notificationDeliveryResults = [] then
      { c.val.dump with notificationDeliveryResults := none }
    else c.val.dump

/-- `_preserve_notification_delivery_results`. -/
def preserveNotificationDeliveryResults (existing incoming : ContextData) :
    Except OpError ContextData :=
  match existing.notificationDeliveryResults with
  | none => .ok incoming
  | some records => normalizeContext { incoming with notificationDeliveryResults := some records }

/-! ### Notification results -/

def safeNotificationMessages : List String :=
  ["configured output plugin is missing", "notification dispatched", "notification plugin failed",
   "notification result redacted", "notification task runner is unavailable",
   "notification task submission failed", "stale plugin configuration"]

/-- `_safe_delivery_result`. -/
def safeDeliveryResult (result : NotificationResult) : NotificationResult :=
  if result.message.val ∈ safeNotificationMessages then result
  else { result with message := ⟨"notification result redacted", by decide⟩ }

/-- `NotificationDeliveryRecord(plugin_name=..., result=...)`. -/
def NotificationDeliveryRecord.validate (pluginName : String) (result : NotificationResult) :
    Except OpError NotificationDeliveryRecord := do
  let name ← liftError (.validation "NotificationDeliveryRecord")
    (BoundedString.validate "plugin_name" pluginName)
  return ⟨name, result⟩

/-- `_validated_notification_context`. -/
def validatedNotificationContext (context : ContextData) (pluginName : String)
    (result : NotificationResult) : Except OpError ContextData := do
  let existing ← liftError (.validation "DecisionContext") (DecisionContext.modelValidate context)
  let record ← NotificationDeliveryRecord.validate pluginName (safeDeliveryResult result)
  let recordsByPlugin : Dict BoundedString NotificationDeliveryRecord :=
    (Dict.ofItems (existing.val.notificationDeliveryResults.map fun r => (r.pluginName, r))).insert
      record.pluginName record
  normalizeContext { existing.val.dump with
    notificationDeliveryResults := some (recordsByPlugin.entries.map Prod.snd) }

/-! ### Lifecycle notes -/

/-- The keyword arguments of `_lifecycle_notes` and `_lifecycle_context`. -/
structure LifecycleArgs where
  reason : String
  fingerprint : Option String := none
  sourceId : Option String := none
  host : Option String := none
  service : Option String := none
  recoveryTime : Option Datetime := none
  operator : Option String := none
  detail : Option String := none
  ruleName : Option String := none
  windowSeconds : Option ℕ := none
  lastUpdateTime : Option Datetime := none
  expirationTime : Option Datetime := none
  previousHostCount : ℕ := 0
  previousServiceCount : ℕ := 0

def noteTextMax : ℕ := 256

/-- `if value is not None: notes[key] = text(value)`. -/
def optNote {α : Type} (key : String) (text : α → String) : Option α → List (String × String)
  | none => []
  | some a => [(key, text a)]

/-- `_lifecycle_notes`: the keys are distinct, so the dict is the list of its items. -/
def lifecycleNotes (a : LifecycleArgs) : List (String × String) :=
  [("lifecycle.reason", a.reason),
   ("lifecycle.previous_host_count", natText a.previousHostCount),
   ("lifecycle.previous_service_count", natText a.previousServiceCount)] ++
  optNote "lifecycle.fingerprint" (takeText noteTextMax) a.fingerprint ++
  optNote "lifecycle.source_id" (takeText noteTextMax) a.sourceId ++
  optNote "lifecycle.host" (takeText noteTextMax) a.host ++
  optNote "lifecycle.service" (takeText noteTextMax) a.service ++
  optNote "lifecycle.recovery_timestamp" (fun d => takeText noteTextMax d.isoformat)
    a.recoveryTime ++
  optNote "lifecycle.operator" (takeText noteTextMax) a.operator ++
  optNote "lifecycle.detail" (takeText noteTextMax) a.detail ++
  optNote "lifecycle.rule_name" (takeText noteTextMax) a.ruleName ++
  optNote "lifecycle.window_seconds" natText a.windowSeconds ++
  optNote "lifecycle.last_update_time" (fun d => takeText noteTextMax d.isoformat)
    a.lastUpdateTime ++
  optNote "lifecycle.expired_at" (fun d => takeText noteTextMax d.isoformat) a.expirationTime

/-- `items[-n:]`: all of them for `n = 0`. -/
def lastItems {α : Type} (n : ℕ) (items : List α) : List α :=
  if n = 0 then items else items.drop (items.length - n)

/-- `key.startswith("lifecycle.")`. -/
def isLifecycleKey (key : String) : Bool := decide ("lifecycle.".toList <+: key.toList)

/-- `value or fallback` on strings. -/
def orElseText : Option String → Option String → Option String
  | some s, fallback => if s = "" then fallback else some s
  | none, fallback => fallback

/-- The notes of `_lifecycle_context`: the newest kept ones, then the lifecycle notes. -/
def mergedNotes (existing : Dict JsonKey String) (a : LifecycleArgs) : Dict JsonKey String :=
  let notes := lifecycleNotes a
  let kept := existing.entries.filter fun e => !isLifecycleKey e.1.text
  Dict.ofItems (lastItems (20 - notes.length) kept ++ notes.map fun n => (⟨n.1⟩, n.2))

/-- `_lifecycle_context`. -/
def lifecycleContext (incident : Incident) (a : LifecycleArgs) : Except OpError ContextData :=
  let candidate := incident.decisionContext
  normalizeContext { candidate with
    notes := some (mergedNotes (candidate.notes.getD Dict.empty) a)
    fingerprint := some (orElseText a.fingerprint (candidate.fingerprint.getD none))
    sourceId := some (orElseText a.sourceId (candidate.sourceId.getD none))
    eventCount := some (some incident.eventCount) }

end Correlia
