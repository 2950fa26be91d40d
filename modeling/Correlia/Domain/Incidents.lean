import Correlia.Domain.Events
import Correlia.Domain.Notifications

/-!
# Domain.Incidents — statuses, window state and decision context (`app/domain/incidents.py`)
-/

namespace Correlia

open Lib

def maxWindowFingerprints : ℕ := 100

inductive IncidentStatus
  | «open» | resolved | closed
deriving DecidableEq, Repr

def IncidentStatus.value : IncidentStatus → String
  | «open» => "OPEN"
  | resolved => "RESOLVED"
  | closed => "CLOSED"

/-- `validate_incident_transition`. -/
def validateIncidentTransition (current target : IncidentStatus) : Except String IncidentStatus :=
  match current, target with
  | .«open», .resolved => .ok .resolved
  | .«open», .closed => .ok .closed
  | _, _ => .error s!"cannot transition incident from {current.value} to {target.value}"

/-- Only an open incident moves, and only to a terminal status. -/
theorem validateIncidentTransition_eq_ok {current target s : IncidentStatus} :
    validateIncidentTransition current target = .ok s ↔
      current = .«open» ∧ target ≠ .«open» ∧ s = target := by
  cases current <;> cases target <;> simp [validateIncidentTransition, eq_comm]

/-! ### Incident objects and the window state -/

structure ObjectFields where
  host : String
  service : Option String
deriving DecidableEq

def ObjectFields.errors (o : ObjectFields) : List FieldError :=
  strErrors 1 256 "host" o.host ++ optErrors (strErrors 1 256 "service") o.service

abbrev IncidentObject := Checked ObjectFields.errors

/-- `(obj.host, obj.service or "")`. -/
def IncidentObject.sortKey (o : IncidentObject) : String ×ₗ String :=
  toLex (o.val.host, o.val.service.getD "")

theorem IncidentObject.bounds (o : IncidentObject) :
    (1 ≤ o.val.host.length ∧ o.val.host.length ≤ 256) ∧
      ∀ s ∈ o.val.service, 1 ≤ s.length ∧ s.length ≤ 256 := by
  have := o.valid
  simpa only [ObjectFields.errors, List.append_eq_nil_iff, strErrors_eq_nil,
    optErrors_eq_nil] using this

theorem IncidentObject.service_ne_empty (o : IncidentObject) : o.val.service ≠ some "" := fun h =>
  absurd (o.bounds.2 _ h).1 (by decide)

/-- No service is the empty string, so the sort key tells objects apart. -/
theorem IncidentObject.sortKey_injective : Function.Injective IncidentObject.sortKey := by
  intro o o' e
  obtain ⟨hh, hs⟩ := Prod.mk.inj (toLex.injective e)
  have ho := o.service_ne_empty
  have ho' := o'.service_ne_empty
  refine Checked.ext ?_
  cases hv : o.val with
  | mk host service =>
    cases hv' : o'.val with
    | mk host' service' =>
      rw [hv, hv'] at hh hs
      rw [hv] at ho
      rw [hv'] at ho'
      obtain rfl : host = host' := hh
      cases service with
      | none =>
        cases service' with
        | none => rfl
        | some s' => exact absurd (congrArg some hs.symm) ho'
      | some s =>
        cases service' with
        | none => exact absurd (congrArg some hs) ho
        | some s' =>
          obtain rfl : s = s' := hs
          rfl

/-- The fields of a window state, with its times as datetimes, as JSON text or as instants. -/
structure WindowFields (T : Type) where
  windowStartedAt : T
  windowEndedAt : T
  windowSeconds : ℕ
  thresholdCount : ℕ
  countedFingerprintTimestamps : Dict String T
  countedCount : ℕ
  maxSize : ℕ
  activeObjects : List IncidentObject

/-- Its times converted. -/
def WindowFields.map {T T' : Type} (f : T → T') (w : WindowFields T) : WindowFields T' where
  windowStartedAt := f w.windowStartedAt
  windowEndedAt := f w.windowEndedAt
  windowSeconds := w.windowSeconds
  thresholdCount := w.thresholdCount
  countedFingerprintTimestamps := w.countedFingerprintTimestamps.map f
  countedCount := w.countedCount
  maxSize := w.maxSize
  activeObjects := w.activeObjects

def WindowFields.errors {T : Type} (w : WindowFields T) : List FieldError :=
  check (decide (1 ≤ w.windowSeconds)) "window_seconds" .greaterThanEqual ++
  check (decide (1 ≤ w.thresholdCount)) "threshold_count" .greaterThanEqual ++
  thenErrors
    (itemErrors (fun e => strErrors 1 256 "counted_fingerprint_timestamps" e.1)
      w.countedFingerprintTimestamps.entries)
    (check (decide (w.countedFingerprintTimestamps.size ≤ maxWindowFingerprints))
      "counted_fingerprint_timestamps" .tooLong) ++
  thenErrors (check (decide (1 ≤ w.maxSize)) "max_size" .greaterThanEqual)
    (check (decide (w.maxSize ≤ maxWindowFingerprints)) "max_size" .lessThanEqual)

/-- Nothing is checked of the times. -/
theorem WindowFields.errors_map {T T' : Type} (f : T → T') (w : WindowFields T) :
    (w.map f).errors = w.errors := by
  have hitems : itemErrors (fun e : String × T' => strErrors 1 256 "counted_fingerprint_timestamps" e.1)
      (w.countedFingerprintTimestamps.map f).entries =
        itemErrors (fun e : String × T => strErrors 1 256 "counted_fingerprint_timestamps" e.1)
          w.countedFingerprintTimestamps.entries := by
    unfold itemErrors Dict.map
    rw [List.flatMap_map]
  unfold errors map
  dsimp only
  rw [hitems, Dict.size_map]

/-- What passes the checks of a window state. -/
structure WindowFields.Sound {T : Type} (w : WindowFields T) : Prop where
  windowSeconds : 1 ≤ w.windowSeconds
  thresholdCount : 1 ≤ w.thresholdCount
  fingerprints : ∀ e ∈ w.countedFingerprintTimestamps.entries, 1 ≤ e.1.length ∧ e.1.length ≤ 256
  size : w.countedFingerprintTimestamps.size ≤ maxWindowFingerprints
  maxSize : 1 ≤ w.maxSize ∧ w.maxSize ≤ maxWindowFingerprints

theorem WindowFields.errors_eq_nil {T : Type} {w : WindowFields T} : w.errors = [] ↔ w.Sound := by
  simp only [errors, List.append_eq_nil_iff, thenErrors_eq_nil, check_eq_nil, decide_eq_true_eq,
    itemErrors_eq_nil, strErrors_eq_nil]
  constructor
  · rintro ⟨⟨⟨h1, h2⟩, h3, h4⟩, h5⟩
    exact ⟨h1, h2, h3, h4, h5⟩
  · intro h
    exact ⟨⟨⟨h.windowSeconds, h.thresholdCount⟩, h.fingerprints, h.size⟩, h.maxSize⟩

abbrev IncidentWindowState := Checked (@WindowFields.errors Datetime)

/-- What the `window_state` column holds. -/
abbrev WindowStateJson := Checked (@WindowFields.errors Timestamp)

/-- `_window_state_dump`. -/
def IncidentWindowState.dump (w : IncidentWindowState) : WindowStateJson :=
  ⟨w.val.map Datetime.dump, (WindowFields.errors_map _ _).trans w.valid⟩

/-- `_window_state_from_json`: what was dumped validates again. -/
def windowStateFromJson (w : WindowStateJson) : IncidentWindowState :=
  ⟨w.val.map Timestamp.toDatetime, (WindowFields.errors_map _ _).trans w.valid⟩

/-- `state.model_copy(update={"active_objects": objs})`: nothing is checked again. -/
def IncidentWindowState.withActiveObjects (w : IncidentWindowState) (objs : List IncidentObject) :
    IncidentWindowState :=
  ⟨{ w.val with activeObjects := objs }, w.valid⟩

/-! ### Notes -/

def forbiddenNoteFragments : List String :=
  ["raw_payload", "payload", "credential", "password", "token", "secret", "plugin_config"]

/-- No forbidden fragment occurs in the lower-cased text. -/
def isClean (text : String) : Bool := forbiddenNoteFragments.all fun f => !hasFragment f text

/-- `reject_secret_note_content`: false where it raises. -/
def rejectSecretNoteContent (notes : List (String × String)) : Bool :=
  notes.all fun n => isClean n.1 && isClean n.2

/-- `reject_operator_action_text`: false where it raises. -/
def rejectOperatorActionText (value : String) : Bool :=
  rejectSecretNoteContent [("operator_action", value)]

def secretNoteMessage : String := "decision context notes must not contain raw payloads or secrets"

/-- A key of an object in a `jsonb` value, which keeps its keys by length, then by bytes. -/
@[ext] structure JsonKey where
  text : String
deriving DecidableEq

instance : LinearOrder JsonKey :=
  LinearOrder.lift' (fun k => (toLex (k.text.utf8ByteSize, k.text) : ℕ ×ₗ String))
    fun _ _ h => JsonKey.ext (Prod.mk.inj (toLex.injective h)).2

/-- The field `notes`, then the validator `reject_secret_note_content`. -/
def notesErrors (notes : Dict JsonKey String) : List FieldError :=
  thenErrors
    (thenErrors
      (itemErrors (fun e => tagKeyErrors "notes" e.1.text ++ tagValueErrors "notes" e.2)
        notes.entries)
      (check (decide (notes.size ≤ 20)) "notes" .tooLong))
    (check (rejectSecretNoteContent (notes.entries.map fun e => (e.1.text, e.2))) "notes"
      (.valueError secretNoteMessage))

/-- What a note must be: a tag key and a tag value without a forbidden fragment. -/
def NoteOk (key value : String) : Prop :=
  (1 ≤ key.length ∧ matchesTagKey key = true) ∧ (1 ≤ value.length ∧ value.length ≤ 256) ∧
    isClean key = true ∧ isClean value = true

instance (key value : String) : Decidable (NoteOk key value) := inferInstanceAs (Decidable (_ ∧ _))

theorem rejectSecretNoteContent_eq_true {notes : List (String × String)} :
    rejectSecretNoteContent notes = true ↔ ∀ n ∈ notes, isClean n.1 = true ∧ isClean n.2 = true := by
  rw [rejectSecretNoteContent, List.all_eq_true]
  exact forall₂_congr fun n _ => Bool.and_eq_true_iff

theorem notesErrors_eq_nil {notes : Dict JsonKey String} :
    notesErrors notes = [] ↔ (∀ e ∈ notes.entries, NoteOk e.1.text e.2) ∧ notes.size ≤ 20 := by
  rw [notesErrors, thenErrors_eq_nil, thenErrors_eq_nil, itemErrors_eq_nil, check_eq_nil,
    check_eq_nil, decide_eq_true_eq, rejectSecretNoteContent_eq_true]
  constructor
  · rintro ⟨⟨hitem, hsize⟩, hclean⟩
    refine ⟨fun e he => ?_, hsize⟩
    obtain ⟨hkey, hvalue⟩ := List.append_eq_nil_iff.mp (hitem e he)
    exact ⟨tagKeyErrors_eq_nil.mp hkey, tagValueErrors_eq_nil.mp hvalue,
      hclean (e.1.text, e.2) (List.mem_map.mpr ⟨e, he, rfl⟩)⟩
  · rintro ⟨hok, hsize⟩
    refine ⟨⟨fun e he => ?_, hsize⟩, fun n hn => ?_⟩
    · obtain ⟨hkey, hvalue, -⟩ := hok e he
      exact List.append_eq_nil_iff.mpr
        ⟨tagKeyErrors_eq_nil.mpr hkey, tagValueErrors_eq_nil.mpr hvalue⟩
    · obtain ⟨e, he, rfl⟩ := List.mem_map.mp hn
      exact (hok e he).2.2

/-! ### Decision context -/

structure ContextFields where
  fingerprint : Option String
  sourceId : Option String
  ruleName : Option String
  groupKey : Option String
  matchedRuleNames : List String
  enrichmentRefs : List String
  eventCount : Option ℕ
  configHash : Option String
  notes : Dict JsonKey String
  thresholdCount : Option ℕ
  countedCount : Option ℕ
  thresholdCrossed : Option Bool
  firstThresholdTransition : Option Bool
  replay : Option Bool
  actionNames : List String
  notificationDeliveryResults : List NotificationDeliveryRecord

/-- `BoundedStringTuple`. -/
def stringTupleErrors (loc : String) (l : List String) : List FieldError :=
  thenErrors (check (decide (l.length ≤ 20)) loc .tooLong) (itemErrors (strErrors 1 256 loc) l)

/-- The field `notification_delivery_results`, then `require_unique_delivery_plugins`. -/
def deliveryErrors (l : List NotificationDeliveryRecord) : List FieldError :=
  thenErrors (check (decide (l.length ≤ 20)) "notification_delivery_results" .tooLong)
    (check (decide ((l.map fun r => r.pluginName).Nodup)) "notification_delivery_results"
      (.valueError "notification delivery records must have unique plugins"))

def ContextFields.errors (c : ContextFields) : List FieldError :=
  optErrors (strErrors 1 256 "fingerprint") c.fingerprint ++
  optErrors (strErrors 1 256 "source_id") c.sourceId ++
  optErrors (strErrors 1 256 "rule_name") c.ruleName ++
  optErrors (strErrors 1 256 "group_key") c.groupKey ++
  stringTupleErrors "matched_rule_names" c.matchedRuleNames ++
  stringTupleErrors "enrichment_refs" c.enrichmentRefs ++
  optErrors (fun s => check (decide (s.length ≤ 128)) "config_hash" .stringTooLong) c.configHash ++
  notesErrors c.notes ++
  optErrors (fun n => check (decide (1 ≤ n)) "threshold_count" .greaterThanEqual)
    c.thresholdCount ++
  stringTupleErrors "action_names" c.actionNames ++
  deliveryErrors c.notificationDeliveryResults

/-- `BoundedString`. -/
def Bounded (s : String) : Prop := 1 ≤ s.length ∧ s.length ≤ 256

/-- What passes the checks of a decision context. -/
structure ContextFields.Sound (c : ContextFields) : Prop where
  fingerprint : ∀ s ∈ c.fingerprint, Bounded s
  sourceId : ∀ s ∈ c.sourceId, Bounded s
  ruleName : ∀ s ∈ c.ruleName, Bounded s
  groupKey : ∀ s ∈ c.groupKey, Bounded s
  matchedRuleNames : c.matchedRuleNames.length ≤ 20 ∧ ∀ s ∈ c.matchedRuleNames, Bounded s
  enrichmentRefs : c.enrichmentRefs.length ≤ 20 ∧ ∀ s ∈ c.enrichmentRefs, Bounded s
  configHash : ∀ s ∈ c.configHash, s.length ≤ 128
  notes : notesErrors c.notes = []
  thresholdCount : ∀ n ∈ c.thresholdCount, 1 ≤ n
  actionNames : c.actionNames.length ≤ 20 ∧ ∀ s ∈ c.actionNames, Bounded s
  deliveries : deliveryErrors c.notificationDeliveryResults = []

theorem stringTupleErrors_eq_nil {loc : String} {l : List String} :
    stringTupleErrors loc l = [] ↔ l.length ≤ 20 ∧ ∀ s ∈ l, Bounded s := by
  simp only [stringTupleErrors, thenErrors_eq_nil, check_eq_nil, decide_eq_true_eq,
    itemErrors_eq_nil, strErrors_eq_nil, Bounded]

theorem ContextFields.errors_eq_nil {c : ContextFields} : c.errors = [] ↔ c.Sound := by
  simp only [errors, List.append_eq_nil_iff, optErrors_eq_nil, strErrors_eq_nil, check_eq_nil,
    decide_eq_true_eq, stringTupleErrors_eq_nil]
  constructor
  · rintro ⟨⟨⟨⟨⟨⟨⟨⟨⟨⟨h1, h2⟩, h3⟩, h4⟩, h5⟩, h6⟩, h7⟩, h8⟩, h9⟩, h10⟩, h11⟩
    exact ⟨h1, h2, h3, h4, h5, h6, h7, h8, h9, h10, h11⟩
  · intro h
    exact ⟨⟨⟨⟨⟨⟨⟨⟨⟨⟨h.fingerprint, h.sourceId⟩, h.ruleName⟩, h.groupKey⟩, h.matchedRuleNames⟩,
      h.enrichmentRefs⟩, h.configHash⟩, h.notes⟩, h.thresholdCount⟩, h.actionNames⟩, h.deliveries⟩

abbrev DecisionContext := Checked ContextFields.errors

/-- A JSON object for a decision context: every key may be missing, a nullable one may be null. -/
structure ContextData where
  fingerprint : Option (Option String) := none
  sourceId : Option (Option String) := none
  ruleName : Option (Option String) := none
  groupKey : Option (Option String) := none
  matchedRuleNames : Option (List String) := none
  enrichmentRefs : Option (List String) := none
  eventCount : Option (Option ℕ) := none
  configHash : Option (Option String) := none
  notes : Option (Dict JsonKey String) := none
  thresholdCount : Option (Option ℕ) := none
  countedCount : Option (Option ℕ) := none
  thresholdCrossed : Option (Option Bool) := none
  firstThresholdTransition : Option (Option Bool) := none
  replay : Option (Option Bool) := none
  actionNames : Option (List String) := none
  notificationDeliveryResults : Option (List NotificationDeliveryRecord) := none

/-- The fields with the model's defaults for the missing keys. -/
def ContextData.fill (d : ContextData) : ContextFields where
  fingerprint := d.fingerprint.getD none
  sourceId := d.sourceId.getD none
  ruleName := d.ruleName.getD none
  groupKey := d.groupKey.getD none
  matchedRuleNames := d.matchedRuleNames.getD []
  enrichmentRefs := d.enrichmentRefs.getD []
  eventCount := d.eventCount.getD none
  configHash := d.configHash.getD none
  notes := d.notes.getD Dict.empty
  thresholdCount := d.thresholdCount.getD none
  countedCount := d.countedCount.getD none
  thresholdCrossed := d.thresholdCrossed.getD none
  firstThresholdTransition := d.firstThresholdTransition.getD none
  replay := d.replay.getD none
  actionNames := d.actionNames.getD []
  notificationDeliveryResults := d.notificationDeliveryResults.getD []

/-- `model_dump(mode="json")`: every key. -/
def ContextFields.dump (c : ContextFields) : ContextData where
  fingerprint := some c.fingerprint
  sourceId := some c.sourceId
  ruleName := some c.ruleName
  groupKey := some c.groupKey
  matchedRuleNames := some c.matchedRuleNames
  enrichmentRefs := some c.enrichmentRefs
  eventCount := some c.eventCount
  configHash := some c.configHash
  notes := some c.notes
  thresholdCount := some c.thresholdCount
  countedCount := some c.countedCount
  thresholdCrossed := some c.thresholdCrossed
  firstThresholdTransition := some c.firstThresholdTransition
  replay := some c.replay
  actionNames := some c.actionNames
  notificationDeliveryResults := some c.notificationDeliveryResults

@[simp] theorem ContextFields.fill_dump (c : ContextFields) : c.dump.fill = c := rfl

/-- `DecisionContext.model_validate(data)`. -/
def DecisionContext.modelValidate (d : ContextData) : Except (List FieldError) DecisionContext :=
  Lib.modelValidate ContextFields.errors d.fill

/-- What is dumped validates again, to itself. -/
theorem DecisionContext.modelValidate_dump (c : DecisionContext) :
    DecisionContext.modelValidate c.val.dump = .ok c := modelValidate_eq_ok.mpr rfl

/-- Every default passes its own check. -/
theorem ContextData.fill_empty_errors : (ContextData.fill {}).errors = [] := by decide

/-! ### List filters -/

inductive IncidentStatusFilter
  | «open» | acknowledged | resolved | closed
deriving DecidableEq, Repr

structure IncidentFilterFields where
  status : Option IncidentStatusFilter := none
  severity : Option Severity := none
  ruleName : Option String := none
  host : Option String := none
  service : Option String := none
  updatedSince : Option Datetime := none
  limit : ℤ := 50
  cursor : Option String := none
  offset : Option ℤ := none

/-- The fields `limit`, `cursor` and `offset` of a list request. -/
def pageErrors (limit : ℤ) (cursor : Option String) (offset : Option ℤ) : List FieldError :=
  thenErrors (check (decide (1 ≤ limit)) "limit" .greaterThanEqual)
    (check (decide (limit ≤ 200)) "limit" .lessThanEqual) ++
  optErrors (strErrors 1 512 "cursor") cursor ++
  optErrors (fun n => check (decide (0 ≤ n)) "offset" .greaterThanEqual) offset

theorem pageErrors_eq_nil {limit : ℤ} {cursor : Option String} {offset : Option ℤ} :
    pageErrors limit cursor offset = [] ↔ (1 ≤ limit ∧ limit ≤ 200) ∧
      (∀ s ∈ cursor, 1 ≤ s.length ∧ s.length ≤ 512) ∧ ∀ n ∈ offset, 0 ≤ n := by
  simp [pageErrors, and_assoc]

def IncidentFilterFields.errors (f : IncidentFilterFields) : List FieldError :=
  optErrors (strErrors 1 256 "rule_name") f.ruleName ++
  optErrors (strErrors 1 256 "host") f.host ++
  optErrors (strErrors 1 256 "service") f.service ++
  pageErrors f.limit f.cursor f.offset

abbrev IncidentListFilters := Checked IncidentFilterFields.errors

/-! ### Operator requests -/

structure AckFields where
  operator : String

/-- The field `operator`, then `reject_secret_text`. -/
def operatorErrors (operator : String) : List FieldError :=
  thenErrors (strErrors 1 128 "operator" operator)
    (check (rejectOperatorActionText operator) "operator" (.valueError secretNoteMessage))

def AckFields.errors (a : AckFields) : List FieldError := operatorErrors a.operator

abbrev IncidentAckRequest := Checked AckFields.errors

structure CloseFields where
  operator : String
  reason : String

def CloseFields.errors (c : CloseFields) : List FieldError :=
  operatorErrors c.operator ++
    thenErrors (strErrors 1 256 "reason" c.reason)
      (check (rejectOperatorActionText c.reason) "reason" (.valueError secretNoteMessage))

abbrev IncidentCloseRequest := Checked CloseFields.errors

end Correlia
