import Correlia.Lib.TopK
import Correlia.Persistence.Models

/-!
# Persistence.Upsert — the upsert input and the window state (`app/persistence/incidents.py`)

`IncidentUpsertInput` carries what `__post_init__` has checked.  `initialWindowState` and
`nextWindowState` compute the window of a new and of an existing incident.
-/

namespace Correlia

open Lib

/-! ### `IncidentUpsertInput` -/

/-- The arguments of `IncidentUpsertInput`. -/
structure UpsertArgs where
  ruleName : String
  groupKey : String
  severity : Severity
  eventTime : Datetime
  summary : String
  affectedHosts : List String
  affectedServices : List String := []
  decisionContext : Option DecisionContext := none
  fingerprint : Option String := none
  thresholdCount : ℤ := 1
  windowSeconds : ℤ := 300
  maxWindowFingerprints : ℤ := Correlia.maxWindowFingerprints

/-- An input that `__post_init__` has passed. -/
structure IncidentUpsertInput where
  ruleName : String
  groupKey : String
  severity : Severity
  eventTime : Datetime
  summary : String
  affectedHosts : List String
  affectedServices : List String
  decisionContext : Option DecisionContext
  fingerprint : String
  thresholdCount : ℕ
  windowSeconds : ℕ
  maxWindowFingerprints : ℕ
  ruleName_ok : isBlank ruleName = false
  groupKey_ok : isBlank groupKey = false
  summary_ok : isBlank summary = false
  thresholdCount_pos : 1 ≤ thresholdCount
  windowSeconds_pos : 1 ≤ windowSeconds
  max_le : maxWindowFingerprints ≤ Correlia.maxWindowFingerprints
  threshold_le : thresholdCount ≤ maxWindowFingerprints
  hosts_ne : affectedHosts ≠ []
  hosts_ok : ∀ h ∈ affectedHosts, isBlank h = false
  hosts_strict : Strict id affectedHosts
  services_ok : ∀ s ∈ affectedServices, isBlank s = false
  services_strict : Strict id affectedServices
  fingerprint_ok : isBlank fingerprint = false

/-- `f"{rule_name}:{group_key}:{event_time.isoformat()}:{summary}"` where none is given. -/
def UpsertArgs.fingerprintOr (a : UpsertArgs) : String :=
  a.fingerprint.getD
    (a.ruleName ++ ":" ++ a.groupKey ++ ":" ++ a.eventTime.isoformat ++ ":" ++ a.summary)

/-- The tests of `__post_init__` in their order, each with the message of its `ValueError`. -/
def UpsertArgs.tests (a : UpsertArgs) : List (Bool × String) :=
  let hosts := sortedSet id a.affectedHosts
  let services := sortedSet id a.affectedServices
  [(isBlank a.ruleName, "rule_name must be non-empty"),
   (isBlank a.groupKey, "group_key must be non-empty"),
   (isBlank a.summary, "summary must be non-empty"),
   (decide (a.thresholdCount < 1), "threshold_count must be a positive integer"),
   (decide (a.windowSeconds < 1), "window_seconds must be positive"),
   (decide (¬(1 ≤ a.maxWindowFingerprints ∧
      a.maxWindowFingerprints ≤ Correlia.maxWindowFingerprints)),
    "max_window_fingerprints is out of bounds"),
   (decide (a.thresholdCount > a.maxWindowFingerprints),
    "threshold_count exceeds max_window_fingerprints"),
   (hosts.isEmpty, "affected_hosts must be non-empty"),
   (hosts.any isBlank, "affected_hosts must not contain empty strings"),
   (services.any isBlank, "affected_services must not contain empty strings"),
   (isBlank a.fingerprintOr, "fingerprint must be non-empty")]

/-- The message of the first test that fires. -/
def UpsertArgs.failure (a : UpsertArgs) : Option String := (a.tests.find? Prod.fst).map Prod.snd

/-- What the arguments are when no test fires. -/
structure UpsertArgs.Passes (a : UpsertArgs) : Prop where
  ruleName : isBlank a.ruleName = false
  groupKey : isBlank a.groupKey = false
  summary : isBlank a.summary = false
  thresholdCount : 1 ≤ a.thresholdCount
  windowSeconds : 1 ≤ a.windowSeconds
  maxWindowFingerprints : a.maxWindowFingerprints ≤ Correlia.maxWindowFingerprints
  threshold_le : a.thresholdCount ≤ a.maxWindowFingerprints
  hosts_ne : a.affectedHosts ≠ []
  hosts : ∀ h ∈ a.affectedHosts, isBlank h = false
  services : ∀ s ∈ a.affectedServices, isBlank s = false
  fingerprint : isBlank a.fingerprintOr = false

theorem UpsertArgs.failure_eq_none {a : UpsertArgs} : a.failure = none ↔ a.Passes := by
  have hany : ∀ l : List String, (sortedSet id l).any isBlank = false ↔ ∀ s ∈ l, isBlank s = false := by
    intro l
    simp [List.any_eq_false]
  have hempty : ∀ l : List String, (sortedSet id l).isEmpty = false ↔ l ≠ [] := by
    intro l
    rw [List.isEmpty_eq_false_iff, Ne, sortedSet_eq_nil]
  rw [failure, Option.map_eq_none_iff, List.find?_eq_none]
  simp only [tests, List.forall_mem_cons, Bool.not_eq_true, decide_eq_false_iff_not, not_lt,
    not_not, hany, hempty, List.not_mem_nil, false_implies, implies_true, and_true, gt_iff_lt]
  constructor
  · rintro ⟨h1, h2, h3, h4, h5, h6, h7, h8, h9, h10, h11⟩
    exact ⟨h1, h2, h3, h4, h5, h6.2, h7, h8, h9, h10, h11⟩
  · intro h
    exact ⟨h.ruleName, h.groupKey, h.summary, h.thresholdCount, h.windowSeconds,
      ⟨h.thresholdCount.trans h.threshold_le, h.maxWindowFingerprints⟩, h.threshold_le, h.hosts_ne,
      h.hosts, h.services, h.fingerprint⟩

/-- The input that arguments without a failure make. -/
def UpsertArgs.accept (a : UpsertArgs) (h : a.Passes) : IncidentUpsertInput where
  ruleName := a.ruleName
  groupKey := a.groupKey
  severity := a.severity
  eventTime := a.eventTime
  summary := a.summary
  affectedHosts := sortedSet id a.affectedHosts
  affectedServices := sortedSet id a.affectedServices
  decisionContext := a.decisionContext
  fingerprint := a.fingerprintOr
  thresholdCount := a.thresholdCount.toNat
  windowSeconds := a.windowSeconds.toNat
  maxWindowFingerprints := a.maxWindowFingerprints.toNat
  ruleName_ok := h.ruleName
  groupKey_ok := h.groupKey
  summary_ok := h.summary
  thresholdCount_pos := by
    have := h.thresholdCount
    omega
  windowSeconds_pos := by
    have := h.windowSeconds
    omega
  max_le := by
    have := h.maxWindowFingerprints
    omega
  threshold_le := Int.toNat_le_toNat h.threshold_le
  hosts_ne := fun hnil => h.hosts_ne (sortedSet_eq_nil.mp hnil)
  hosts_ok := fun x hx => h.hosts x (mem_sortedSet.mp hx)
  hosts_strict := sortedSet_strict Function.injective_id
  services_ok := fun x hx => h.services x (mem_sortedSet.mp hx)
  services_strict := sortedSet_strict Function.injective_id
  fingerprint_ok := h.fingerprint

/-- `__post_init__`; the error is the message of its `ValueError`. -/
def UpsertArgs.postInit (a : UpsertArgs) : Except String IncidentUpsertInput :=
  match h : a.failure with
  | none => .ok (a.accept (failure_eq_none.mp h))
  | some message => .error message

theorem UpsertArgs.postInit_eq_ok {a : UpsertArgs} {i : IncidentUpsertInput} :
    a.postInit = .ok i ↔ ∃ h : a.Passes, i = a.accept h := by
  unfold postInit
  constructor
  · intro h
    split at h
    · rename_i hf
      cases h
      exact ⟨_, rfl⟩
    · cases h
  · rintro ⟨h, rfl⟩
    split
    · rfl
    · rename_i message hf
      rw [failure_eq_none.mpr h] at hf
      cases hf

/-- The index key of the input's incident. -/
def IncidentUpsertInput.key (i : IncidentUpsertInput) : String × String := (i.ruleName, i.groupKey)

/-! ### Incident objects of an input -/

/-- `IncidentObject(host=host, service=service)`. -/
def IncidentObject.validate (host : String) (service : Option String) :
    Except OpError IncidentObject :=
  liftError (.validation "IncidentObject") (modelValidate ObjectFields.errors ⟨host, service⟩)

@[simp] theorem IncidentObject.validate_eq_ok {host : String} {service : Option String}
    {o : IncidentObject} : IncidentObject.validate host service = .ok o ↔ o.val = ⟨host, service⟩ := by
  rw [validate, liftError_eq_ok, modelValidate_eq_ok]

/-- `input.affected_services or (None,)` -/
def IncidentUpsertInput.servicesOrNone (i : IncidentUpsertInput) : List (Option String) :=
  if i.affectedServices = [] then [none] else i.affectedServices.map some

/-- `_active_objects_from_input`. -/
def activeObjectsFromInput (i : IncidentUpsertInput) : Except OpError (List IncidentObject) :=
  (i.affectedHosts.flatMap fun h => i.servicesOrNone.map fun s => (h, s)).mapM
    fun p => IncidentObject.validate p.1 p.2

/-- The only exceptions are failed validations. -/
theorem activeObjectsFromInput_raises {P : OpError → Prop}
    (h : ∀ model errors, P (.validation model errors)) (i : IncidentUpsertInput) :
    Raises P (activeObjectsFromInput i) := by
  apply Raises.mapM
  intro p _
  exact Raises.liftError fun errors => h _ errors

/-- `_active_object_counts`. -/
def activeObjectCounts (objs : List IncidentObject) : ℕ × ℕ :=
  ((objs.map fun o => o.val.host).dedup.length,
   (objs.filterMap fun o => o.val.service).dedup.length)

def maxAffectedHosts : ℕ := 100
def maxAffectedServices : ℕ := 100

/-- `_affected_sets_from_objects`. -/
def affectedSetsFromObjects (objs : List IncidentObject) : List String × List String :=
  ((sortedSet id (objs.map fun o => o.val.host)).take maxAffectedHosts,
   (sortedSet id (objs.filterMap fun o => o.val.service)).take maxAffectedServices)

/-! ### Window states -/

/-- `(item[1], item[0])`: timestamp, then fingerprint. -/
def evictionRank (e : String × Instant) : Instant ×ₗ String := toLex (e.2, e.1)

theorem evictionRank_injective : Function.Injective evictionRank := by
  rintro ⟨f, t⟩ ⟨f', t'⟩ h
  obtain ⟨ht, hf⟩ := Prod.mk.inj (toLex.injective h)
  exact Prod.ext hf ht

/-- `IncidentWindowState(...)`. -/
def IncidentWindowState.validate (w : WindowFields Datetime) : Except OpError IncidentWindowState :=
  liftError (.validation "IncidentWindowState") (modelValidate WindowFields.errors w)

@[simp] theorem IncidentWindowState.validate_eq_ok {w : WindowFields Datetime} {s : IncidentWindowState} :
    IncidentWindowState.validate w = .ok s ↔ s.val = w := by
  rw [validate, liftError_eq_ok, modelValidate_eq_ok]

theorem IncidentWindowState.validate_raises {P : OpError → Prop}
    (h : ∀ model errors, P (.validation model errors)) (w : WindowFields Datetime) :
    Raises P (IncidentWindowState.validate w) := Raises.liftError fun errors => h _ errors

/-- `_initial_window_state`. -/
def initialWindowState (i : IncidentUpsertInput) : Except OpError IncidentWindowState := do
  let windowStartedAt ← orThrow .overflow (i.eventTime.subSeconds i.windowSeconds)
  let activeObjects ← activeObjectsFromInput i
  IncidentWindowState.validate
    { windowStartedAt := windowStartedAt
      windowEndedAt := i.eventTime
      windowSeconds := i.windowSeconds
      thresholdCount := i.thresholdCount
      countedFingerprintTimestamps := Dict.empty.insert i.fingerprint i.eventTime
      countedCount := 1
      maxSize := i.maxWindowFingerprints
      activeObjects := activeObjects }

/-- `windowStart <= t <= windowEnd`. -/
def insideWindow (windowStart windowEnd t : Instant) : Bool :=
  decide (windowStart ≤ t ∧ t ≤ windowEnd)

/-- The entries still inside the window. -/
def stillInside (windowStart windowEnd : Instant) (d : Dict String Datetime) :
    Dict String Datetime :=
  d.filter fun e => insideWindow windowStart windowEnd e.2.instant

/-- What `_next_window_state` returns. -/
structure WindowUpdate where
  state : IncidentWindowState
  replay : Bool
  insideWindow : Bool
  counted : Bool

/-- `_next_window_state`. -/
def nextWindowState (existing : Incident) (i : IncidentUpsertInput) :
    Except OpError WindowUpdate := do
  let windowEnd := existing.lastUpdateTime.toDatetime.later i.eventTime
  let windowStart ← orThrow .overflow (windowEnd.subSeconds i.windowSeconds)
  let existingState := (windowStateFromJson existing.windowState).val
  let retained :=
    stillInside windowStart.instant windowEnd.instant existingState.countedFingerprintTimestamps
  let inside := insideWindow windowStart.instant windowEnd.instant i.eventTime.instant
  let replay := retained.contains i.fingerprint
  let counted := inside && !replay
  let retained := if counted then retained.insert i.fingerprint i.eventTime else retained
  let retained :=
    retained.greatest (fun e => evictionRank (e.1, e.2.instant)) i.maxWindowFingerprints
  let inputObjects ← activeObjectsFromInput i
  let state ← IncidentWindowState.validate
    { windowStartedAt := windowStart
      windowEndedAt := windowEnd
      windowSeconds := i.windowSeconds
      thresholdCount := i.thresholdCount
      countedFingerprintTimestamps := retained
      countedCount := retained.size
      maxSize := i.maxWindowFingerprints
      activeObjects := sortedSet IncidentObject.sortKey (existingState.activeObjects ++ inputObjects) }
  return ⟨state, replay, inside, counted⟩

end Correlia
