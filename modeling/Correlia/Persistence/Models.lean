import Correlia.Domain.Incidents
import Correlia.Lib.Table

/-!
# Persistence.Models — the incidents table (`app/persistence/models.py`)

The two `jsonb` columns hold what the repository writes into them: a dumped window state, whose times
are JSON text, and a JSON object for a decision context.  The table is the list of its rows.
-/

namespace Correlia

open Lib

abbrev UUID := Fin (2 ^ 128)

instance UUID.neZero : NeZero (2 ^ 128) := ⟨by decide⟩

instance UUID.lawfulBEq : LawfulBEq UUID := inferInstance

structure Incident where
  id : UUID
  ruleName : String
  groupKey : String
  status : IncidentStatus
  severity : Severity
  summary : String
  eventCount : ℕ
  affectedHosts : List String
  affectedServices : List String
  decisionContext : ContextData
  windowState : WindowStateJson
  thresholdCrossed : Bool
  notifiedAt : Option Timestamptz
  startTime : Timestamptz
  lastUpdateTime : Timestamptz
  acknowledgedAt : Option Timestamptz
  acknowledgedBy : Option String
  resolvedAt : Option Timestamptz
  closedAt : Option Timestamptz
  createdAt : Timestamptz
  updatedAt : Timestamptz

/-- How a call fails; its transaction is rolled back. -/
inductive OpError
  | validation (model : String) (errors : List FieldError)
  | value (message : String)
  /-- `OverflowError`: a `datetime` out of range. -/
  | overflow
  /-- A unique constraint other than the conflict target. -/
  | integrity
  | noResultFound
  | multipleResultsFound
  /-- A value the database refuses. -/
  | database (message : String)
deriving DecidableEq

/-- PostgreSQL has no U+0000, neither in `text` nor in `jsonb`. -/
def isStorable (s : String) : Bool := s.toList.all fun c => decide (c.toNat ≠ 0)

namespace Incident

def isOpen (r : Incident) : Bool := decide (r.status = .«open»)

/-- The key of the partial unique index `incidents_one_open_per_rule_group`. -/
def key (r : Incident) : String × String := (r.ruleName, r.groupKey)

/-- The open row of a key. -/
def isOpenFor (k : String × String) (r : Incident) : Bool := r.isOpen && decide (r.key = k)

/-- The window state with its times as the instants that are read back. -/
def window (r : Incident) : WindowFields Instant := r.windowState.val.map Timestamp.instant

theorem window_size (r : Incident) : r.window.countedFingerprintTimestamps.size =
    r.windowState.val.countedFingerprintTimestamps.size := Dict.size_map

@[simp] theorem isOpen_iff {r : Incident} : r.isOpen = true ↔ r.status = .«open» :=
  decide_eq_true_iff

@[simp] theorem isOpenFor_iff {k : String × String} {r : Incident} :
    r.isOpenFor k = true ↔ r.status = .«open» ∧ r.key = k := by
  simp [isOpenFor]

end Incident

/-- `result.one()`. -/
def one {α : Type} : List α → Except OpError α
  | [a] => .ok a
  | [] => .error .noResultFound
  | _ => .error .multipleResultsFound

theorem one_eq_ok {α : Type} {l : List α} {a : α} : one l = .ok a ↔ l = [a] := by
  match l with
  | [] => simp [one]
  | [b] => simp [one]
  | b :: c :: l => simp [one]

/-- `UPDATE … SET f WHERE p RETURNING *` with `.one()` on the rows that come back. -/
def updateOne (p : Incident → Bool) (f : Incident → Incident) (t : List Incident) :
    Except OpError (List Incident × Incident) := do
  let r ← one (returning p f t)
  return (updateWhere p f t, r)

/-- The guard of the lifecycle updates: `id = … AND status = 'OPEN'`. -/
def openWithId (id : UUID) (r : Incident) : Bool := decide (r.id = id) && r.isOpen

@[simp] theorem openWithId_iff {id : UUID} {r : Incident} :
    openWithId id r = true ↔ r.id = id ∧ r.status = .«open» := by
  simp [openWithId]

/-- An update of an open row by its id finds it and rewrites it alone. -/
theorem updateOne_open {t : List Incident} (ht : (t.map Incident.id).Nodup) {c : Incident}
    (hc : c ∈ t) (ho : c.status = .«open») (f : Incident → Incident)
    (hf : (f c).id = c.id) :
    updateOne (openWithId c.id) f t = .ok (setRow Incident.id (f c) t, f c) := by
  have hret : returning (openWithId c.id) f t = [f c] :=
    returning_key ht hc (g := Incident.isOpen) (Incident.isOpen_iff.mpr ho) f
  have hup : updateWhere (openWithId c.id) f t = setRow Incident.id (f c) t := by
    refine List.map_congr_left fun r hr => ?_
    rw [hf]
    by_cases h : r.id = c.id
    · obtain rfl := eq_of_key ht hr hc h
      simp [ho]
    · simp [h]
  rw [updateOne, hret, hup]
  rfl

/-- An update by the id of a row of the table rewrites that row alone. -/
theorem updateWhere_id {t : List Incident} (ht : (t.map Incident.id).Nodup) {c : Incident}
    (hc : c ∈ t) (f : Incident → Incident) (hf : (f c).id = c.id) :
    updateWhere (fun r => decide (r.id = c.id)) f t = setRow Incident.id (f c) t := by
  refine List.map_congr_left fun r hr => ?_
  rw [hf]
  by_cases h : r.id = c.id
  · obtain rfl := eq_of_key ht hr hc h
    simp
  · simp [h]

theorem updateOne_id {t : List Incident} (ht : (t.map Incident.id).Nodup) {c : Incident}
    (hc : c ∈ t) (f : Incident → Incident) (hf : (f c).id = c.id) :
    updateOne (fun r => decide (r.id = c.id)) f t = .ok (setRow Incident.id (f c) t, f c) := by
  have hret : returning (fun r => decide (r.id = c.id)) f t = [f c] := by
    have := returning_key ht hc (g := fun _ => true) rfl f
    simpa only [Bool.and_true] using this
  rw [updateOne, hret, updateWhere_id ht hc f hf]
  rfl

end Correlia
