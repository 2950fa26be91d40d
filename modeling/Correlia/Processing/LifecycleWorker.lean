import Correlia.Service

/-!
# Processing.LifecycleWorker — the periodic sweep (`app/processing/lifecycle_worker.py`)

The task of a worker sweeps, waits for the event or the interval, and sweeps again.  A sweep
(`expire_stale_batch`) counts its effects, commits and returns how many; it may raise, or be
cancelled by a stop that has waited too long, at any of its awaits; rows that other transactions have
locked when it selects are passed over.  `start` and `stop` are called
one after another, as `lifespan` does.
-/

namespace Correlia

open Lib

/-- Where the task is. -/
inductive WorkerPhase
  | created | sweeping | waiting | done
deriving DecidableEq

/-- What `LifecycleWorker.__init__` admits as `batch_size`. -/
abbrev BatchSize := { n : ℤ // 1 ≤ n }

structure LifecycleWorker where
  batchSize : BatchSize
  /-- `_task` -/
  task : Option WorkerPhase := none
  /-- `_stop_event`: whether it is set. -/
  stopEvent : Option Bool := none
  healthy : Bool := false
  lastSweepAt : Option Timestamptz := none
  lastErrorCategory : Option String := none
  expiredTotal : ℕ := 0

/-- The database with the worker on it; `expiredEffects` is what `record_incident_effect` counted. -/
structure Upkeep where
  world : World
  worker : LifecycleWorker
  expiredEffects : ℕ := 0

/-- How far a sweep came that did not return. -/
inductive SweepCut
  | beforeEffects | beforeCommit | afterCommit
deriving DecidableEq

inductive UpkeepMove
  /-- Any other transaction of the service. -/
  | other (a : Activity)
  | start
  | stop
  /-- The first step of the task. -/
  | enter
  /-- `_run_sweep`: the sweep returns, or raises. -/
  | returned (now at' : Timestamptz) (locked : List UUID)
  | raised (now : Timestamptz) (locked : List UUID) (cut : SweepCut) (category : String)
  /-- The interval is over, or the event is set. -/
  | wake
  /-- `stop` ends: the task is done. -/
  | joined
  /-- `stop` ends: it has waited too long, and cancels the task. -/
  | cancelled (now : Timestamptz) (locked : List UUID) (cut : SweepCut)

/-- A committed sweep: its time, the rows locked elsewhere, the table before, the rows it closed, the
table after. -/
structure Sweep where
  now : Timestamptz
  locked : List UUID
  before : List Incident
  closed : List Incident
  after : List Incident

/-- Why a move is none. -/
inductive Idle
  | notThere
  | failed (e : OpError)

namespace Upkeep

/-- `expire_stale_batch`, up to its commit. -/
def expireStaleBatch (now : Timestamptz) (locked : List UUID) (s : Upkeep) :
    Except Idle (Upkeep × Sweep) :=
  match expireStaleIncidents now locked s.worker.batchSize.val s.world.database.incidents with
  | .ok (t, closed) =>
    .ok ({ s with
        world := s.world.withIncidents t
        expiredEffects := s.expiredEffects + closed.length },
      ⟨now, locked, s.world.database.incidents, closed, t⟩)
  | .error e => .error (.failed e)

/-- What a sweep leaves that was cut: a commit that does not come rolls the rows back, but not what
was counted. -/
def cutSweep (now : Timestamptz) (locked : List UUID) (s : Upkeep) :
    SweepCut → Except Idle (Upkeep × Option Sweep)
  | .beforeEffects => .ok (s, none)
  | .beforeCommit => do
    let (swept, _) ← s.expireStaleBatch now locked
    return ({ s with expiredEffects := swept.expiredEffects }, none)
  | .afterCommit => do
    let (swept, sweep) ← s.expireStaleBatch now locked
    return (swept, some sweep)

def withWorker (s : Upkeep) (worker : LifecycleWorker) : Upkeep := { s with worker }

/-- `_run`: the loop tests the event. -/
def nextSweep (s : Upkeep) : Upkeep :=
  s.withWorker { s.worker with
    task := some (if s.worker.stopEvent = some false then .sweeping else .done) }

/-- `start` -/
def start (s : Upkeep) : Except Idle Upkeep :=
  if s.worker.stopEvent = some true then .error .notThere
  else
    match s.worker.task with
    | some .created | some .sweeping | some .waiting => .ok s
    | some .done | none =>
      .ok (s.withWorker { s.worker with task := some .created, stopEvent := some false })

/-- `stop`, up to its wait. -/
def stop (s : Upkeep) : Except Idle Upkeep :=
  match s.worker.task, s.worker.stopEvent with
  | some _, some _ => .ok (s.withWorker { s.worker with stopEvent := some true })
  | _, _ => .ok s

/-- The `finally` of `stop`. -/
def stopped (s : Upkeep) : Upkeep :=
  s.withWorker { s.worker with task := none, stopEvent := none }

/-- One move, with the sweep that it commits. -/
def move : UpkeepMove → Upkeep → Except Idle (Upkeep × Option Sweep)
  | .other (.expire ..), _ => .error .notThere
  | .other a, s =>
    match serve a s.world with
    | .ok (w, _) => .ok ({ s with world := w }, none)
    | .error _ => .error .notThere
  | .start, s => s.start.map fun s => (s, none)
  | .stop, s => s.stop.map fun s => (s, none)
  | .enter, s => if s.worker.task = some .created then .ok (s.nextSweep, none) else .error .notThere
  | .returned now at' locked, s =>
    if s.worker.task = some .sweeping then
      (s.expireStaleBatch now locked).map fun (swept, sweep) =>
        (swept.withWorker { swept.worker with
          task := some .waiting
          healthy := true
          lastSweepAt := some at'
          lastErrorCategory := none
          expiredTotal := swept.worker.expiredTotal + sweep.closed.length }, some sweep)
    else .error .notThere
  | .raised now locked cut category, s =>
    if s.worker.task = some .sweeping then
      (s.cutSweep now locked cut).map fun (swept, sweep) =>
        (swept.withWorker { swept.worker with
          task := some .waiting, healthy := false, lastErrorCategory := some category }, sweep)
    else .error .notThere
  | .wake, s => if s.worker.task = some .waiting then .ok (s.nextSweep, none) else .error .notThere
  | .joined, s =>
    if s.worker.task = some .done ∧ s.worker.stopEvent = some true then .ok (s.stopped, none)
    else .error .notThere
  | .cancelled now locked cut, s =>
    if s.worker.stopEvent = some true then
      match s.worker.task with
      | some .sweeping => (s.cutSweep now locked cut).map fun (swept, sweep) => (swept.stopped, sweep)
      | some .created | some .waiting => .ok (s.stopped, none)
      | some .done | none => .error .notThere
    else .error .notThere

/-- The start: the empty database, and a worker that was just made. -/
def init (batchSize : BatchSize) : Upkeep :=
  { world := ⟨⟨[], []⟩, []⟩, worker := { batchSize } }

end Upkeep

end Correlia
