import Correlia.Plugins.Interfaces
import Correlia.Processing.NotificationDispatcher

/-!
# Processing.TaskRunner — notification tasks in flight (`app/processing/task_runner.py`)

The runner keeps a task from `submit` until its handler is done.  The handler of `notify` is
`NotificationDispatcher.process`, cut here at its awaits: the checks with the load of the incident,
the call of the plugin, its end, and the recording of the result.
-/

namespace Correlia

open Lib

/-- What `process` does before it opens a session. -/
inductive Opening
  | returns (result : NotificationResult)
  | records (result : NotificationResult)
  | loads

def NotificationDispatcher.opening (d : NotificationDispatcher) (task : NotifyTask) : Opening :=
  if task.errors ≠ [] then .returns invalidPayload
  else if task.configHash.any fun h => d.configHash.any fun h' => decide (h ≠ h') then
    .records stalePlugin
  else if task.pluginName ∉ d.pluginNames then .records missingPlugin
  else .loads

/-- The result of a call of the plugin. -/
def sendResult (sends : Bool) : NotificationResult :=
  if sends then notificationDispatched else pluginFailed

/-- What an opening comes to, and whether that is recorded. -/
def Opening.outcome (found sends : Bool) : Opening → NotificationResult × Bool
  | returns result => (result, false)
  | records result => (result, true)
  | loads => if found then (sendResult sends, true) else (missingIncident, false)

/-- The awaits of a task come to what `process` comes to. -/
theorem NotificationDispatcher.process_eq (d : NotificationDispatcher) (task : NotifyTask)
    (found sends : Bool) : d.process task found sends = (d.opening task).outcome found sends := by
  unfold process opening
  split_ifs with _ _ _ hfound hsends
  · rfl
  · rfl
  · obtain rfl : found = false := by simpa using hfound
    rfl
  · obtain rfl : found = true := by simpa using hfound
    obtain rfl : sends = false := by simpa using hsends
    rfl
  · obtain rfl : found = true := by simpa using hfound
    obtain rfl : sends = true := by simpa using hsends
    rfl
  · rfl

theorem NotificationDispatcher.opening_records {d : NotificationDispatcher} {task : NotifyTask}
    {result : NotificationResult} (h : d.opening task = .records result) :
    result = stalePlugin ∨ result = missingPlugin := by
  unfold opening at h
  split_ifs at h
  · exact Or.inl (Opening.records.inj h).symm
  · exact Or.inr (Opening.records.inj h).symm

inductive TaskPhase
  /-- Created by `submit`. -/
  | accepted
  | loaded (envelope : NotificationEnvelope)
  /-- Awaiting `send_notification`. -/
  | sending
  | recording (result : NotificationResult)

structure RunnerTask where
  task : NotifyTask
  phase : TaskPhase

def NotifyTask.target (task : NotifyTask) : UUID × String := (task.incidentId, task.pluginName)

/-- How a planned delivery ends. -/
inductive Ending
  /-- The result stands in the incident. -/
  | recorded (result : NotificationResult)
  /-- `process` has returned without a recording. -/
  | returned (result : NotificationResult)
  /-- The task, or the request at this delivery, has raised. -/
  | failed
  /-- The request has raised before it came to this delivery. -/
  | dropped
  /-- The process has ended before. -/
  | lost
deriving DecidableEq

end Correlia
