import Correlia.Processing.Submission

/-!
# Processing.NotificationDispatcher — a submitted task (`app/processing/notification_dispatcher.py`)

A task loads its incident in one transaction and records its result in another.  Whether the load
finds the incident and whether the plugin's send returns comes with the call.
-/

namespace Correlia

open Lib

/-- What the dispatcher holds of its plugin registry. -/
structure NotificationDispatcher where
  configHash : Option String
  pluginNames : List String

/-- `NotificationTaskPayload`. -/
def NotifyTask.errors (task : NotifyTask) : List FieldError :=
  strErrors 1 256 "plugin_name" task.pluginName ++
    optErrors (fun s => check (decide (s.length ≤ 128)) "config_hash" .stringTooLong)
      task.configHash

def invalidPayload : NotificationResult where
  success := false
  category := .dispatchFailed
  message := ⟨"invalid notification task payload", by decide⟩

def stalePlugin : NotificationResult where
  success := false
  category := .dispatchFailed
  message := ⟨"stale plugin configuration", by decide⟩

def missingIncident : NotificationResult where
  success := false
  category := .missingIncident
  message := ⟨"incident is missing", by decide⟩

def pluginFailed : NotificationResult where
  success := false
  category := .pluginException
  message := ⟨"notification plugin failed", by decide⟩

def notificationDispatched : NotificationResult where
  success := true
  category := .dispatched
  message := ⟨"notification dispatched", by decide⟩

/-- `NotificationDispatcher.process`: what a task comes to, and whether that is recorded. -/
def NotificationDispatcher.process (d : NotificationDispatcher) (task : NotifyTask)
    (found sends : Bool) : NotificationResult × Bool :=
  if task.errors ≠ [] then (invalidPayload, false)
  else if task.configHash.any fun h => d.configHash.any fun h' => decide (h ≠ h') then
    (stalePlugin, true)
  else if task.pluginName ∉ d.pluginNames then (missingPlugin, true)
  else if !found then (missingIncident, false)
  else if !sends then (pluginFailed, true)
  else (notificationDispatched, true)

end Correlia
