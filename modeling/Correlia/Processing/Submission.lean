import Correlia.Lib.Attempt
import Correlia.Processing.IncidentManager

/-!
# Processing.Submission — notification tasks after the commit (`app/processing/ingress.py`)

`accepts` says which tasks the runner takes, `persistFails` for which plugins recording a terminal
result raises; a recording that does not raise changes the store as `record` says.
-/

namespace Correlia

open Lib Attempt

/-- The payload of a `notify` task. -/
structure NotifyTask where
  incidentId : UUID
  pluginName : String
  configHash : Option String
deriving DecidableEq, Repr

def missingRunner : NotificationResult where
  success := false
  category := .dispatchFailed
  message := ⟨"notification task runner is unavailable", by decide⟩

def missingPlugin : NotificationResult where
  success := false
  category := .missingPlugin
  message := ⟨"configured output plugin is missing", by decide⟩

def submitFailed : NotificationResult where
  success := false
  category := .dispatchFailed
  message := ⟨"notification task submission failed", by decide⟩

def taskSubmitted : NotificationResult where
  success := true
  category := .dispatched
  message := ⟨"notification task submitted", by decide⟩

/-- What the processor holds; `runner` is `None` or says which tasks it accepts. -/
structure SubmissionDeps (σ : Type) where
  runner : Option (NotifyTask → Bool)
  pluginNames : List String
  configHash : Option String
  persistFails : String → Bool
  record : UUID → String → NotificationResult → σ → σ

/-- The store, the tasks the runner has accepted and the results so far. -/
structure Submissions (σ : Type) where
  store : σ
  submitted : List NotifyTask
  results : List NotificationResult

section

variable {σ : Type} (d : SubmissionDeps σ) (incidentId : UUID)

def SubmissionDeps.task (pluginName : String) : NotifyTask :=
  ⟨incidentId, pluginName, d.configHash⟩

/-- `_persist_terminal_notification_result`, then `results.append(result)`. -/
def persistTerminal (pluginName : String) (result : NotificationResult) :
    Attempt (Submissions σ) :=
  step (d.persistFails pluginName) fun s => { s with
    store := d.record incidentId pluginName result s.store
    results := s.results ++ [result] }

/-- One round of the loop of `_submit_notifications`. -/
def submitNotification (accepts : NotifyTask → Bool) (pluginName : String) :
    Attempt (Submissions σ) :=
  if pluginName ∉ d.pluginNames then persistTerminal d incidentId pluginName missingPlugin
  else if accepts (d.task incidentId pluginName) then
    fun s => .ok { s with
      submitted := s.submitted ++ [d.task incidentId pluginName]
      results := s.results ++ [taskSubmitted] }
  else persistTerminal d incidentId pluginName submitFailed

/-- `_submit_notifications`. -/
def submitNotifications (decision : RuleMatch) : Attempt (Submissions σ) :=
  let plugins := sortedSet id decision.val.actions
  match d.runner with
  | none => forEach (fun pluginName => persistTerminal d incidentId pluginName missingRunner) plugins
  | some accepts => forEach (submitNotification d incidentId accepts) plugins

/-- What `process_payload` does after the commit of a problem. -/
def afterCommit (decision : RuleMatch) (result : IncidentAggregationResult) :
    Attempt (Submissions σ) :=
  if result.notificationIntent = .dispatchPlanned then
    submitNotifications d result.incidentId decision
  else .ok

/-- What recording a result for a plugin of the decision keeps, the submissions keep. -/
theorem afterCommit_keeps {P : σ → Prop} {decision : RuleMatch} {result : IncidentAggregationResult}
    (hrecord : result.notificationIntent = .dispatchPlanned → ∀ n ∈ decision.val.actions, ∀ r s,
      P s → P (d.record result.incidentId n r s)) :
    Ends (fun s => P s.store) (afterCommit d decision result) (fun s => P s.store)
      fun s => P s.store := by
  have hmem : ∀ {done rest : List String} {n : String},
      done ++ n :: rest = sortedSet id decision.val.actions → n ∈ decision.val.actions := by
    intro done rest n hsplit
    have hn : n ∈ sortedSet id decision.val.actions := by
      rw [← hsplit]
      exact List.mem_append_right done List.mem_cons_self
    exact mem_sortedSet.mp hn
  unfold afterCommit
  split_ifs with hplanned
  · have hterminal : ∀ n ∈ decision.val.actions, ∀ r,
        Ends (fun s => P s.store) (persistTerminal d result.incidentId n r) (fun s => P s.store)
          fun s => P s.store := fun n hn r =>
      Ends.step (fun _ _ hs => hs) fun s hs => hrecord hplanned n hn r s.store hs
    unfold submitNotifications
    cases d.runner with
    | none =>
      exact Ends.forEach (I := fun _ _ (s : Submissions σ) => P s.store) fun done n rest hsplit =>
        hterminal n (hmem hsplit) missingRunner
    | some accepts =>
      refine Ends.forEach (I := fun _ _ (s : Submissions σ) => P s.store) fun done n rest hsplit => ?_
      dsimp only [submitNotification]
      split_ifs
      · exact fun s hs => hs
      · exact hterminal n (hmem hsplit) submitFailed
      · exact hterminal n (hmem hsplit) missingPlugin
  · exact fun s hs => hs

end

end Correlia
