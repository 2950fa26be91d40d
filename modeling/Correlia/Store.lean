import Correlia.Lib.Run
import Correlia.Processing.IncidentManager
import Correlia.Processing.Lifecycle

/-!
# Store — the incidents table under its calls

A call runs as one serialized transaction: it commits with an answer, or fails and is rolled back.
A sweep meets the locks of transactions that have begun before it and end after it.
-/

namespace Correlia

open Lib

inductive Op
  | recordProblem (now : Timestamptz) (id : UUID) (input : IncidentUpsertInput)
  | applyProblem (now : Timestamptz) (id : UUID) (configHash : Option String)
      (event : NormalizedEvent) (decision : RuleMatch)
  | hostRecovery (now : Timestamptz) (args : RecoveryArgs)
  | serviceRecovery (now : Timestamptz) (args : RecoveryArgs) (service : String)
  | ack (now : Timestamptz) (id : UUID) (operator : String)
  | close (now : Timestamptz) (id : UUID) (operator reason : String)
  | expire (now : Timestamptz) (locked : List UUID) (limit : ℤ)
  | recordNotification (now : Timestamptz) (id : UUID) (pluginName : String)
      (result : NotificationResult)

inductive Answer
  | recorded (result : IncidentAggregationWriteResult)
  | applied (result : IncidentAggregationResult)
  | recovered (results : List LifecycleWriteResult)
  | operated (result : Option LifecycleWriteResult)
  | expired (incidents : List Incident)
  | notified (found : Bool)

/-- A call with its answer labelled. -/
def answer {α : Type} (label : α → Answer) (x : Except OpError (List Incident × α)) :
    Except OpError (List Incident × Answer) :=
  x.map fun p => (p.1, label p.2)

@[simp] theorem answer_eq_ok {α : Type} {label : α → Answer}
    {x : Except OpError (List Incident × α)} {t : List Incident} {o : Answer} :
    answer label x = .ok (t, o) ↔ ∃ a, x = .ok (t, a) ∧ label a = o := by
  cases x with
  | error e => simp [answer, Except.map]
  | ok p =>
    obtain ⟨t', a⟩ := p
    simp only [answer, Except.map, Except.ok.injEq, Prod.mk.injEq]
    constructor
    · rintro ⟨rfl, rfl⟩
      exact ⟨a, ⟨rfl, rfl⟩, rfl⟩
    · rintro ⟨b, ⟨rfl, rfl⟩, rfl⟩
      exact ⟨rfl, rfl⟩

/-- One call on the table. -/
def step : Op → List Incident → Except OpError (List Incident × Answer)
  | .recordProblem now id input, t => answer .recorded (recordProblemIncident now id input t)
  | .applyProblem now id configHash event decision, t =>
    answer .applied (applyProblem now id configHash event decision t)
  | .hostRecovery now args, t => answer .recovered (resolveHostRecovery now args t)
  | .serviceRecovery now args service, t =>
    answer .recovered (resolveServiceRecovery now args service t)
  | .ack now id operator, t => answer .operated (ackOpenIncident now id operator t)
  | .close now id operator reason, t =>
    answer .operated (closeOpenIncident now id operator reason t)
  | .expire now locked limit, t => answer .expired (expireStaleIncidents now locked limit t)
  | .recordNotification now id pluginName result, t =>
    answer .notified (recordNotificationResult now id pluginName result t)

/-- The table after a run of calls from the empty one. -/
def tableAfter (ops : List Op) : List Incident := run step [] ops

/-- The calls of a run that committed, with their answers. -/
def history (ops : List Op) : List (Op × Answer) := log step [] ops

end Correlia
