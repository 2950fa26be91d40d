import Correlia.DeliveryRecords
import Correlia.Lib.Custody
import Correlia.Processing.TaskRunner
import Correlia.ReadBack

/-!
# Deliveries — requests, notification tasks and restarts, interleaved

A request that has committed a problem submits its deliveries one after the other; every task goes
through its awaits on its own; all of them share the database with the other transactions; and the
process may end at any point, taking requests and tasks with it.  A run is any order of these moves.
Each move makes at most one transaction of the service, so the pipeline refines the service; and a
planned delivery is always in the hands of one request, of one task, or ended.
-/

namespace Correlia

open Lib

/-! ### Submissions -/

/-- The outcomes of `_record_notification_submission`. -/
inductive SubmissionOutcome
  | accepted | missingRunner | missingPlugin | submitFailed
deriving DecidableEq

/-- What one round of `_submit_notifications` comes to. -/
def Icinga2DecisionProcessor.submission (p : Icinga2DecisionProcessor) (accepts : Bool)
    (pluginName : String) : SubmissionOutcome :=
  if !p.hasTaskRunner then .missingRunner
  else if pluginName ∉ p.pluginNames then .missingPlugin
  else if accepts then .accepted
  else .submitFailed

/-- The result that is recorded at once, unless the task is accepted. -/
def SubmissionOutcome.terminal : SubmissionOutcome → Option NotificationResult
  | accepted => none
  | missingRunner => some Correlia.missingRunner
  | missingPlugin => some Correlia.missingPlugin
  | submitFailed => some Correlia.submitFailed

theorem SubmissionOutcome.terminal_eq_none {o : SubmissionOutcome} :
    o.terminal = none ↔ o = .accepted := by
  cases o <;> simp [terminal]

/-- Where `_submit_notifications` stands in a request whose transaction has committed. -/
structure PostCommit where
  processor : Icinga2DecisionProcessor
  incidentId : UUID
  rest : List String

def PostCommit.task (r : PostCommit) (pluginName : String) : NotifyTask :=
  ⟨r.incidentId, pluginName, r.processor.configHash⟩

/-- The deliveries the request has still to submit. -/
def PostCommit.targets (r : PostCommit) : List (UUID × String) :=
  r.rest.map fun pluginName => (r.incidentId, pluginName)

def RunnerTask.targets (t : RunnerTask) : List (UUID × String) := [t.task.target]

/-- The delivery of a task whose plugin has not been called. -/
def RunnerTask.unsent (t : RunnerTask) : List (UUID × String) :=
  match t.phase with
  | .accepted => [t.task.target]
  | .loaded _ => [t.task.target]
  | _ => []

/-- What a committed effect leaves to submit. -/
def Effect.postCommit (p : Icinga2DecisionProcessor) : Effect → List PostCommit
  | .problem result decision =>
    if result.notificationIntent = .dispatchPlanned then
      [⟨p, result.incidentId, sortedSet id decision.val.actions⟩]
    else []
  | _ => []

def postCommits (a : Activity) (w : World) : List PostCommit :=
  match a with
  | .ingress call => (call.commit w.database).toList.flatMap fun k => k.effect.postCommit call.processor
  | _ => []

def Activity.isCompletion : Activity → Bool
  | complete _ _ => true
  | _ => false

/-- The transaction of a recording, unless it fails. -/
def World.persist (w : World) (now : Timestamptz) (target : UUID × String)
    (result : NotificationResult) (persists : Bool) : Option World :=
  if persists then
    (serve (.complete now (.terminal target.1 target.2 result)) w).toOption.map Prod.fst
  else none

/-! ### The pipeline -/

/-- The increments of the counters since the process has started. -/
structure DeliveryCounters where
  submissions : List SubmissionOutcome := []
  deliveries : List NotificationResult := []
  taskFailures : ℕ := 0

/-- `sends` holds every call of a plugin so far. -/
structure Pipeline where
  world : World
  dispatcher : NotificationDispatcher
  requests : List PostCommit
  tasks : List RunnerTask
  counters : DeliveryCounters
  sends : List (NotifyTask × NotificationEnvelope)
  ended : List ((UUID × String) × Ending)

namespace Pipeline

variable (s : Pipeline)

def countSubmission (outcome : SubmissionOutcome) : Pipeline :=
  { s with counters := { s.counters with submissions := s.counters.submissions ++ [outcome] } }

/-- `_record_delivery`. -/
def recordDelivery (result : NotificationResult) : Pipeline :=
  { s with counters := { s.counters with deliveries := s.counters.deliveries ++ [result] } }

/-- The task goes on to its next await. -/
def goOn (i : ℕ) (task : NotifyTask) (phase : TaskPhase) : Pipeline :=
  { s with tasks := s.tasks.set i ⟨task, phase⟩ }

/-- The task is done. -/
def finish (i : ℕ) (task : NotifyTask) (e : Ending) : Pipeline :=
  { s with tasks := s.tasks.eraseIdx i, ended := s.ended ++ [(task.target, e)] }

/-- The task has raised: `_log_task_exception`. -/
def raise (i : ℕ) (task : NotifyTask) : Pipeline :=
  { s.finish i task .failed with
    counters := { s.counters with taskFailures := s.counters.taskFailures + 1 } }

/-- One round of the loop of a request; with nothing left, the request answers. -/
def submit (i : ℕ) (r : PostCommit) (now : Timestamptz) (accepts persists : Bool) :
    Pipeline × List Activity :=
  match r.rest with
  | [] => ({ s with requests := s.requests.eraseIdx i }, [])
  | pluginName :: rest =>
    let outcome := r.processor.submission accepts pluginName
    let counted := s.countSubmission outcome
    match outcome.terminal with
    | none =>
      ({ counted with
        requests := s.requests.set i { r with rest }
        tasks := s.tasks ++ [⟨r.task pluginName, .accepted⟩] }, [])
    | some result =>
      match s.world.persist now (r.incidentId, pluginName) result persists with
      | some w =>
        ({ counted with
          world := w
          requests := s.requests.set i { r with rest }
          ended := s.ended ++ [((r.incidentId, pluginName), .recorded result)] },
          [.complete now (.terminal r.incidentId pluginName result)])
      | none =>
        -- the exception leaves the loop: the plugins after this one are not submitted
        ({ counted with
          requests := s.requests.eraseIdx i
          ended := s.ended ++ ((r.incidentId, pluginName), .failed) ::
            rest.map fun m => ((r.incidentId, m), .dropped) }, [])

/-- The task up to its first await that is not the database. -/
def start (i : ℕ) (task : NotifyTask) (loads : Bool) : Pipeline :=
  match s.dispatcher.opening task with
  | .returns result => (s.recordDelivery result).finish i task (.returned result)
  | .records result => (s.recordDelivery result).goOn i task (.recording result)
  | .loads =>
    if !loads then s.raise i task
    else
      match s.world.database.incidents.find? fun r => decide (r.id = task.incidentId) with
      | none => (s.recordDelivery missingIncident).finish i task (.returned missingIncident)
      | some r =>
        match envelopeFromIncident r with
        | .ok envelope => s.goOn i task (.loaded envelope)
        | .error _ => s.raise i task

/-- `_record_if_incident_exists`, the last await. -/
def record (i : ℕ) (task : NotifyTask) (result : NotificationResult) (now : Timestamptz)
    (persists : Bool) : Pipeline × List Activity :=
  match s.world.persist now task.target result persists with
  | some w =>
    ({ s.finish i task (.recorded result) with world := w },
      [.complete now (.terminal task.incidentId task.pluginName result)])
  | none => (s.raise i task, [])

/-- The deliveries that requests and tasks have in hand. -/
def inHand : List (UUID × String) :=
  s.requests.flatMap PostCommit.targets ++ s.tasks.flatMap RunnerTask.targets

end Pipeline

/-- A move: any transaction that is not a recording, a round of a request, an await of a task, or
the end of the process and the start of another. -/
inductive PipelineMove
  | transact (a : Activity)
  | submit (i : ℕ) (now : Timestamptz) (accepts persists : Bool)
  | start (i : ℕ) (loads : Bool)
  | send (i : ℕ)
  | sent (i : ℕ) (sends : Bool)
  | record (i : ℕ) (now : Timestamptz) (persists : Bool)
  | restart (d : NotificationDispatcher)

/-- One move, with the transaction it makes. -/
def Pipeline.step : PipelineMove → Pipeline → Except Unit (Pipeline × List Activity)
  | .transact a, s =>
    if a.isCompletion then .error ()
    else
      match serve a s.world with
      | .ok (w, _) =>
        .ok ({ s with world := w, requests := s.requests ++ postCommits a s.world }, [a])
      | .error _ => .error ()
  | .submit i now accepts persists, s =>
    match s.requests[i]? with
    | some r => .ok (s.submit i r now accepts persists)
    | none => .error ()
  | .start i loads, s =>
    match s.tasks[i]? with
    | some ⟨task, .accepted⟩ => .ok (s.start i task loads, [])
    | _ => .error ()
  | .send i, s =>
    match s.tasks[i]? with
    | some ⟨task, .loaded envelope⟩ =>
      .ok ({ s.goOn i task .sending with sends := s.sends ++ [(task, envelope)] }, [])
    | _ => .error ()
  | .sent i sends, s =>
    match s.tasks[i]? with
    | some ⟨task, .sending⟩ =>
      .ok ((s.recordDelivery (sendResult sends)).goOn i task (.recording (sendResult sends)), [])
    | _ => .error ()
  | .record i now persists, s =>
    match s.tasks[i]? with
    | some ⟨task, .recording result⟩ => .ok (s.record i task result now persists)
    | _ => .error ()
  | .restart d, s =>
    .ok (⟨s.world, d, [], [], {}, s.sends, s.ended ++ s.inHand.map fun target => (target, .lost)⟩, [])

/-- The pipeline of a run, from an empty database. -/
def pipelineAfter (d : NotificationDispatcher) (moves : List PipelineMove) : Pipeline :=
  run Pipeline.step ⟨⟨⟨[], []⟩, []⟩, d, [], [], {}, [], []⟩ moves

def pipelineLog (d : NotificationDispatcher) (moves : List PipelineMove) :
    List (PipelineMove × List Activity) :=
  log Pipeline.step ⟨⟨⟨[], []⟩, []⟩, d, [], [], {}, [], []⟩ moves

/-- The transactions of a log, in their order. -/
def transactionsOf (l : List (PipelineMove × List Activity)) : List Activity := l.flatMap Prod.snd

/-! ### What a move does -/

theorem World.persist_eq_some {w w' : World} {now : Timestamptz} {target : UUID × String}
    {result : NotificationResult} {persists : Bool} :
    w.persist now target result persists = some w' ↔ persists = true ∧
      serve (.complete now (.terminal target.1 target.2 result)) w = .ok (w', ()) := by
  unfold World.persist
  cases persists with
  | false => simp
  | true =>
    cases h : serve (.complete now (.terminal target.1 target.2 result)) w with
    | error e => simp [Except.toOption]
    | ok r => simp [Except.toOption, Prod.ext_iff]

namespace Pipeline

/-- What each move changes, and when. -/
inductive Moves (s : Pipeline) : PipelineMove → List Activity → Pipeline → Prop
  | transact {a w} (hother : a.isCompletion = false) (h : serve a s.world = .ok (w, ())) :
      s.Moves (.transact a) [a]
        { s with world := w, requests := s.requests ++ postCommits a s.world }
  | answered {i r now accepts persists} (hr : s.requests[i]? = some r) (hrest : r.rest = []) :
      s.Moves (.submit i now accepts persists) [] { s with requests := s.requests.eraseIdx i }
  | accepted {i r pluginName rest now accepts persists} (hr : s.requests[i]? = some r)
      (hrest : r.rest = pluginName :: rest)
      (houtcome : r.processor.submission accepts pluginName = .accepted) :
      s.Moves (.submit i now accepts persists) [] { s.countSubmission .accepted with
        requests := s.requests.set i { r with rest }
        tasks := s.tasks ++ [⟨r.task pluginName, .accepted⟩] }
  | terminal {i r pluginName rest outcome result now accepts persists w}
      (hr : s.requests[i]? = some r) (hrest : r.rest = pluginName :: rest)
      (houtcome : r.processor.submission accepts pluginName = outcome)
      (hterminal : outcome.terminal = some result)
      (h : serve (.complete now (.terminal r.incidentId pluginName result)) s.world = .ok (w, ())) :
      s.Moves (.submit i now accepts persists)
        [.complete now (.terminal r.incidentId pluginName result)]
        { s.countSubmission outcome with
          world := w
          requests := s.requests.set i { r with rest }
          ended := s.ended ++ [((r.incidentId, pluginName), .recorded result)] }
  | aborted {i r pluginName rest outcome result now accepts persists}
      (hr : s.requests[i]? = some r) (hrest : r.rest = pluginName :: rest)
      (houtcome : r.processor.submission accepts pluginName = outcome)
      (hterminal : outcome.terminal = some result)
      (h : s.world.persist now (r.incidentId, pluginName) result persists = none) :
      s.Moves (.submit i now accepts persists) [] { s.countSubmission outcome with
        requests := s.requests.eraseIdx i
        ended := s.ended ++ ((r.incidentId, pluginName), .failed) ::
          rest.map fun m => ((r.incidentId, m), .dropped) }
  | returned {i task result loads} (htask : s.tasks[i]? = some ⟨task, .accepted⟩)
      (h : s.dispatcher.opening task = .returns result ∨ result = missingIncident ∧
        ∀ r ∈ s.world.database.incidents, r.id ≠ task.incidentId) :
      s.Moves (.start i loads) [] ((s.recordDelivery result).finish i task (.returned result))
  | unloaded {i task loads} (htask : s.tasks[i]? = some ⟨task, .accepted⟩)
      (h : loads = false ∨ ∃ r ∈ s.world.database.incidents, r.id = task.incidentId ∧
        ∀ envelope, envelopeFromIncident r ≠ .ok envelope) :
      s.Moves (.start i loads) [] (s.raise i task)
  | refused {i task result loads} (htask : s.tasks[i]? = some ⟨task, .accepted⟩)
      (h : s.dispatcher.opening task = .records result) :
      s.Moves (.start i loads) [] ((s.recordDelivery result).goOn i task (.recording result))
  | loaded {i task r envelope loads} (htask : s.tasks[i]? = some ⟨task, .accepted⟩)
      (hr : r ∈ s.world.database.incidents) (hid : r.id = task.incidentId)
      (henvelope : envelopeFromIncident r = .ok envelope) :
      s.Moves (.start i loads) [] (s.goOn i task (.loaded envelope))
  | send {i task envelope} (htask : s.tasks[i]? = some ⟨task, .loaded envelope⟩) :
      s.Moves (.send i) [] { s.goOn i task .sending with sends := s.sends ++ [(task, envelope)] }
  | sent {i task sends} (htask : s.tasks[i]? = some ⟨task, .sending⟩) :
      s.Moves (.sent i sends) []
        ((s.recordDelivery (sendResult sends)).goOn i task (.recording (sendResult sends)))
  | recorded {i task result now persists w} (htask : s.tasks[i]? = some ⟨task, .recording result⟩)
      (h : serve (.complete now (.terminal task.incidentId task.pluginName result)) s.world =
        .ok (w, ())) :
      s.Moves (.record i now persists)
        [.complete now (.terminal task.incidentId task.pluginName result)]
        { s.finish i task (.recorded result) with world := w }
  | unrecorded {i task result now persists} (htask : s.tasks[i]? = some ⟨task, .recording result⟩)
      (h : s.world.persist now task.target result persists = none) :
      s.Moves (.record i now persists) [] (s.raise i task)
  | restart (d : NotificationDispatcher) :
      s.Moves (.restart d) []
        ⟨s.world, d, [], [], {}, s.sends, s.ended ++ s.inHand.map fun k => (k, .lost)⟩

variable {s s' : Pipeline} {acts : List Activity} {m : PipelineMove}

theorem submit_moves {i : ℕ} {r : PostCommit} (hr : s.requests[i]? = some r) (now : Timestamptz)
    (accepts persists : Bool) (h : s.submit i r now accepts persists = (s', acts)) :
    s.Moves (.submit i now accepts persists) acts s' := by
  unfold submit at h
  split at h
  · rename_i hrest
    cases h
    exact .answered hr hrest
  · rename_i pluginName rest hrest
    dsimp only at h
    split at h
    · rename_i hnone
      have houtcome := SubmissionOutcome.terminal_eq_none.mp hnone
      rw [houtcome] at h
      cases h
      exact .accepted hr hrest houtcome
    · rename_i result hterminal
      split at h
      · rename_i w hpersist
        cases h
        exact .terminal hr hrest rfl hterminal (World.persist_eq_some.mp hpersist).2
      · rename_i hpersist
        cases h
        exact .aborted hr hrest rfl hterminal hpersist

theorem start_moves {i : ℕ} {task : NotifyTask} (htask : s.tasks[i]? = some ⟨task, .accepted⟩)
    (loads : Bool) : s.Moves (.start i loads) [] (s.start i task loads) := by
  unfold start
  split
  · rename_i result h
    exact .returned htask (Or.inl h)
  · rename_i result h
    exact .refused htask h
  · split_ifs with hloads
    · rw [Bool.not_eq_true'] at hloads
      exact .unloaded htask (Or.inl hloads)
    · split
      · rename_i hnone
        refine .returned htask (Or.inr ⟨rfl, fun r hr hid => ?_⟩)
        exact List.find?_eq_none.mp hnone r hr (decide_eq_true hid)
      · rename_i r hsome
        have hr := List.mem_of_find?_eq_some hsome
        have hid : r.id = task.incidentId := by simpa using List.find?_some hsome
        split
        · rename_i envelope henvelope
          exact .loaded htask hr hid henvelope
        · rename_i e henvelope
          refine .unloaded htask (Or.inr ⟨r, hr, hid, fun envelope hok => ?_⟩)
          cases henvelope.symm.trans hok

theorem record_moves {i : ℕ} {task : NotifyTask} {result : NotificationResult}
    (htask : s.tasks[i]? = some ⟨task, .recording result⟩) (now : Timestamptz) (persists : Bool)
    (h : s.record i task result now persists = (s', acts)) :
    s.Moves (.record i now persists) acts s' := by
  unfold record at h
  split at h
  · rename_i w hpersist
    cases h
    exact .recorded htask (World.persist_eq_some.mp hpersist).2
  · rename_i hpersist
    cases h
    exact .unrecorded htask hpersist

theorem step_moves (h : Pipeline.step m s = .ok (s', acts)) : s.Moves m acts s' := by
  cases m with
  | transact a =>
    unfold Pipeline.step at h
    dsimp only at h
    split_ifs at h with hother
    split at h
    · rename_i w o hserve
      cases h
      exact .transact (Bool.eq_false_of_not_eq_true hother) hserve
    · cases h
  | submit i now accepts persists =>
    unfold Pipeline.step at h
    dsimp only at h
    split at h
    · rename_i r hr
      exact submit_moves hr now accepts persists (Except.ok.inj h)
    · cases h
  | start i loads =>
    unfold Pipeline.step at h
    dsimp only at h
    split at h
    · rename_i task htask
      cases h
      exact start_moves htask loads
    · cases h
  | send i =>
    unfold Pipeline.step at h
    dsimp only at h
    split at h
    · rename_i task envelope htask
      cases h
      exact .send htask
    · cases h
  | sent i sends =>
    unfold Pipeline.step at h
    dsimp only at h
    split at h
    · rename_i task htask
      cases h
      exact .sent htask
    · cases h
  | record i now persists =>
    unfold Pipeline.step at h
    dsimp only at h
    split at h
    · rename_i task result htask
      exact record_moves htask now persists (Except.ok.inj h)
    · cases h
  | restart d =>
    cases h
    exact .restart d

/-! ### Refinement -/

theorem Moves.serves (h : s.Moves m acts s') : (acts = [] ∧ s'.world = s.world) ∨
    ∃ a, acts = [a] ∧ serve a s.world = .ok (s'.world, ()) := by
  cases h with
  | transact _ hserve => exact Or.inr ⟨_, rfl, hserve⟩
  | terminal _ _ _ _ hserve => exact Or.inr ⟨_, rfl, hserve⟩
  | recorded _ hserve => exact Or.inr ⟨_, rfl, hserve⟩
  | _ => exact Or.inl ⟨rfl, rfl⟩

variable {l : List (PipelineMove × List Activity)}

/-- The world is that of the transactions of the log, and every one of them has committed. -/
structure Refines (s : Pipeline) (l : List (PipelineMove × List Activity)) : Prop where
  world : s.world = worldAfter (transactionsOf l)
  committed : transactions (transactionsOf l) = (transactionsOf l).map fun a => (a, ())

theorem transactionsOf_concat (l : List (PipelineMove × List Activity)) (m : PipelineMove)
    (acts : List Activity) : transactionsOf (l ++ [(m, acts)]) = transactionsOf l ++ acts := by
  simp [transactionsOf]

theorem Refines.step (h : s.Refines l) (hmove : s.Moves m acts s') :
    s'.Refines (l ++ [(m, acts)]) := by
  rcases hmove.serves with ⟨rfl, hworld⟩ | ⟨a, rfl, hserve⟩
  · constructor
    · rw [transactionsOf_concat, List.append_nil, hworld]
      exact h.world
    · rw [transactionsOf_concat, List.append_nil]
      exact h.committed
  · rw [h.world] at hserve
    obtain ⟨hrun, hlog⟩ := run_concat_ok hserve
    constructor
    · rw [transactionsOf_concat]
      exact hrun.symm
    · rw [transactionsOf_concat, List.map_append]
      refine hlog.trans ?_
      exact congrArg (· ++ [(a, ())]) h.committed

/-! ### Conservation -/

theorem serve_postCommits {a : Activity} {w w' : World} (hother : a.isCompletion = false)
    (h : serve a w = .ok (w', ())) :
    w'.due = w.due ++ (postCommits a w).flatMap PostCommit.targets := by
  cases a with
  | ingress call =>
    obtain ⟨k, hcommit, rfl⟩ := serve_ingress h
    have htargets : (k.effect.postCommit call.processor).flatMap PostCommit.targets =
        k.effect.planned := by
      cases k.effect with
      | problem result decision =>
        simp only [Effect.postCommit, Effect.planned]
        split_ifs
        · rw [List.flatMap_singleton]
          rfl
        · rfl
      | _ => rfl
    unfold postCommits
    dsimp only
    rw [hcommit, Option.toList_some, List.flatMap_singleton, htargets]
  | complete now c => cases hother
  | _ =>
    obtain ⟨_, _, -, rfl⟩ := World.write_eq_ok h
    exact (List.append_nil _).symm

theorem serve_complete_due {now : Timestamptz} {c : Completion} {w w' : World}
    (h : serve (.complete now c) w = .ok (w', ())) : w'.due = w.due ∧ c.target ∈ w.due := by
  obtain ⟨hdue, ⟨-, rfl⟩ | ⟨_, _, _, -, -, rfl⟩⟩ := serve_complete h
  · exact ⟨rfl, hdue⟩
  · exact ⟨rfl, hdue⟩

/-- The deliveries in the hands of requests. -/
def requested (s : Pipeline) : Multiset (UUID × String) :=
  Place.holding PostCommit.targets s.requests

theorem inHand_eq (s : Pipeline) : (s.inHand : Multiset (UUID × String)) =
    s.requested + Place.holding RunnerTask.targets s.tasks := by
  rw [inHand, ← Multiset.coe_add]
  rfl

theorem requested_answered {i : ℕ} {r : PostCommit} (hr : s.requests[i]? = some r)
    (hrest : r.rest = []) : Place.holding PostCommit.targets (s.requests.eraseIdx i) = s.requested := by
  rw [requested, Place.holding_eraseIdx hr, PostCommit.targets, hrest]
  exact (zero_add _).symm

/-- A round hands on one delivery. -/
theorem requested_round {i : ℕ} {r : PostCommit} {pluginName : String} {rest : List String}
    (hr : s.requests[i]? = some r) (hrest : r.rest = pluginName :: rest) :
    (r.incidentId, pluginName) ::ₘ
      Place.holding PostCommit.targets (s.requests.set i { r with rest }) = s.requested := by
  have htargets : (r.targets : Multiset (UUID × String)) =
      {(r.incidentId, pluginName)} + ↑(PostCommit.targets { r with rest }) := by
    rw [PostCommit.targets, hrest]
    rfl
  have hset := Place.holding_set (f := PostCommit.targets) hr { r with rest }
  rw [htargets, add_right_comm, add_comm] at hset
  rw [← Multiset.singleton_add]
  exact add_left_cancel hset

theorem requested_aborted {i : ℕ} {r : PostCommit} {pluginName : String} {rest : List String}
    (hr : s.requests[i]? = some r) (hrest : r.rest = pluginName :: rest) :
    Place.holding PostCommit.targets (s.requests.eraseIdx i) +
        ↑((r.incidentId, pluginName) :: rest.map fun m => (r.incidentId, m)) = s.requested := by
  rw [requested, Place.holding_eraseIdx hr, PostCommit.targets, hrest, add_comm]
  rfl

/-- The deliveries of a pipeline in custody. -/
def custody (s : Pipeline) : Custody (UUID × String) Ending := ⟨s.world.due, s.inHand, s.ended⟩

theorem custody_moves {ks : List (UUID × String)} {es : List ((UUID × String) × Ending)}
    (hdue : s'.world.due = s.world.due ++ ks) (hended : s'.ended = s.ended ++ es)
    (hheld : s'.requested + Place.holding RunnerTask.targets s'.tasks + ↑(es.map Prod.fst) =
      s.requested + Place.holding RunnerTask.targets s.tasks + ↑ks) :
    Custody.Moves s.custody s'.custody ks es := by
  refine ⟨hdue, hended, ?_⟩
  show (s'.inHand : Multiset (UUID × String)) + _ = (s.inHand : Multiset (UUID × String)) + _
  rw [inHand_eq, inHand_eq]
  exact hheld

/-- A task that ends settles its delivery. -/
theorem custody_finish {i : ℕ} {t : RunnerTask} {e : Ending} (ht : s.tasks[i]? = some t)
    (hdue : s'.world.due = s.world.due) (hrequests : s'.requests = s.requests)
    (htasks : s'.tasks = s.tasks.eraseIdx i) (hended : s'.ended = s.ended ++ [(t.task.target, e)]) :
    Custody.Moves s.custody s'.custody [] [(t.task.target, e)] := by
  refine custody_moves (hdue.trans (List.append_nil _).symm) hended ?_
  rw [requested, hrequests, htasks, Place.holding_eraseIdx ht, requested]
  simp only [RunnerTask.targets, List.map_cons, List.map_nil, Multiset.coe_nil]
  abel

/-- A task that goes on keeps it. -/
theorem custody_goOn {i : ℕ} {t : RunnerTask} {phase : TaskPhase} (ht : s.tasks[i]? = some t)
    (hdue : s'.world.due = s.world.due) (hrequests : s'.requests = s.requests)
    (htasks : s'.tasks = s.tasks.set i ⟨t.task, phase⟩) (hended : s'.ended = s.ended) :
    Custody.Moves s.custody s'.custody [] [] := by
  refine custody_moves (hdue.trans (List.append_nil _).symm) (hended.trans (List.append_nil _).symm)
    ?_
  have hsame := Place.holding_set_same (f := RunnerTask.targets) (b := ⟨t.task, phase⟩) ht rfl
  rw [requested, hrequests, htasks, hsame, requested]
  rfl

theorem Moves.custody (h : s.Moves m acts s') :
    ∃ ks es, Custody.Moves s.custody s'.custody ks es := by
  cases h with
  | @transact a w hother hserve =>
    refine ⟨(postCommits a s.world).flatMap PostCommit.targets, [], ?_⟩
    refine custody_moves (serve_postCommits hother hserve) (List.append_nil _).symm ?_
    show Place.holding PostCommit.targets (s.requests ++ postCommits a s.world) + _ + _ = _
    rw [Place.holding_append, requested, List.map_nil, Multiset.coe_nil, add_zero]
    exact add_right_comm _ _ _
  | answered hr hrest =>
    refine ⟨[], [], custody_moves (List.append_nil _).symm (List.append_nil _).symm ?_⟩
    show Place.holding PostCommit.targets (s.requests.eraseIdx _) + _ + _ = _
    rw [requested_answered hr hrest]
    rfl
  | accepted hr hrest =>
    refine ⟨[], [], custody_moves (List.append_nil _).symm (List.append_nil _).symm ?_⟩
    show Place.holding PostCommit.targets (s.requests.set _ _) +
      Place.holding RunnerTask.targets (s.tasks ++ [_]) + _ = _
    rw [← requested_round hr hrest, Place.holding_append, Place.holding_single,
      ← Multiset.singleton_add]
    simp only [RunnerTask.targets, PostCommit.task, NotifyTask.target, List.map_nil,
      Multiset.coe_nil, Multiset.coe_singleton]
    abel
  | @terminal _ r pluginName _ _ result _ _ _ _ hr hrest _ _ hserve =>
    refine ⟨[], [((r.incidentId, pluginName), .recorded result)], custody_moves ?_ rfl ?_⟩
    · exact (serve_complete_due hserve).1.trans (List.append_nil _).symm
    show Place.holding PostCommit.targets (s.requests.set _ _) +
      Place.holding RunnerTask.targets s.tasks + _ = _
    rw [← requested_round hr hrest, ← Multiset.singleton_add]
    simp only [List.map_cons, List.map_nil, Multiset.coe_nil, Multiset.coe_singleton]
    abel
  | @aborted _ r pluginName rest _ _ _ _ _ hr hrest =>
    refine ⟨[], _, custody_moves (List.append_nil _).symm rfl ?_⟩
    show Place.holding PostCommit.targets (s.requests.eraseIdx _) + _ + _ = _
    have hmap : (((r.incidentId, pluginName), Ending.failed) ::
        rest.map fun m => ((r.incidentId, m), Ending.dropped)).map Prod.fst =
          (r.incidentId, pluginName) :: rest.map fun m => (r.incidentId, m) := by
      simp
    rw [hmap, ← requested_aborted hr hrest, Multiset.coe_nil, add_zero]
    exact add_right_comm _ _ _
  | returned htask => exact ⟨_, _, custody_finish htask rfl rfl rfl rfl⟩
  | unloaded htask => exact ⟨_, _, custody_finish htask rfl rfl rfl rfl⟩
  | refused htask => exact ⟨_, _, custody_goOn htask rfl rfl rfl rfl⟩
  | loaded htask => exact ⟨_, _, custody_goOn htask rfl rfl rfl rfl⟩
  | send htask => exact ⟨_, _, custody_goOn htask rfl rfl rfl rfl⟩
  | sent htask => exact ⟨_, _, custody_goOn htask rfl rfl rfl rfl⟩
  | recorded htask hserve =>
    exact ⟨_, _, custody_finish htask (serve_complete_due hserve).1 rfl rfl rfl⟩
  | unrecorded htask => exact ⟨_, _, custody_finish htask rfl rfl rfl rfl⟩
  | restart d =>
    refine ⟨[], s.inHand.map fun k => (k, .lost), (List.append_nil _).symm, rfl, ?_⟩
    show ((0 : Multiset (UUID × String)) + _) = (s.inHand : Multiset (UUID × String)) + _
    rw [List.map_map, show (Prod.fst ∘ fun k : UUID × String => (k, Ending.lost)) = id from rfl,
      List.map_id, zero_add]
    exact (add_zero _).symm

/-! ### What has been sent -/

/-- Deliveries that may still be sent, against those that have been. -/
def sending (s : Pipeline) : Custody (UUID × String) NotificationEnvelope :=
  ⟨s.world.due, s.requested + Place.holding RunnerTask.unsent s.tasks,
    s.sends.map fun p => (p.1.target, p.2)⟩

theorem sending_discards (ks : List (UUID × String)) (sent : List (NotifyTask × NotificationEnvelope))
    (hdue : s'.world.due = s.world.due ++ ks) (hsends : s'.sends = s.sends ++ sent)
    (hheld : s'.requested + Place.holding RunnerTask.unsent s'.tasks +
      ↑(sent.map fun p => p.1.target) ≤
        s.requested + Place.holding RunnerTask.unsent s.tasks + ↑ks) :
    Custody.Discards s.sending s'.sending ks (sent.map fun p => (p.1.target, p.2)) := by
  refine ⟨hdue, ?_, ?_⟩
  · show s'.sends.map _ = s.sends.map _ ++ _
    rw [hsends, List.map_append]
  · rw [List.map_map]
    exact hheld

theorem unsent_eraseIdx {i : ℕ} {t : RunnerTask} (ht : s.tasks[i]? = some t) :
    Place.holding RunnerTask.unsent (s.tasks.eraseIdx i) ≤
      Place.holding RunnerTask.unsent s.tasks := by
  rw [Place.holding_eraseIdx ht]
  exact le_add_self

theorem unsent_set {i : ℕ} {t t' : RunnerTask} (ht : s.tasks[i]? = some t)
    (h : (t'.unsent : Multiset (UUID × String)) ≤ t.unsent) :
    Place.holding RunnerTask.unsent (s.tasks.set i t') ≤
      Place.holding RunnerTask.unsent s.tasks := by
  have hset := Place.holding_set (f := RunnerTask.unsent) ht t'
  refine le_of_add_le_add_left (a := (t.unsent : Multiset (UUID × String))) ?_
  rw [hset]
  exact Multiset.add_le_add_right h

/-- A task that ends or goes on sends nothing. -/
theorem sending_tasks (hdue : s'.world.due = s.world.due) (hrequests : s'.requests = s.requests)
    (hsends : s'.sends = s.sends)
    (htasks : Place.holding RunnerTask.unsent s'.tasks ≤ Place.holding RunnerTask.unsent s.tasks) :
    Custody.Discards s.sending s'.sending [] [] := by
  refine sending_discards [] [] (hdue.trans (List.append_nil _).symm)
    (hsends.trans (List.append_nil _).symm) ?_
  rw [requested, hrequests, requested]
  simp only [List.map_nil, Multiset.coe_nil, add_zero]
  exact Multiset.add_le_add_left htasks

theorem Moves.sending (h : s.Moves m acts s') :
    ∃ ks es, Custody.Discards s.sending s'.sending ks es := by
  cases h with
  | @transact a w hother hserve =>
    refine ⟨_, _, sending_discards _ [] (serve_postCommits hother hserve)
      (List.append_nil _).symm (le_of_eq ?_)⟩
    show Place.holding PostCommit.targets (s.requests ++ postCommits a s.world) + _ + _ = _
    rw [Place.holding_append, requested, List.map_nil, Multiset.coe_nil, add_zero]
    exact add_right_comm _ _ _
  | answered hr hrest =>
    refine ⟨_, _, sending_discards [] [] (List.append_nil _).symm
      (List.append_nil _).symm (le_of_eq ?_)⟩
    show Place.holding PostCommit.targets (s.requests.eraseIdx _) + _ + _ = _
    rw [requested_answered hr hrest]
    rfl
  | accepted hr hrest =>
    refine ⟨_, _, sending_discards [] [] (List.append_nil _).symm
      (List.append_nil _).symm (le_of_eq ?_)⟩
    show Place.holding PostCommit.targets (s.requests.set _ _) +
      Place.holding RunnerTask.unsent (s.tasks ++ [_]) + _ = _
    rw [← requested_round hr hrest, Place.holding_append, Place.holding_single,
      ← Multiset.singleton_add]
    simp only [RunnerTask.unsent, PostCommit.task, NotifyTask.target, List.map_nil,
      Multiset.coe_nil, Multiset.coe_singleton]
    abel
  | terminal hr hrest _ _ hserve =>
    refine ⟨_, _, sending_discards [] []
      ((serve_complete_due hserve).1.trans (List.append_nil _).symm) (List.append_nil _).symm ?_⟩
    show Place.holding PostCommit.targets (s.requests.set _ _) + _ + _ ≤ _
    rw [← requested_round hr hrest]
    simp only [List.map_nil, Multiset.coe_nil, add_zero]
    exact Multiset.add_le_add_right (Multiset.le_cons_self _ _)
  | aborted hr hrest =>
    refine ⟨_, _, sending_discards [] [] (List.append_nil _).symm
      (List.append_nil _).symm ?_⟩
    show Place.holding PostCommit.targets (s.requests.eraseIdx _) + _ + _ ≤ _
    rw [← requested_aborted hr hrest]
    simp only [List.map_nil, Multiset.coe_nil, add_zero]
    exact Multiset.add_le_add_right le_self_add
  | returned htask => exact ⟨_, _, sending_tasks rfl rfl rfl (unsent_eraseIdx htask)⟩
  | unloaded htask => exact ⟨_, _, sending_tasks rfl rfl rfl (unsent_eraseIdx htask)⟩
  | refused htask =>
    exact ⟨_, _, sending_tasks rfl rfl rfl (unsent_set htask (Multiset.zero_le _))⟩
  | loaded htask => exact ⟨_, _, sending_tasks rfl rfl rfl (unsent_set htask le_rfl)⟩
  | @send i task envelope htask =>
    refine ⟨_, _, sending_discards [] [(task, envelope)] (List.append_nil _).symm
      rfl (le_of_eq ?_)⟩
    show s.requested + Place.holding RunnerTask.unsent (s.tasks.set i ⟨task, .sending⟩) + _ = _
    have hset := Place.holding_set (f := RunnerTask.unsent) htask ⟨task, .sending⟩
    simp only [RunnerTask.unsent, Multiset.coe_nil, zero_add] at hset
    rw [← hset]
    simp only [List.map_cons, List.map_nil, Multiset.coe_nil]
    abel
  | sent htask => exact ⟨_, _, sending_tasks rfl rfl rfl (unsent_set htask (Multiset.zero_le _))⟩
  | recorded htask hserve =>
    exact ⟨_, _, sending_tasks (serve_complete_due hserve).1 rfl rfl (unsent_eraseIdx htask)⟩
  | unrecorded htask => exact ⟨_, _, sending_tasks rfl rfl rfl (unsent_eraseIdx htask)⟩
  | restart d =>
    refine ⟨_, _, sending_discards [] [] (List.append_nil _).symm
      (List.append_nil _).symm ?_⟩
    exact Multiset.zero_le _

/-! ### Runs -/

/-- The envelope is that of the incident in an earlier state, in which the delivery was planned. -/
def Told (l : List (PipelineMove × List Activity)) (task : NotifyTask)
    (envelope : NotificationEnvelope) : Prop :=
  ∃ before, before <+: transactionsOf l ∧ task.target ∈ (worldAfter before).due ∧
    ∃ r ∈ (worldAfter before).database.incidents, r.id = task.incidentId ∧
      envelope.val = r.envelopeFields

theorem Told.concat {task : NotifyTask} {envelope : NotificationEnvelope}
    (h : Told l task envelope) (c : PipelineMove × List Activity) :
    Told (l ++ [c]) task envelope := by
  obtain ⟨before, hprefix, hdue, hrow⟩ := h
  refine ⟨before, hprefix.trans ?_, hdue, hrow⟩
  rw [transactionsOf_concat]
  exact List.prefix_append _ _

/-- What is known of every pipeline a run reaches. -/
structure Sound (s : Pipeline) (l : List (PipelineMove × List Activity)) : Prop where
  refines : s.Refines l
  conserved : s.custody.Conserved
  sending : s.sending.Within
  loaded : ∀ t ∈ s.tasks, ∀ envelope, t.phase = .loaded envelope → Told l t.task envelope
  told : ∀ p ∈ s.sends, Told l p.1 p.2

theorem Sound.due (h : s.Sound l) {t : RunnerTask} (ht : t ∈ s.tasks) :
    t.task.target ∈ s.world.due := by
  refine h.conserved.mem_issued_iff.mpr (Or.inl (Multiset.mem_coe.mpr ?_))
  exact List.mem_append_right _ (List.mem_flatMap.mpr ⟨t, ht, List.mem_singleton_self _⟩)

/-- A task in a list of which one entry has changed. -/
theorem loaded_set {i : ℕ} {t' : RunnerTask} (h : s.Sound l)
    (ht' : ∀ envelope, t'.phase = .loaded envelope → Told l t'.task envelope) :
    ∀ t ∈ s.tasks.set i t', ∀ envelope, t.phase = .loaded envelope → Told l t.task envelope := by
  intro t ht envelope hphase
  rcases List.mem_or_eq_of_mem_set ht with hold | rfl
  · exact h.loaded t hold envelope hphase
  · exact ht' envelope hphase

theorem Moves.loadedTasks (hmove : s.Moves m acts s') (h : s.Sound l) :
    ∀ t ∈ s'.tasks, ∀ envelope, t.phase = .loaded envelope → Told l t.task envelope := by
  have herase : ∀ i, ∀ t ∈ s.tasks.eraseIdx i, ∀ envelope, t.phase = .loaded envelope →
      Told l t.task envelope := fun i t ht => h.loaded t (List.mem_of_mem_eraseIdx ht)
  cases hmove with
  | transact | answered | terminal | aborted => exact h.loaded
  | accepted =>
    intro t ht envelope hphase
    rcases List.mem_append.mp ht with hold | hnew
    · exact h.loaded t hold envelope hphase
    · rw [List.mem_singleton.mp hnew] at hphase
      cases hphase
  | returned | unloaded | recorded | unrecorded => exact herase _
  | refused | send | sent => exact loaded_set (s := s) h fun envelope hphase => by cases hphase
  | @loaded i task r envelope _ htask hr hid henvelope =>
    refine loaded_set h fun envelope' hphase => ?_
    obtain rfl := TaskPhase.loaded.inj hphase
    refine ⟨transactionsOf l, List.prefix_rfl, ?_, r, ?_, hid, ?_⟩
    · rw [← h.refines.world]
      exact h.due (t := ⟨task, .accepted⟩) (List.mem_of_getElem? htask)
    · rw [← h.refines.world]
      exact hr
    · exact envelopeFromIncident_eq_ok.mp henvelope
  | restart d => exact List.forall_mem_nil _

theorem Moves.sends (hmove : s.Moves m acts s') (h : s.Sound l) : ∀ p ∈ s'.sends, Told l p.1 p.2 := by
  cases hmove with
  | @send i task envelope htask =>
    refine List.forall_mem_append.mpr ⟨h.told, List.forall_mem_singleton.mpr ?_⟩
    exact h.loaded _ (List.mem_of_getElem? htask) envelope rfl
  | _ => exact h.told

theorem Sound.step (h : s.Sound l) (hmove : s.Moves m acts s') : s'.Sound (l ++ [(m, acts)]) := by
  obtain ⟨_, _, hcustody⟩ := hmove.custody
  obtain ⟨_, _, hsending⟩ := hmove.sending
  refine ⟨h.refines.step hmove, hcustody.conserved h.conserved, hsending.within h.sending, ?_, ?_⟩
  · exact fun t ht envelope hphase => (hmove.loadedTasks h t ht envelope hphase).concat _
  · exact fun p hp => (hmove.sends h p hp).concat _

end Pipeline

open Pipeline

/-- **Run lemma**: every pipeline a run reaches is sound. -/
theorem pipelineAfter_sound (d : NotificationDispatcher) (moves : List PipelineMove) :
    (pipelineAfter d moves).Sound (pipelineLog d moves) := by
  have hstart : Sound ⟨⟨⟨[], []⟩, []⟩, d, [], [], {}, [], []⟩ [] :=
    ⟨⟨rfl, rfl⟩, rfl, le_rfl, List.forall_mem_nil _, List.forall_mem_nil _⟩
  refine run_induction (R := fun l (s : Pipeline) => s.Sound l) hstart ?_ moves
  intro before m s' acts h hstep
  exact h.step (step_moves hstep)

theorem Pipeline.Sound.once {s : Pipeline} {l : List (PipelineMove × List Activity)}
    (h : s.Sound l) : s.world.due.Nodup := by
  rw [h.refines.world]
  exact (worldAfter_planned _).once

/-- No delivery has been sent twice. -/
theorem Pipeline.Sound.sends_once {s : Pipeline} {l : List (PipelineMove × List Activity)}
    (h : s.Sound l) : (s.sends.map fun p => p.1.target).Nodup := by
  have hsettled : ((s.sends.map fun p => (p.1.target, p.2)).map Prod.fst).Nodup :=
    (h.sending.once h.once).2.1
  rwa [List.map_map] at hsettled

/-- **Conservation**: after any run, whatever fails and however often the process ends, the database
is one that transactions of the service leave; every planned delivery is in one hand or has one
ending, and nothing else is; so when requests and tasks are done, every one has exactly one ending. -/
theorem deliveries_conserved (d : NotificationDispatcher) (moves : List PipelineMove) :
    (pipelineAfter d moves).world = worldAfter (transactionsOf (pipelineLog d moves)) ∧
    (∀ k, k ∈ (pipelineAfter d moves).world.due ↔
      k ∈ (pipelineAfter d moves).inHand ∨ ∃ e, (k, e) ∈ (pipelineAfter d moves).ended) ∧
    (pipelineAfter d moves).inHand.Nodup ∧
    ((pipelineAfter d moves).ended.map Prod.fst).Nodup ∧
    (∀ k ∈ (pipelineAfter d moves).inHand, ∀ e, (k, e) ∉ (pipelineAfter d moves).ended) ∧
    ((pipelineAfter d moves).requests = [] → (pipelineAfter d moves).tasks = [] →
      ∀ k ∈ (pipelineAfter d moves).world.due, ∃! e, (k, e) ∈ (pipelineAfter d moves).ended) := by
  have h := pipelineAfter_sound d moves
  obtain ⟨hinHand, hended, hdisjoint⟩ := h.conserved.within.once h.once
  refine ⟨h.refines.world, fun k => h.conserved.mem_issued_iff, Multiset.coe_nodup.mp hinHand, hended,
    fun k hk => hdisjoint k (Multiset.mem_coe.mpr hk), fun hrequests htasks k hk => ?_⟩
  refine h.conserved.all_settled h.once ?_ hk
  show ((pipelineAfter d moves).inHand : Multiset (UUID × String)) = 0
  rw [inHand, hrequests, htasks]
  rfl

/-- **At most once**: after any run, no delivery has been sent twice, and what was sent told an
incident as it stood in an earlier state of the database, when the delivery had been planned. -/
theorem sent_at_most_once (d : NotificationDispatcher) (moves : List PipelineMove) :
    ((pipelineAfter d moves).sends.map fun p => p.1.target).Nodup ∧
    ∀ p ∈ (pipelineAfter d moves).sends, Told (pipelineLog d moves) p.1 p.2 := by
  have h := pipelineAfter_sound d moves
  exact ⟨h.sends_once, h.told⟩

end Correlia
