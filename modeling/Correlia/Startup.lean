import Correlia.Draining
import Correlia.Main

/-!
# Startup — what a process that has started cannot run into

A service is a succession of processes, each put together by `lifespan` from what it is deployed
with.  The processor that submits a task and the dispatcher that takes it work with one registry,
and the rules have been checked against it: so of the ways a delivery can end, those that tell of a
configuration that does not fit are out.
-/

namespace Correlia

open Lib Pipeline

/-- A deployment ends the process that runs; the requests are those of the processor. -/
inductive ServiceMove
  | deploy (d : Deployment)
  | ingress (req : IngressRequest)
  | transact (a : Activity)
  | inner (m : PipelineMove)

/-- The process that runs, unless its startup has failed, and its pipeline. -/
structure RunningService where
  app : Option Application
  pipeline : Pipeline

def Activity.isIngress : Activity → Bool
  | ingress _ => true
  | _ => false

/-- The application a deployment starts. -/
def Deployment.started (d : Deployment) : Option Application := d.lifespan.toOption

namespace RunningService

/-- The move of the pipeline. -/
def pipelineMove (app : Option Application) : ServiceMove → Option PipelineMove
  | .deploy d => some (.restart ((d.started.map Application.dispatcher).getD ⟨none, []⟩))
  | .ingress req => app.map fun app => .transact (.ingress ⟨app.processor, req⟩)
  | .transact a => if a.isIngress then none else app.map fun _ => .transact a
  | .inner m => if m.inner then some m else none

def appAfter (app : Option Application) : ServiceMove → Option Application
  | .deploy d => d.started
  | _ => app

def step (m : ServiceMove) (s : RunningService) :
    Except Unit (RunningService × (PipelineMove × List Activity)) :=
  match pipelineMove s.app m with
  | none => .error ()
  | some p =>
    match Pipeline.step p s.pipeline with
    | .ok (pipeline, acts) => .ok (⟨appAfter s.app m, pipeline⟩, (p, acts))
    | .error _ => .error ()

end RunningService

def serviceStart : RunningService := ⟨none, ⟨⟨⟨[], []⟩, []⟩, ⟨none, []⟩, [], [], {}, [], []⟩⟩

/-- The service after a run from an empty database, before any process. -/
def serviceAfter (moves : List ServiceMove) : RunningService :=
  run RunningService.step serviceStart moves

/-- The moves that were possible, each as a move of the pipeline with its transactions. -/
def serviceLog (moves : List ServiceMove) : List (ServiceMove × (PipelineMove × List Activity)) :=
  log RunningService.step serviceStart moves

/-- The moves of the pipeline. -/
def pipelineMoves (moves : List ServiceMove) : List PipelineMove :=
  (serviceLog moves).map fun c => c.2.1

namespace RunningService

theorem step_eq_ok {m : ServiceMove} {s s' : RunningService} {c : PipelineMove × List Activity}
    (h : step m s = .ok (s', c)) : pipelineMove s.app m = some c.1 ∧
      Pipeline.step c.1 s.pipeline = .ok (s'.pipeline, c.2) ∧ s'.app = appAfter s.app m := by
  unfold step at h
  split at h
  · cases h
  · rename_i p hp
    split at h
    · rename_i pipeline acts hstep
      cases h
      exact ⟨hp, hstep, rfl⟩
    · cases h

end RunningService

/-- **Refinement**: the pipeline of a service is that of the moves of its processes. -/
theorem service_pipeline (moves : List ServiceMove) :
    (serviceAfter moves).pipeline = pipelineAfter ⟨none, []⟩ (pipelineMoves moves) ∧
    (serviceLog moves).map Prod.snd = pipelineLog ⟨none, []⟩ (pipelineMoves moves) := by
  refine run_induction (R := fun (l : List (ServiceMove × (PipelineMove × List Activity)))
    (s : RunningService) => s.pipeline = pipelineAfter ⟨none, []⟩ (l.map fun c => c.2.1) ∧
      l.map Prod.snd = pipelineLog ⟨none, []⟩ (l.map fun c => c.2.1)) ⟨rfl, rfl⟩ ?_ moves
  rintro before m s' c ⟨hpipeline, hlog⟩ h
  obtain ⟨-, hstep, -⟩ := RunningService.step_eq_ok h
  rw [hpipeline] at hstep
  obtain ⟨hrun, hcommitted⟩ := run_concat_ok hstep
  rw [List.map_append, List.map_append, List.map_singleton, List.map_singleton, hlog]
  exact ⟨hrun.symm, hcommitted.symm⟩

/-! ### Recordings that are due -/

/-- A due delivery can be recorded in every state of a run. -/
theorem World.persist_due {w : World} {acts : List Activity} (hw : w = worldAfter acts)
    {target : UUID × String} (hdue : target ∈ w.due) (now : Timestamptz)
    (result : NotificationResult) : ∃ w', w.persist now target result true = some w' := by
  subst hw
  obtain ⟨r, -, -, name, context, -, hok, -⟩ :=
    (worldAfter_ledger acts).records now (worldAfter_stored acts) (worldAfter_planned acts) hdue result
  have hwrite : serve (.complete now (.terminal target.1 target.2 result)) (worldAfter acts) =
      (worldAfter acts).write (recordNotificationResult now target.1 target.2 result) := if_pos hdue
  rw [World.write, hok] at hwrite
  exact ⟨_, World.persist_eq_some.mpr ⟨rfl, hwrite⟩⟩

/-! ### A process that has started -/

/-- The plugins a rule may name are those of the registry, if there are any. -/
def Application.Registers (app : Application) (pluginName : String) : Prop :=
  app.dispatcher.pluginNames ≠ [] → pluginName ∈ app.dispatcher.pluginNames

/-- Nothing fails that is not the plugin's. -/
def PipelineMove.faultless : PipelineMove → Bool
  | submit _ _ accepts persists => accepts && persists
  | start _ loads => loads
  | record _ _ persists => persists
  | _ => true

/-- The endings a process can come to in a move. -/
def Application.Expected (app : Application) (m : PipelineMove) (e : Ending) : Prop :=
  (∃ sends, e = .recorded (sendResult sends)) ∨
  (e = .recorded missingPlugin ∧ app.dispatcher.pluginNames = []) ∨
  (m.faultless = false ∧ e ∈ [.recorded submitFailed, .failed, .dropped])

namespace Pipeline

/-- The requests and tasks of a pipeline are those of a process. -/
structure MannedBy (app : Application) (s : Pipeline) : Prop where
  dispatcher : s.dispatcher = app.dispatcher
  requests : ∀ r ∈ s.requests, r.processor = app.processor ∧ ∀ n ∈ r.rest, app.Registers n
  tasks : ∀ t ∈ s.tasks, t.task.configHash = app.processor.configHash ∧
    t.task.pluginName ∈ app.dispatcher.pluginNames ∧
    ∀ result, t.phase = .recording result → ∃ sends, result = sendResult sends

variable {app : Application} {s s' : Pipeline} {m : PipelineMove} {acts : List Activity}
  {l : List (PipelineMove × List Activity)}

theorem MannedBy.start (app : Application) (s : Pipeline) :
    MannedBy app ⟨s.world, app.dispatcher, [], [], {}, s.sends, s.ended ++ s.inHand.map fun k => (k, .lost)⟩ :=
  ⟨rfl, List.forall_mem_nil _, List.forall_mem_nil _⟩

/-- The decision of a matched rule has the actions of the rule. -/
theorem evaluate_actions {rules : List CompiledRule} {event : NormalizedEvent} {decision : RuleMatch}
    (h : evaluate rules event = .ok (.ruleMatch decision)) :
    ∃ c ∈ rules, decision.val.actions = c.definition.val.actions.map fun a => a.val.plugin := by
  have hnoop : ∀ reason, NoOpDecision.ofReason reason ≠ .ok (.ruleMatch decision) := by
    intro reason hreason
    obtain ⟨_, -, heq⟩ := bind_eq_ok.mp hreason
    cases heq
  unfold evaluate at h
  split_ifs at h
  · exact absurd h (hnoop _)
  · split at h
    · exact absurd h (hnoop _)
    · rename_i compiled hfirst
      have hmem := mem_sortBy.mp (List.mem_of_find?_eq_some hfirst)
      unfold decideRule at h
      split at h
      · exact absurd h (hnoop _)
      · obtain ⟨d, hd, heq⟩ := bind_eq_ok.mp h
        cases heq
        refine ⟨compiled, hmem, ?_⟩
        rw [modelValidate_eq_ok.mp (liftError_eq_ok.mp hd)]
        rfl

theorem applyEvent_decision {p : Icinga2DecisionProcessor} {req : IngressRequest}
    {e : AcceptedEvent} {t t' : List Incident} {result : IncidentAggregationResult}
    {decision : RuleMatch} (h : p.applyEvent req e t = .ok (t', .problem result decision)) :
    e.decision = .ruleMatch decision := by
  unfold Icinga2DecisionProcessor.applyEvent at h
  split at h
  · rename_i hdecision
    obtain ⟨_, -, h⟩ := bind_eq_ok.mp h
    cases h
    exact hdecision
  · obtain ⟨_, -, h⟩ := bind_eq_ok.mp h
    cases h
  · cases h

/-- What a request of the process has to submit. -/
theorem postCommits_manned (hwired : app.Wired) {req : IngressRequest} {w : World} :
    ∀ r ∈ postCommits (.ingress ⟨app.processor, req⟩) w,
      r.processor = app.processor ∧ ∀ n ∈ r.rest, app.Registers n := by
  intro r hr
  obtain ⟨k, hk, hr⟩ := List.mem_flatMap.mp hr
  rw [Option.mem_toList] at hk
  obtain ⟨event, _, -, haccept, -⟩ := PayloadCall.commit_steps _ hk
  obtain ⟨_, -, -, hcommitted, -⟩ := PayloadCall.commit_eq_some _ hk
  have happlied := hcommitted.applied
  unfold Effect.postCommit at hr
  split at hr
  · rename_i result decision heffect
    split_ifs at hr
    · rw [heffect] at happlied
      obtain rfl := List.mem_singleton.mp hr
      refine ⟨rfl, fun n hn hne => ?_⟩
      have hevaluate := (Icinga2DecisionProcessor.accept_eq_ok haccept).2
      rw [applyEvent_decision happlied, Icinga2DecisionProcessor.evaluateRules] at hevaluate
      split at hevaluate
      · rename_i rules hrules
        obtain ⟨c, hc, hactions⟩ := evaluate_actions hevaluate
        rw [mem_sortedSet, hactions] at hn
        exact hwired.actions hne rules hrules c hc n hn
      · obtain ⟨_, -, heq⟩ := bind_eq_ok.mp hevaluate
        cases heq
    · cases hr
  · cases hr

/-- A task the runner has accepted goes on to load its incident. -/
theorem MannedBy.opening (hwired : app.Wired) (h : s.MannedBy app) (hsound : s.Sound l)
    {t : RunnerTask} (ht : t ∈ s.tasks) : s.dispatcher.opening t.task = .loads := by
  obtain ⟨hhash, hname, -⟩ := h.tasks t ht
  obtain ⟨configHash, hlength, hprocessor, hdispatcher⟩ := hwired.hash
  have hbounded : Bounded t.task.pluginName := by
    have hdue := hsound.due ht
    rw [hsound.refines.world] at hdue
    exact (worldAfter_planned _).bounded _ hdue
  have hvalid : t.task.errors = [] := by
    rw [NotifyTask.errors, hhash, hprocessor, List.append_eq_nil_iff, strErrors_eq_nil,
      optErrors_eq_nil]
    refine ⟨hbounded, fun s hs => ?_⟩
    obtain rfl := Option.some.inj hs
    exact check_eq_nil.mpr (decide_eq_true hlength)
  have hfresh : ¬(t.task.configHash.any fun h =>
      s.dispatcher.configHash.any fun h' => decide (h ≠ h')) = true := by
    rw [hhash, hprocessor, h.dispatcher, hdispatcher]
    simp
  unfold NotificationDispatcher.opening
  rw [if_neg (not_not.mpr hvalid), if_neg hfresh, h.dispatcher, if_neg (not_not.mpr hname)]

/-- The incident of a task is there, and has an envelope. -/
theorem Sound.incident (hsound : s.Sound l) {t : RunnerTask} (ht : t ∈ s.tasks) :
    ∃ r ∈ s.world.database.incidents, r.id = t.task.incidentId := by
  have hdue := hsound.due ht
  rw [hsound.refines.world] at hdue ⊢
  obtain ⟨r, hr, hid, -⟩ := (worldAfter_planned _).crossed _ hdue
  exact ⟨r, hr, hid⟩

theorem Sound.envelope (hsound : s.Sound l) {r : Incident} (hr : r ∈ s.world.database.incidents) :
    ∃ envelope, envelopeFromIncident r = .ok envelope := by
  rw [hsound.refines.world] at hr
  exact (worldAfter_presentable _ r hr).envelope

/-- A recording that fails is one the database refuses. -/
theorem Sound.refused (hsound : s.Sound l) {target : UUID × String} (hdue : target ∈ s.world.due)
    {now : Timestamptz} {result : NotificationResult} {persists : Bool}
    (h : s.world.persist now target result persists = none) : persists = false := by
  cases persists with
  | false => rfl
  | true =>
    obtain ⟨w, hw⟩ := World.persist_due hsound.refines.world hdue now result
    rw [hw] at h
    cases h

theorem Sound.requested_due (hsound : s.Sound l) {i : ℕ} {r : PostCommit}
    (hr : s.requests[i]? = some r) {pluginName : String} {rest : List String}
    (hrest : r.rest = pluginName :: rest) : (r.incidentId, pluginName) ∈ s.world.due := by
  have hk : (r.incidentId, pluginName) ∈ r.targets := by
    rw [PostCommit.targets, hrest]
    exact List.mem_cons_self
  refine hsound.conserved.mem_issued_iff.mpr (Or.inl (Multiset.mem_coe.mpr ?_))
  exact List.mem_append_left _ (List.mem_flatMap.mpr ⟨r, List.mem_of_getElem? hr, hk⟩)

/-- What a submission of the process comes to. -/
theorem MannedBy.submission (hwired : app.Wired) (h : s.MannedBy app) {r : PostCommit}
    (hr : r ∈ s.requests) {pluginName : String} {rest : List String}
    (hrest : r.rest = pluginName :: rest) (accepts : Bool) :
    (r.processor.submission accepts pluginName = .missingPlugin ∧ app.dispatcher.pluginNames = []) ∨
    pluginName ∈ app.dispatcher.pluginNames ∧
      r.processor.submission accepts pluginName = if accepts then .accepted else .submitFailed := by
  obtain ⟨hprocessor, hnames⟩ := h.requests r hr
  have hregisters := hnames pluginName (by rw [hrest]; exact List.mem_cons_self)
  have hsubmission : r.processor.submission accepts pluginName =
      if pluginName ∉ app.dispatcher.pluginNames then .missingPlugin
      else if accepts then .accepted else .submitFailed := by
    rw [Icinga2DecisionProcessor.submission, hprocessor, hwired.runner, hwired.names]
    rfl
  rw [hsubmission]
  by_cases hempty : app.dispatcher.pluginNames = []
  · refine Or.inl ⟨if_pos ?_, hempty⟩
    rw [hempty]
    exact List.not_mem_nil
  · exact Or.inr ⟨hregisters hempty, if_neg (not_not.mpr (hregisters hempty))⟩

/-- A request that goes on has the rest of its deliveries. -/
theorem MannedBy.set (h : s.MannedBy app) {i : ℕ} {r : PostCommit} (hr : s.requests[i]? = some r)
    {pluginName : String} {rest : List String} (hrest : r.rest = pluginName :: rest) :
    ∀ r' ∈ s.requests.set i { r with rest }, r'.processor = app.processor ∧
      ∀ n ∈ r'.rest, app.Registers n := by
  intro r' hr'
  rcases List.mem_or_eq_of_mem_set hr' with hold | rfl
  · exact h.requests r' hold
  · obtain ⟨hprocessor, hnames⟩ := h.requests r (List.mem_of_getElem? hr)
    refine ⟨hprocessor, fun n hn => hnames n ?_⟩
    rw [hrest]
    exact List.mem_cons_of_mem _ hn

theorem MannedBy.erase (h : s.MannedBy app) (i : ℕ) :
    ∀ r ∈ s.requests.eraseIdx i, r.processor = app.processor ∧ ∀ n ∈ r.rest, app.Registers n :=
  fun r hr => h.requests r (List.mem_of_mem_eraseIdx hr)

/-- A task that ends. -/
theorem MannedBy.finish (h : s.MannedBy app) {i : ℕ} {k : UUID × String} {e : Ending}
    (hdispatcher : s'.dispatcher = s.dispatcher) (hrequests : s'.requests = s.requests)
    (htasks : s'.tasks = s.tasks.eraseIdx i) (hended : s'.ended = s.ended ++ [(k, e)])
    (he : app.Expected m e) :
    s'.MannedBy app ∧ ∀ p ∈ s'.ended, p ∈ s.ended ∨ app.Expected m p.2 := by
  refine ⟨⟨hdispatcher.trans h.dispatcher, hrequests ▸ h.requests, fun t ht => ?_⟩, fun p hp => ?_⟩
  · rw [htasks] at ht
    exact h.tasks t (List.mem_of_mem_eraseIdx ht)
  · rw [hended] at hp
    rcases List.mem_append.mp hp with hold | hnew
    · exact Or.inl hold
    · obtain rfl := List.mem_singleton.mp hnew
      exact Or.inr he

/-- A task that goes on. -/
theorem MannedBy.goOn (h : s.MannedBy app) {i : ℕ} {t : RunnerTask} {phase : TaskPhase}
    (ht : s.tasks[i]? = some t) (hdispatcher : s'.dispatcher = s.dispatcher)
    (hrequests : s'.requests = s.requests) (htasks : s'.tasks = s.tasks.set i ⟨t.task, phase⟩)
    (hended : s'.ended = s.ended)
    (hphase : ∀ result, phase = .recording result → ∃ sends, result = sendResult sends) :
    s'.MannedBy app ∧ ∀ p ∈ s'.ended, p ∈ s.ended ∨ app.Expected m p.2 := by
  refine ⟨⟨hdispatcher.trans h.dispatcher, hrequests ▸ h.requests, fun t' ht' => ?_⟩, fun p hp => ?_⟩
  · rw [htasks] at ht'
    rcases List.mem_or_eq_of_mem_set ht' with hold | rfl
    · exact h.tasks t' hold
    · obtain ⟨hhash, hname, -⟩ := h.tasks t (List.mem_of_getElem? ht)
      exact ⟨hhash, hname, hphase⟩
  · rw [hended] at hp
    exact Or.inl hp

/-- **Step**: a process keeps its requests and tasks in order, and a delivery ends as expected. -/
theorem MannedBy.step (hwired : app.Wired) (h : s.MannedBy app) (hsound : s.Sound l)
    (hmove : s.Moves m acts s') (hprocess : m.isRestart = false)
    (hingress : ∀ call, m = .transact (.ingress call) → call.processor = app.processor) :
    s'.MannedBy app ∧ ∀ p ∈ s'.ended, p ∈ s.ended ∨ app.Expected m p.2 := by
  cases hmove with
  | restart => cases hprocess
  | @transact a w hother hserve =>
    refine ⟨⟨h.dispatcher, List.forall_mem_append.mpr ⟨h.requests, ?_⟩, h.tasks⟩, fun p => Or.inl⟩
    cases a with
    | ingress call =>
      obtain ⟨processor, req⟩ := call
      obtain rfl : processor = app.processor := hingress _ rfl
      exact postCommits_manned hwired
    | _ => exact List.forall_mem_nil _
  | answered hr => exact ⟨⟨h.dispatcher, h.erase _, h.tasks⟩, fun p => Or.inl⟩
  | @accepted _ r pluginName _ _ _ _ hr hrest houtcome =>
    have hmem := List.mem_of_getElem? hr
    rcases h.submission hwired hmem hrest _ with ⟨hmissing, -⟩ | ⟨hname, -⟩
    · rw [hmissing] at houtcome
      cases houtcome
    · refine ⟨⟨h.dispatcher, h.set hr hrest, List.forall_mem_append.mpr ⟨h.tasks, ?_⟩⟩, fun p => Or.inl⟩
      refine List.forall_mem_singleton.mpr ⟨?_, hname, fun result heq => by cases heq⟩
      exact congrArg Icinga2DecisionProcessor.configHash (h.requests r hmem).1
  | @terminal _ r pluginName _ outcome result _ accepts _ _ hr hrest houtcome hterminal =>
    refine ⟨⟨h.dispatcher, h.set hr hrest, h.tasks⟩, fun p hp => ?_⟩
    rcases List.mem_append.mp hp with hold | hnew
    · exact Or.inl hold
    · obtain rfl := List.mem_singleton.mp hnew
      rcases h.submission hwired (List.mem_of_getElem? hr) hrest accepts with
        ⟨hmissing, hempty⟩ | ⟨-, hsubmission⟩
      · obtain rfl := houtcome.symm.trans hmissing
        obtain rfl := Option.some.inj hterminal
        exact Or.inr (Or.inr (Or.inl ⟨rfl, hempty⟩))
      · obtain rfl := houtcome.symm.trans hsubmission
        cases accepts with
        | true => cases hterminal
        | false =>
          obtain rfl := Option.some.inj hterminal
          exact Or.inr (Or.inr (Or.inr ⟨rfl, List.mem_cons_self⟩))
  | @aborted _ r pluginName rest _ _ _ accepts _ hr hrest _ _ hpersist =>
    have hfault := hsound.refused (hsound.requested_due hr hrest) hpersist
    refine ⟨⟨h.dispatcher, h.erase _, h.tasks⟩, fun p hp => ?_⟩
    rcases List.mem_append.mp hp with hold | hnew
    · exact Or.inl hold
    · refine Or.inr (Or.inr (Or.inr ⟨by rw [PipelineMove.faultless, hfault, Bool.and_false], ?_⟩))
      rcases List.mem_cons.mp hnew with rfl | hdropped
      · simp
      · obtain ⟨_, -, rfl⟩ := List.mem_map.mp hdropped
        simp
  | @returned _ task result _ htask hresult =>
    have hmem := List.mem_of_getElem? htask
    rcases hresult with hopening | ⟨-, hnone⟩
    · have hloads := h.opening hwired hsound hmem
      cases hopening.symm.trans hloads
    · obtain ⟨r, hr, hid⟩ := hsound.incident hmem
      exact absurd hid (hnone r hr)
  | @unloaded _ task loads htask hfault =>
    refine h.finish rfl rfl rfl rfl (Or.inr (Or.inr ⟨?_, by simp⟩))
    rcases hfault with hloads | ⟨r, hr, -, hnone⟩
    · exact hloads
    · obtain ⟨envelope, hok⟩ := hsound.envelope hr
      exact absurd hok (hnone envelope)
  | @refused _ task result _ htask hopening =>
    have hloads := h.opening hwired hsound (List.mem_of_getElem? htask)
    cases hopening.symm.trans hloads
  | loaded htask => exact h.goOn htask rfl rfl rfl rfl fun result heq => by cases heq
  | send htask => exact h.goOn htask rfl rfl rfl rfl fun result heq => by cases heq
  | sent htask =>
    refine h.goOn htask rfl rfl rfl rfl fun result heq => ?_
    obtain rfl := TaskPhase.recording.inj heq
    exact ⟨_, rfl⟩
  | @recorded _ task result _ _ _ htask =>
    obtain ⟨-, -, hphase⟩ := h.tasks _ (List.mem_of_getElem? htask)
    obtain ⟨sends, rfl⟩ := hphase result rfl
    exact h.finish rfl rfl rfl rfl (Or.inl ⟨sends, rfl⟩)
  | @unrecorded _ task result _ persists htask hpersist =>
    have hfault := hsound.refused (hsound.due (List.mem_of_getElem? htask)) hpersist
    exact h.finish rfl rfl rfl rfl (Or.inr (Or.inr ⟨hfault, by simp⟩))

end Pipeline

/-! ### Runs of a service -/

/-- What is known of every state of a service. -/
structure RunningService.Manned (s : RunningService) : Prop where
  idle : s.app = none → s.pipeline.requests = [] ∧ s.pipeline.tasks = []
  manned : ∀ app, s.app = some app → app.Wired ∧ s.pipeline.MannedBy app

section

variable {s s' : RunningService} {m : ServiceMove} {c : PipelineMove × List Activity}
  {l : List (PipelineMove × List Activity)}

/-- A process that runs goes on, or a deployment starts another one. -/
theorem RunningService.Manned.step (h : s.Manned) (hsound : s.pipeline.Sound l)
    (hstep : RunningService.step m s = .ok (s', c)) : s'.Manned ∧ ∀ p ∈ s'.pipeline.ended,
      p ∈ s.pipeline.ended ∨ ((∃ d, m = .deploy d) ∧ p.2 = .lost) ∨
        ∃ app, s.app = some app ∧ s'.app = some app ∧ app.Expected c.1 p.2 := by
  obtain ⟨hmove, hpipeline, happ⟩ := RunningService.step_eq_ok hstep
  have hmoves := step_moves hpipeline
  obtain ⟨app', pipeline'⟩ := s'
  obtain ⟨p, acts⟩ := c
  dsimp only at happ hmove hmoves ⊢
  subst happ
  -- a move of the process that runs
  have hprocess : (∀ d, m ≠ .deploy d) → p.isRestart = false →
      (∀ app, s.app = some app → ∀ call, p = .transact (.ingress call) →
        call.processor = app.processor) →
      (s.app = none → p.inner = true) →
      (⟨RunningService.appAfter s.app m, pipeline'⟩ : RunningService).Manned ∧
        ∀ q ∈ pipeline'.ended, q ∈ s.pipeline.ended ∨ ((∃ d, m = .deploy d) ∧ q.2 = .lost) ∨
          ∃ app, s.app = some app ∧ RunningService.appAfter s.app m = some app ∧
            app.Expected p q.2 := by
    intro hdeploy hrestart hingress hinner
    have hsame : RunningService.appAfter s.app m = s.app := by
      cases m with
      | deploy d => exact absurd rfl (hdeploy d)
      | _ => rfl
    rw [hsame]
    cases hs : s.app with
    | none =>
      -- nothing is in flight
      have hlt := hmoves.rank_lt (hinner hs)
      obtain ⟨hrequests, htasks⟩ := h.idle hs
      have hnone : s.pipeline.rank = 0 := by
        rw [Pipeline.rank, hrequests, htasks]
        rfl
      rw [hnone] at hlt
      exact absurd hlt (Nat.not_lt_zero _)
    | some app =>
      obtain ⟨hwired, hmanned⟩ := h.manned app hs
      obtain ⟨hnext, hended⟩ := hmanned.step hwired hsound hmoves hrestart (hingress app hs)
      refine ⟨⟨fun hnone => (by cases hnone), fun app' heq => ?_⟩, fun q hq => ?_⟩
      · obtain rfl := Option.some.inj heq
        exact ⟨hwired, hnext⟩
      · rcases hended q hq with hold | hexpected
        · exact Or.inl hold
        · exact Or.inr (Or.inr ⟨app, rfl, rfl, hexpected⟩)
  cases m with
  | deploy d =>
    obtain rfl := Option.some.inj hmove
    cases hmoves
    refine ⟨⟨fun _ => ⟨rfl, rfl⟩, fun app happ => ?_⟩, fun q hq => ?_⟩
    · have hstarted : d.started = some app := happ
      rw [hstarted]
      unfold Deployment.started at hstarted
      cases hlifespan : d.lifespan with
      | error e =>
        rw [hlifespan] at hstarted
        cases hstarted
      | ok app' =>
        rw [hlifespan] at hstarted
        obtain rfl := Option.some.inj hstarted
        exact ⟨Deployment.lifespan_wired hlifespan, MannedBy.start app' s.pipeline⟩
    · rcases List.mem_append.mp hq with hold | hlost
      · exact Or.inl hold
      · obtain ⟨_, -, rfl⟩ := List.mem_map.mp hlost
        exact Or.inr (Or.inl ⟨⟨d, rfl⟩, rfl⟩)
  | ingress req =>
    obtain ⟨app, happ, rfl⟩ := Option.map_eq_some_iff.mp hmove
    refine hprocess (fun d heq => by cases heq) rfl (fun app' happ' call heq => ?_) fun hnone => ?_
    · cases heq
      obtain rfl := Option.some.inj (happ.symm.trans happ')
      rfl
    · cases happ.symm.trans hnone
  | transact a =>
    unfold RunningService.pipelineMove at hmove
    dsimp only at hmove
    split_ifs at hmove with hkind
    obtain ⟨app, happ, rfl⟩ := Option.map_eq_some_iff.mp hmove
    refine hprocess (fun d heq => by cases heq) rfl (fun app' _ call heq => ?_) fun hnone => ?_
    · cases heq
      exact absurd rfl hkind
    · cases happ.symm.trans hnone
  | inner q =>
    unfold RunningService.pipelineMove at hmove
    dsimp only at hmove
    split_ifs at hmove with hinner
    obtain rfl := Option.some.inj hmove
    refine hprocess (fun d heq => by cases heq) ?_ (fun app _ call heq => ?_) fun _ => hinner
    · cases q with
      | restart => cases hinner
      | _ => rfl
    · cases heq
      cases hinner

end

/-- A registry without entries is one without names. -/
theorem PluginRegistry.names_eq_nil {r : PluginRegistry} : r.names = [] ↔ r.entries = [] := by
  rw [PluginRegistry.names, ← List.length_eq_zero_iff, sortBy, List.length_insertionSort,
    List.length_map, List.length_eq_zero_iff]

/-- The run lemma of the service: it is manned, and its endings are those that processes expect. -/
theorem serviceAfter_manned (moves : List ServiceMove) : (serviceAfter moves).Manned ∧
    (∀ app, (serviceAfter moves).app = some app →
      ∃ d, (ServiceMove.deploy d) ∈ moves ∧ d.lifespan = .ok app) ∧
    ∀ p ∈ (serviceAfter moves).pipeline.ended, p.2 = .lost ∨
      ∃ d app m, (ServiceMove.deploy d) ∈ moves ∧ d.lifespan = .ok app ∧ app.Expected m p.2 := by
  suffices h : (serviceAfter moves).Manned ∧ (∀ app, (serviceAfter moves).app = some app →
        ∃ d, (ServiceMove.deploy d) ∈ (serviceLog moves).map Prod.fst ∧ d.lifespan = .ok app) ∧
      ∀ p ∈ (serviceAfter moves).pipeline.ended, p.2 = .lost ∨ ∃ d app m,
        (ServiceMove.deploy d) ∈ (serviceLog moves).map Prod.fst ∧ d.lifespan = .ok app ∧
          app.Expected m p.2 by
    have hlog : ∀ m ∈ (serviceLog moves).map Prod.fst, m ∈ moves := by
      intro m hm
      obtain ⟨c, hc, rfl⟩ := List.mem_map.mp hm
      exact mem_of_mem_log hc
    obtain ⟨hmanned, hstarted, hended⟩ := h
    refine ⟨hmanned, fun app happ => ?_, fun p hp => ?_⟩
    · obtain ⟨d, hd, hlifespan⟩ := hstarted app happ
      exact ⟨d, hlog _ hd, hlifespan⟩
    · rcases hended p hp with hlost | ⟨d, app, m, hd, hlifespan, hexpected⟩
      · exact Or.inl hlost
      · exact Or.inr ⟨d, app, m, hlog _ hd, hlifespan, hexpected⟩
  refine run_induction (R := fun (l : List (ServiceMove × (PipelineMove × List Activity)))
    (s : RunningService) => s.Manned ∧
      (∀ app, s.app = some app →
        ∃ d, (ServiceMove.deploy d) ∈ l.map Prod.fst ∧ d.lifespan = .ok app) ∧
      ∀ p ∈ s.pipeline.ended, p.2 = .lost ∨ ∃ d app m, (ServiceMove.deploy d) ∈ l.map Prod.fst ∧
        d.lifespan = .ok app ∧ app.Expected m p.2)
    ⟨⟨fun _ => ⟨rfl, rfl⟩, fun app happ => (by cases happ)⟩, fun app happ => (by cases happ),
      List.forall_mem_nil _⟩ ?_ moves
  rintro before m s' c ⟨hmanned, hstarted, hended⟩ hstep
  have hsound := pipelineAfter_sound ⟨none, []⟩ (pipelineMoves before)
  rw [← (service_pipeline before).1] at hsound
  obtain ⟨hnext, hnew⟩ := hmanned.step hsound hstep
  rw [List.map_append, List.map_singleton]
  refine ⟨hnext, fun app happ => ?_, fun p hp => ?_⟩
  · obtain ⟨-, -, hafter⟩ := RunningService.step_eq_ok hstep
    rw [hafter] at happ
    cases m with
    | deploy d =>
      refine ⟨d, List.mem_append_right _ (List.mem_singleton_self _), ?_⟩
      have hstarted : d.started = some app := happ
      unfold Deployment.started at hstarted
      cases hlifespan : d.lifespan with
      | error e =>
        rw [hlifespan] at hstarted
        cases hstarted
      | ok app' =>
        rw [hlifespan] at hstarted
        exact congrArg Except.ok (Option.some.inj hstarted)
    | _ =>
      obtain ⟨d, hd, hlifespan⟩ := hstarted app happ
      exact ⟨d, List.mem_append_left _ hd, hlifespan⟩
  · rcases hnew p hp with hold | ⟨-, hlost⟩ | ⟨app, happ, -, hexpected⟩
    · rcases hended p hold with hlost | ⟨d, app, m', hd, hlifespan, hexpected⟩
      · exact Or.inl hlost
      · exact Or.inr ⟨d, app, m', List.mem_append_left _ hd, hlifespan, hexpected⟩
    · exact Or.inl hlost
    · obtain ⟨d, hd, hlifespan⟩ := hstarted app happ
      exact Or.inr ⟨d, app, c.1, List.mem_append_left _ hd, hlifespan, hexpected⟩

/-- **Startup rules out**: after any run of a service, through any deployments and whatever fails, a
delivery has ended in a result of its plugin, in a fault of the runner, the database or the process,
or without a plugin where none is registered at all; never for want of a runner, of the plugin or of
the incident, nor for a stale configuration or a payload that is refused. -/
theorem startup_rules_out (moves : List ServiceMove) (k : UUID × String) (e : Ending)
    (he : (k, e) ∈ (serviceAfter moves).pipeline.ended) :
    (∃ sends, e = .recorded (sendResult sends)) ∨
    e ∈ [.recorded submitFailed, .failed, .dropped, .lost] ∨
    (e = .recorded missingPlugin ∧ ∃ d app, (ServiceMove.deploy d) ∈ moves ∧ d.lifespan = .ok app ∧
      app.pluginRegistry.entries = []) := by
  obtain ⟨-, -, hended⟩ := serviceAfter_manned moves
  rcases hended _ he with hlost | ⟨d, app, m, hd, hlifespan, hsent | ⟨hmissing, hempty⟩ | ⟨-, hfault⟩⟩
  · rw [show e = .lost from hlost]
    exact Or.inr (Or.inl (by simp))
  · exact Or.inl hsent
  · refine Or.inr (Or.inr ⟨hmissing, d, app, hd, hlifespan, ?_⟩)
    rw [(Deployment.lifespan_wired hlifespan).entries] at hempty
    exact PluginRegistry.names_eq_nil.mp hempty
  · refine Or.inr (Or.inl ?_)
    have hfault : e ∈ [.recorded submitFailed, .failed, .dropped] := hfault
    simp only [List.mem_cons, List.not_mem_nil, or_false] at hfault ⊢
    rcases hfault with h | h | h
    · exact Or.inl h
    · exact Or.inr (Or.inl h)
    · exact Or.inr (Or.inr (Or.inl h))

/-! ### Runs without faults -/

def ServiceMove.faultless : ServiceMove → Bool
  | deploy _ => false
  | inner m => m.faultless
  | _ => true

section

variable {moves : List ServiceMove} {d : Deployment} {app : Application} {rest : List ServiceMove}

/-- A deployment plans nothing. -/
theorem serviceAfter_deploy (moves : List ServiceMove) (d : Deployment) :
    (serviceAfter (moves ++ [.deploy d])).app = d.started ∧
      (serviceAfter (moves ++ [.deploy d])).pipeline.world = (serviceAfter moves).pipeline.world := by
  have hstep : RunningService.step (.deploy d) (serviceAfter moves) = .ok (_, _) := rfl
  have hrun : serviceAfter (moves ++ [.deploy d]) = _ := (run_concat_ok hstep).1
  rw [hrun]
  exact ⟨rfl, rfl⟩

/-- The run lemma of a process in which nothing fails. -/
theorem faultless_run (hd : d.lifespan = .ok app) (hrest : ∀ m ∈ rest, m.faultless = true) :
    (serviceAfter (moves ++ [.deploy d] ++ rest)).app = some app ∧
    ∀ p ∈ (serviceAfter (moves ++ [.deploy d] ++ rest)).pipeline.ended,
      p ∈ (serviceAfter (moves ++ [.deploy d])).pipeline.ended ∨
        (∃ sends, p.2 = .recorded (sendResult sends)) ∨
        (p.2 = .recorded missingPlugin ∧ app.dispatcher.pluginNames = []) := by
  induction rest using List.reverseRecOn with
  | nil =>
    rw [List.append_nil]
    refine ⟨?_, fun p => Or.inl⟩
    rw [(serviceAfter_deploy moves d).1, Deployment.started, hd]
    rfl
  | append_singleton rest m ih =>
    obtain ⟨happ, hended⟩ := ih fun m' hm' => hrest m' (List.mem_append_left _ hm')
    have hfaultless := hrest m (List.mem_append_right _ (List.mem_singleton_self m))
    rw [← List.append_assoc]
    cases hstep : RunningService.step m (serviceAfter (moves ++ [.deploy d] ++ rest)) with
    | error e =>
      have hrun : serviceAfter (moves ++ [.deploy d] ++ rest ++ [m]) = _ := (run_concat_error hstep).1
      rw [hrun]
      exact ⟨happ, hended⟩
    | ok r =>
      obtain ⟨s', c⟩ := r
      have hrun : serviceAfter (moves ++ [.deploy d] ++ rest ++ [m]) = s' := (run_concat_ok hstep).1
      rw [hrun]
      have hsound := pipelineAfter_sound ⟨none, []⟩ (pipelineMoves (moves ++ [.deploy d] ++ rest))
      rw [← (service_pipeline _).1] at hsound
      obtain ⟨hmove, -, hafter⟩ := RunningService.step_eq_ok hstep
      obtain ⟨-, hnew⟩ := (serviceAfter_manned _).1.step hsound hstep
      have hprocess : RunningService.appAfter (serviceAfter (moves ++ [.deploy d] ++ rest)).app m =
          (serviceAfter (moves ++ [.deploy d] ++ rest)).app := by
        cases m with
        | deploy d' => cases hfaultless
        | _ => rfl
      refine ⟨hafter.trans (hprocess.trans happ), fun p hp => ?_⟩
      rcases hnew p hp with hold | ⟨⟨d', rfl⟩, -⟩ | ⟨app', happ', -, hexpected⟩
      · exact hended p hold
      · cases hfaultless
      · obtain rfl := Option.some.inj (happ.symm.trans happ')
        rcases hexpected with hsent | hmissing | ⟨hfault, -⟩
        · exact Or.inr (Or.inl hsent)
        · exact Or.inr (Or.inr hmissing)
        · have hnofault : c.1.faultless = true := by
            cases m with
            | deploy d' => cases hfaultless
            | ingress req =>
              obtain ⟨_, -, heq⟩ := Option.map_eq_some_iff.mp hmove
              rw [← heq]
              rfl
            | transact a =>
              unfold RunningService.pipelineMove at hmove
              dsimp only at hmove
              split_ifs at hmove
              obtain ⟨_, -, heq⟩ := Option.map_eq_some_iff.mp hmove
              rw [← heq]
              rfl
            | inner q =>
              unfold RunningService.pipelineMove at hmove
              dsimp only at hmove
              split_ifs at hmove
              rw [← Option.some.inj hmove]
              exact hfaultless
          cases hnofault.symm.trans hfault

/-- **Delivery**: a process has started, whatever came before it, and nothing has failed since,
whatever the order of what it did; then, when its requests and tasks are done, every delivery planned
since for a registered plugin has been sent exactly once and the incident shows how that went; where
no plugin is registered at all, nothing was sent, and the incident shows that. -/
theorem faultless_service (hd : d.lifespan = .ok app) (hrest : ∀ m ∈ rest, m.faultless = true)
    (hrequests : (serviceAfter (moves ++ .deploy d :: rest)).pipeline.requests = [])
    (htasks : (serviceAfter (moves ++ .deploy d :: rest)).pipeline.tasks = []) :
    ∀ k ∈ (serviceAfter (moves ++ .deploy d :: rest)).pipeline.world.due,
      k ∉ (serviceAfter moves).pipeline.world.due →
      ∃ r ∈ (serviceAfter (moves ++ .deploy d :: rest)).pipeline.world.database.incidents,
        r.id = k.1 ∧ ∃ record ∈ r.deliveries, record.pluginName.val = k.2 ∧
        (((∃ sends, record.result = sendResult sends) ∧
            ∃! p, p ∈ (serviceAfter (moves ++ .deploy d :: rest)).pipeline.sends ∧
              p.1.target = k) ∨
          (app.pluginRegistry.entries = [] ∧ record.result = missingPlugin ∧
            ∀ p ∈ (serviceAfter (moves ++ .deploy d :: rest)).pipeline.sends, p.1.target ≠ k)) := by
  obtain ⟨-, hended⟩ := @faultless_run moves d app rest hd hrest
  rw [List.append_cons] at hrequests htasks ⊢
  -- what had ended at the start was due before it
  have hstart := pipelineAfter_sound ⟨none, []⟩ (pipelineMoves (moves ++ [.deploy d]))
  rw [← (service_pipeline _).1] at hstart
  rw [(service_pipeline (_ ++ rest)).1] at hrequests htasks hended ⊢
  have hsound := pipelineAfter_sound ⟨none, []⟩ (pipelineMoves (moves ++ [.deploy d] ++ rest))
  obtain ⟨hhonest, -⟩ := pipelineAfter_honest ⟨none, []⟩
    (pipelineMoves (moves ++ [.deploy d] ++ rest))
  generalize pipelineMoves (moves ++ [.deploy d] ++ rest) = inner at *
  have hheld : ((pipelineAfter ⟨none, []⟩ inner).inHand : Multiset (UUID × String)) = 0 := by
    rw [inHand, hrequests, htasks]
    rfl
  intro k hk hnew
  obtain ⟨e, he, -⟩ := hsound.conserved.all_settled hsound.once hheld hk
  have hshown : ∀ result, e = .recorded result →
      ∃ r ∈ (pipelineAfter ⟨none, []⟩ inner).world.database.incidents,
        r.id = k.1 ∧ ∃ record ∈ r.deliveries, record.pluginName.val = k.2 ∧
          record.result = result := by
    rintro result rfl
    exact pipelineAfter_shown _ _ he
  rcases hended _ he with hold | ⟨sends, hresult⟩ | ⟨hresult, hempty⟩
  · rw [← (serviceAfter_deploy moves d).2] at hnew
    exact absurd (hstart.due_of_ended hold) hnew
  · have hresult : e = .recorded (sendResult sends) := hresult
    obtain ⟨r, hr, hid, record, hrecord, hname, hshow⟩ := hshown _ hresult
    rw [hresult] at he
    refine ⟨r, hr, hid, record, hrecord, hname, Or.inl ⟨⟨sends, hshow⟩, ?_⟩⟩
    obtain ⟨p, hp, htarget⟩ := (hhonest.recorded _ _ he).sent.mpr ⟨sends, rfl⟩
    refine ⟨p, ⟨hp, htarget⟩, fun q hq => ?_⟩
    exact List.inj_on_of_nodup_map hsound.sends_once hq.1 hp (hq.2.trans htarget.symm)
  · have hresult : e = .recorded missingPlugin := hresult
    obtain ⟨r, hr, hid, record, hrecord, hname, hshow⟩ := hshown _ hresult
    rw [hresult] at he
    refine ⟨r, hr, hid, record, hrecord, hname, Or.inr ⟨?_, hshow, fun p hp htarget => ?_⟩⟩
    · rw [(Deployment.lifespan_wired hd).entries] at hempty
      exact PluginRegistry.names_eq_nil.mp hempty
    · obtain ⟨sends, hsent⟩ := (hhonest.recorded _ _ he).sent.mp ⟨p, hp, htarget⟩
      cases sends <;> exact absurd hsent (by decide)

end

/-- One mail plugin, and a rule that every problem crosses. -/
def sampleDeployment : Deployment where
  modules := fun _ _ => some fun _ => some ⟨true, some ⟨⟨"email", by decide⟩, true, ⟨"ready", by decide⟩⟩⟩
  compileRegex := sampleCompiler
  compilePattern := fun _ => none
  sha256 := sampleSha256
  hmac := fun _ _ => HexDigest.ofNat 0
  plugins := some (HexDigest.ofNat 7,
    some (some [⟨"mail", "email", "app.plugins.outputs.email.SmtpOutputPlugin", ⟨[], List.nodup_nil⟩⟩]))
  rules := some ⟨(sampleConfigHash, some (sampleRules.map fun r => { r with window := ⟨300, ["host"], 1⟩ })),
    (sampleConfigHash, some (sampleRules.map fun r => { r with window := ⟨300, ["host"], 1⟩ }))⟩
  topology := none
  auditRawPayloadMaxBytes := 4096
  auditRawPayloadHmacKey := "key"

/-- One problem, and its delivery up to the recording. -/
def sampleServiceMoves : List ServiceMove :=
  [.ingress sampleIngressRequest, .inner (.submit 0 (sampleTime 2) true true),
   .inner (.submit 0 (sampleTime 2) true true), .inner (.start 0 true), .inner (.send 0),
   .inner (.sent 0 true), .inner (.record 0 (sampleTime 3) true)]

theorem sampleDeployment_starts : ∃ app, sampleDeployment.lifespan = .ok app := by
  have h : sampleDeployment.lifespan.toOption.isSome = true := by decide +kernel
  cases hd : sampleDeployment.lifespan with
  | error e =>
    rw [hd] at h
    cases h
  | ok app => exact ⟨app, rfl⟩

theorem sampleServiceMoves_settle :
    ((serviceAfter ([.deploy sampleDeployment] ++ sampleServiceMoves)).pipeline.requests.length,
      (serviceAfter ([.deploy sampleDeployment] ++ sampleServiceMoves)).pipeline.tasks.length,
      (serviceAfter ([.deploy sampleDeployment] ++ sampleServiceMoves)).pipeline.ended) =
    (0, 0, [((3, "mail"), .recorded notificationDispatched)]) := by
  decide +kernel

theorem startup_rules_out_sample :
    (∃ sends, Ending.recorded notificationDispatched = .recorded (sendResult sends)) ∨
    Ending.recorded notificationDispatched ∈ [.recorded submitFailed, .failed, .dropped, .lost] ∨
    (Ending.recorded notificationDispatched = .recorded missingPlugin ∧ ∃ d app,
      (ServiceMove.deploy d) ∈ [.deploy sampleDeployment] ++ sampleServiceMoves ∧
        d.lifespan = .ok app ∧ app.pluginRegistry.entries = []) := by
  refine startup_rules_out ([.deploy sampleDeployment] ++ sampleServiceMoves) (3, "mail") _ ?_
  rw [(Prod.mk.inj (Prod.mk.inj sampleServiceMoves_settle).2).2]
  exact List.mem_singleton_self _

/-- A first process stops before it has sent; in the second one the incident is closed, and the
problem opens another one. -/
def sampleSecondMoves : List ServiceMove :=
  [.transact (.close (sampleTime 2) 3 vigiloClose),
   .ingress { sampleIngressRequest with now := sampleTime 3, incidentId := 5, eventId := 6 },
   .inner (.submit 0 (sampleTime 4) true true), .inner (.submit 0 (sampleTime 4) true true),
   .inner (.start 0 true), .inner (.send 0), .inner (.sent 0 true),
   .inner (.record 0 (sampleTime 5) true)]

def sampleFirstMoves : List ServiceMove := [.deploy sampleDeployment, .ingress sampleIngressRequest]

theorem sampleSecondMoves_settle :
    ((serviceAfter sampleFirstMoves).pipeline.world.due,
      (serviceAfter (sampleFirstMoves ++
        .deploy sampleDeployment :: sampleSecondMoves)).pipeline.requests.length,
      (serviceAfter (sampleFirstMoves ++
        .deploy sampleDeployment :: sampleSecondMoves)).pipeline.tasks.length,
      (serviceAfter (sampleFirstMoves ++
        .deploy sampleDeployment :: sampleSecondMoves)).pipeline.world.due) =
    ([(3, "mail")], 0, 0, [(3, "mail"), (5, "mail")]) := by
  decide +kernel

theorem faultless_service_sample :
    ∃ r ∈ (serviceAfter (sampleFirstMoves ++
        .deploy sampleDeployment :: sampleSecondMoves)).pipeline.world.database.incidents, r.id = 5 ∧
      ∃ record ∈ r.deliveries, record.pluginName.val = "mail" := by
  obtain ⟨app, happ⟩ := sampleDeployment_starts
  obtain ⟨hbefore, hrest⟩ := Prod.mk.inj sampleSecondMoves_settle
  obtain ⟨hrequests, hrest⟩ := Prod.mk.inj hrest
  obtain ⟨htasks, hdue⟩ := Prod.mk.inj hrest
  have hall : (sampleSecondMoves.all fun m => m.faultless) = true := rfl
  obtain ⟨r, hr, hid, record, hrecord, hname, -⟩ := faultless_service happ
    (List.all_eq_true.mp hall) (List.length_eq_zero_iff.mp hrequests)
    (List.length_eq_zero_iff.mp htasks) (5, "mail") (by rw [hdue]; decide)
    (by rw [hbefore]; decide)
  exact ⟨r, hr, hid, record, hrecord, hname⟩

end Correlia
