import Correlia.DeliveryEndings
import Correlia.Lib.Draining

/-!
# Draining — what is in flight comes to an end, and is counted

A process that takes no new transaction has only its requests and tasks to go on with, and every
move of theirs brings it nearer to rest; this is what `drain` waits for at shutdown.  The counters
of a process account for the tasks it has accepted, up to those that have raised.
-/

namespace Correlia

open Lib Pipeline

/-- The moves of requests and tasks. -/
def PipelineMove.inner : PipelineMove → Bool
  | transact _ => false
  | restart _ => false
  | _ => true

def PipelineMove.isRestart : PipelineMove → Bool
  | restart _ => true
  | _ => false

/-- The moves a task has before it. -/
def TaskPhase.rank : TaskPhase → ℕ
  | accepted => 4
  | loaded _ => 3
  | sending => 2
  | recording _ => 1

/-- A round makes a task of four moves. -/
def PostCommit.rank (r : PostCommit) : ℕ := 5 * r.rest.length + 1

namespace Pipeline

variable {s s' : Pipeline} {acts : List Activity} {m : PipelineMove}
  {l : List (PipelineMove × List Activity)}

/-- The moves that are left at most. -/
def rank (s : Pipeline) : ℕ :=
  Place.total PostCommit.rank s.requests + Place.total (fun t => t.phase.rank) s.tasks

theorem rank_lt_of_requests {i : ℕ} {r : PostCommit} (hr : s.requests[i]? = some r)
    (hrequests : s'.requests = s.requests.eraseIdx i) (htasks : s'.tasks = s.tasks) :
    s'.rank < s.rank := by
  have htotal := Place.total_eraseIdx (w := PostCommit.rank) hr
  rw [rank, rank, hrequests, htasks, htotal]
  unfold PostCommit.rank
  omega

theorem rank_lt_of_finish {i : ℕ} {t : RunnerTask} (ht : s.tasks[i]? = some t)
    (hrequests : s'.requests = s.requests) (htasks : s'.tasks = s.tasks.eraseIdx i) :
    s'.rank < s.rank := by
  have htotal := Place.total_eraseIdx (w := fun t : RunnerTask => t.phase.rank) ht
  have hpos : 0 < t.phase.rank := by
    cases t.phase <;> simp [TaskPhase.rank]
  rw [rank, rank, hrequests, htasks]
  omega

theorem rank_lt_of_goOn {i : ℕ} {t t' : RunnerTask} (ht : s.tasks[i]? = some t)
    (hrequests : s'.requests = s.requests) (htasks : s'.tasks = s.tasks.set i t')
    (hphase : t'.phase.rank < t.phase.rank) : s'.rank < s.rank := by
  have htotal := Place.total_set (w := fun t : RunnerTask => t.phase.rank) ht t'
  rw [rank, rank, hrequests, htasks]
  omega

/-- What a round of a request leaves of its rank. -/
theorem rank_round {i : ℕ} {r : PostCommit} {pluginName : String} {rest : List String}
    (hr : s.requests[i]? = some r) (hrest : r.rest = pluginName :: rest) :
    Place.total PostCommit.rank (s.requests.set i { r with rest }) + 5 =
      Place.total PostCommit.rank s.requests := by
  have htotal := Place.total_set (w := PostCommit.rank) hr { r with rest }
  have hrank : r.rank = PostCommit.rank { r with rest } + 5 := by
    rw [PostCommit.rank, hrest, List.length_cons]
    show 5 * (rest.length + 1) + 1 = 5 * rest.length + 1 + 5
    omega
  omega

theorem Moves.rank_lt (h : s.Moves m acts s') (hinner : m.inner = true) : s'.rank < s.rank := by
  cases h with
  | transact => cases hinner
  | restart => cases hinner
  | answered hr => exact rank_lt_of_requests hr rfl rfl
  | aborted hr => exact rank_lt_of_requests hr rfl rfl
  | accepted hr hrest =>
    have hround := rank_round hr hrest
    show Place.total PostCommit.rank (s.requests.set _ _) + Place.total _ (s.tasks ++ [_]) <
      Place.total _ _ + Place.total _ _
    rw [Place.total_append, Place.total_single, TaskPhase.rank]
    omega
  | terminal hr hrest =>
    have hround := rank_round hr hrest
    show Place.total PostCommit.rank (s.requests.set _ _) + Place.total _ s.tasks <
      Place.total _ _ + Place.total _ _
    omega
  | returned htask => exact rank_lt_of_finish htask rfl rfl
  | unloaded htask => exact rank_lt_of_finish htask rfl rfl
  | recorded htask => exact rank_lt_of_finish htask rfl rfl
  | unrecorded htask => exact rank_lt_of_finish htask rfl rfl
  | refused htask => exact rank_lt_of_goOn htask rfl rfl (by simp [TaskPhase.rank])
  | loaded htask => exact rank_lt_of_goOn htask rfl rfl (by simp [TaskPhase.rank])
  | send htask => exact rank_lt_of_goOn htask rfl rfl (by simp [TaskPhase.rank])
  | sent htask => exact rank_lt_of_goOn htask rfl rfl (by simp [TaskPhase.rank])

theorem step_drains : Drains Pipeline.step PipelineMove.inner Pipeline.rank :=
  fun _ _ _ _ hinner h => (step_moves h).rank_lt hinner

/-- A request or a task can always go on. -/
theorem atRest_iff : AtRest Pipeline.step PipelineMove.inner s ↔ s.requests = [] ∧ s.tasks = [] := by
  constructor
  · intro h
    constructor
    · cases hrequests : s.requests with
      | nil => rfl
      | cons r rest =>
        refine absurd ?_ (h (.submit 0 (sampleTime 0) true true) rfl
          (s.submit 0 r (sampleTime 0) true true))
        simp [Pipeline.step, hrequests]
    · cases htasks : s.tasks with
      | nil => rfl
      | cons t rest =>
        obtain ⟨task, phase⟩ := t
        exfalso
        cases phase with
        | accepted => exact h (.start 0 true) rfl _ (by simp only [Pipeline.step, htasks]; rfl)
        | loaded envelope => exact h (.send 0) rfl _ (by simp only [Pipeline.step, htasks]; rfl)
        | sending => exact h (.sent 0 true) rfl _ (by simp only [Pipeline.step, htasks]; rfl)
        | recording result =>
          exact h (.record 0 (sampleTime 0) true) rfl _ (by simp only [Pipeline.step, htasks]; rfl)
  · rintro ⟨hrequests, htasks⟩ m hinner r h
    cases m with
    | transact => cases hinner
    | restart => cases hinner
    | _ => simp [Pipeline.step, hrequests, htasks] at h

/-! ### Endings of one process -/

/-- Only the end of a process loses a delivery. -/
theorem Moves.lost (h : s.Moves m acts s') (hinner : m.isRestart = false) {k : UUID × String}
    (hk : (k, Ending.lost) ∈ s'.ended) : (k, Ending.lost) ∈ s.ended := by
  have hone : ∀ {k' : UUID × String} {e : Ending}, e ≠ .lost →
      (k, Ending.lost) ∈ s.ended ++ [(k', e)] → (k, Ending.lost) ∈ s.ended := by
    intro k' e hne hmem
    rcases List.mem_append.mp hmem with hold | hnew
    · exact hold
    · exact absurd (Prod.mk.inj (List.mem_singleton.mp hnew)).2.symm hne
  cases h with
  | restart => cases hinner
  | terminal | recorded | returned | unloaded | unrecorded => exact hone Ending.noConfusion hk
  | aborted =>
    rcases List.mem_append.mp hk with hold | hnew
    · exact hold
    · rcases List.mem_cons.mp hnew with heq | hdropped
      · cases heq
      · obtain ⟨_, -, heq⟩ := List.mem_map.mp hdropped
        cases heq
  | _ => exact hk

theorem Moves.due (h : s.Moves m acts s') (hinner : m.inner = true) : s'.world.due = s.world.due := by
  cases h with
  | transact => cases hinner
  | terminal _ _ _ _ hserve => exact (serve_complete_due hserve).1
  | recorded _ hserve => exact (serve_complete_due hserve).1
  | _ => rfl

end Pipeline

/-! ### Counters -/

/-- The delivery of the task has not been counted. -/
def TaskPhase.uncounted : TaskPhase → ℕ
  | recording _ => 0
  | _ => 1

def TaskPhase.calling : TaskPhase → ℕ
  | sending => 1
  | _ => 0

/-- The result is that of a call of the plugin. -/
def ofCall (result : NotificationResult) : Bool := decide (result ∈ [pluginFailed, notificationDispatched])

theorem ofCall_sendResult (sends : Bool) : ofCall (sendResult sends) = true := by
  cases sends <;> decide

theorem NotificationDispatcher.opening_returns {d : NotificationDispatcher} {task : NotifyTask}
    {result : NotificationResult} (h : d.opening task = .returns result) : result = invalidPayload := by
  unfold opening at h
  split_ifs at h
  exact (Opening.returns.inj h).symm

namespace Pipeline

variable {s s' : Pipeline} {acts : List Activity} {m : PipelineMove}

/-- The tasks accepted, as the counter has them. -/
def acceptedCount (s : Pipeline) : ℕ := s.counters.submissions.count .accepted

def uncounted (s : Pipeline) : ℕ := Place.total (fun t => t.phase.uncounted) s.tasks

def calling (s : Pipeline) : ℕ := Place.total (fun t => t.phase.calling) s.tasks

/-- The counters of a process against what it has done; `earlier` plugin calls were made before. -/
structure Reconciled (earlier : ℕ) (s : Pipeline) : Prop where
  counted : s.counters.deliveries.length + s.uncounted ≤ s.acceptedCount
  accounted : s.acceptedCount ≤ s.counters.deliveries.length + s.uncounted + s.counters.taskFailures
  failures : s.counters.taskFailures + s.tasks.length ≤ s.acceptedCount
  sends : s.sends.length = earlier + s.counters.deliveries.countP ofCall + s.calling

theorem acceptedCount_countSubmission (outcome : SubmissionOutcome) :
    (s.countSubmission outcome).acceptedCount =
      s.acceptedCount + if outcome = .accepted then 1 else 0 := by
  show (s.counters.submissions ++ [outcome]).count .accepted = _
  rw [List.count_append, List.count_singleton]
  simp only [beq_iff_eq]
  rfl

/-- A task that is not calling its plugin ends, counted or raised. -/
theorem Reconciled.finish {earlier : ℕ} (h : s.Reconciled earlier) {i : ℕ} {t : RunnerTask}
    (results : List NotificationResult) (raised : ℕ) (ht : s.tasks[i]? = some t)
    (hsubmissions : s'.counters.submissions = s.counters.submissions)
    (hdeliveries : s'.counters.deliveries = s.counters.deliveries ++ results)
    (hfailures : s'.counters.taskFailures = s.counters.taskFailures + raised)
    (htasks : s'.tasks = s.tasks.eraseIdx i) (hsends : s'.sends = s.sends)
    (hcalling : t.phase.calling = 0) (hcalls : results.countP ofCall = 0)
    (hcounted : results.length ≤ t.phase.uncounted)
    (haccounted : t.phase.uncounted ≤ results.length + raised) (hraised : raised ≤ 1) :
    s'.Reconciled earlier := by
  obtain ⟨h1, h2, h3, h4⟩ := h
  have huncounted := Place.total_eraseIdx (w := fun t : RunnerTask => t.phase.uncounted) ht
  have hcall := Place.total_eraseIdx (w := fun t : RunnerTask => t.phase.calling) ht
  have hlength : (s.tasks.eraseIdx i).length + 1 = s.tasks.length := by
    obtain ⟨hi, -⟩ := List.getElem?_eq_some_iff.mp ht
    rw [List.length_eraseIdx_of_lt hi]
    omega
  unfold uncounted acceptedCount calling at *
  constructor
  · rw [uncounted, acceptedCount, hsubmissions, hdeliveries, htasks, List.length_append]
    omega
  · rw [uncounted, acceptedCount, hsubmissions, hdeliveries, htasks, hfailures, List.length_append]
    omega
  · rw [acceptedCount, hsubmissions, hfailures, htasks]
    omega
  · rw [calling, hsends, hdeliveries, htasks, List.countP_append]
    omega

/-- A task goes on; what it counts is counted once. -/
theorem Reconciled.goOn {earlier : ℕ} (h : s.Reconciled earlier) {i : ℕ} {t t' : RunnerTask}
    (results : List NotificationResult) (ht : s.tasks[i]? = some t)
    (hsubmissions : s'.counters.submissions = s.counters.submissions)
    (hdeliveries : s'.counters.deliveries = s.counters.deliveries ++ results)
    (hfailures : s'.counters.taskFailures = s.counters.taskFailures)
    (htasks : s'.tasks = s.tasks.set i t')
    (hcounted : results.length + t'.phase.uncounted = t.phase.uncounted)
    (hsends : s'.sends.length + t.phase.calling =
      s.sends.length + results.countP ofCall + t'.phase.calling) : s'.Reconciled earlier := by
  obtain ⟨h1, h2, h3, h4⟩ := h
  have huncounted := Place.total_set (w := fun t : RunnerTask => t.phase.uncounted) ht t'
  have hcall := Place.total_set (w := fun t : RunnerTask => t.phase.calling) ht t'
  unfold uncounted acceptedCount calling at *
  constructor
  · rw [uncounted, acceptedCount, hsubmissions, hdeliveries, htasks, List.length_append]
    omega
  · rw [uncounted, acceptedCount, hsubmissions, hdeliveries, htasks, hfailures, List.length_append]
    omega
  · rw [acceptedCount, hsubmissions, hfailures, htasks, List.length_set]
    exact h3
  · rw [calling, hdeliveries, htasks, List.countP_append]
    omega

/-- A submission that is not accepted. -/
theorem Reconciled.unaccepted {earlier : ℕ} (h : s.Reconciled earlier) {outcome : SubmissionOutcome}
    {result : NotificationResult} (hterminal : outcome.terminal = some result)
    (hcounters : s'.counters = (s.countSubmission outcome).counters) (htasks : s'.tasks = s.tasks)
    (hsends : s'.sends = s.sends) : s'.Reconciled earlier := by
  have hne : outcome ≠ .accepted := by
    rintro rfl
    cases hterminal
  have hcount : s'.acceptedCount = s.acceptedCount := by
    rw [acceptedCount, hcounters]
    exact (acceptedCount_countSubmission outcome).trans (by rw [if_neg hne, add_zero])
  constructor
  · rw [hcount, hcounters, uncounted, htasks]
    exact h.counted
  · rw [hcount, hcounters, uncounted, htasks]
    exact h.accounted
  · rw [hcount, hcounters, htasks]
    exact h.failures
  · rw [hsends, hcounters, calling, htasks]
    exact h.sends

theorem Reconciled.step {earlier : ℕ} (h : s.Reconciled earlier) (hmove : s.Moves m acts s')
    (hprocess : m.isRestart = false) : s'.Reconciled earlier := by
  cases hmove with
  | restart => cases hprocess
  | transact | answered => exact ⟨h.counted, h.accounted, h.failures, h.sends⟩
  | accepted =>
    have hcount := acceptedCount_countSubmission (s := s) .accepted
    obtain ⟨h1, h2, h3, h4⟩ := h
    refine ⟨?_, ?_, ?_, ?_⟩
    · show _ + Place.total _ (s.tasks ++ [_]) ≤ (s.countSubmission .accepted).acceptedCount
      rw [Place.total_append, Place.total_single, hcount, if_pos rfl]
      exact Nat.add_le_add_right h1 1
    · show (s.countSubmission .accepted).acceptedCount ≤ _ + Place.total _ (s.tasks ++ [_]) + _
      rw [Place.total_append, Place.total_single, hcount, if_pos rfl]
      exact (Nat.add_le_add_right h2 1).trans (le_of_eq (Nat.add_right_comm _ _ _))
    · show _ + (s.tasks ++ [_]).length ≤ (s.countSubmission .accepted).acceptedCount
      rw [List.length_append, hcount, if_pos rfl]
      exact Nat.add_le_add_right h3 1
    · show _ = _ + Place.total _ (s.tasks ++ [_])
      rw [Place.total_append, Place.total_single]
      exact h4
  | terminal _ _ _ hterminal => exact h.unaccepted hterminal rfl rfl rfl
  | aborted _ _ _ hterminal => exact h.unaccepted hterminal rfl rfl rfl
  | @returned _ _ result _ htask hresult =>
    have hcall : ofCall result = false := by
      rcases hresult with hopening | ⟨rfl, -⟩
      · rw [NotificationDispatcher.opening_returns hopening]
        decide
      · decide
    refine h.finish [result] 0 htask rfl rfl rfl rfl rfl rfl ?_ le_rfl le_rfl
      zero_le_one
    simp [hcall]
  | unloaded htask =>
    exact h.finish [] 1 htask rfl (List.append_nil _).symm rfl rfl rfl rfl rfl
      zero_le_one le_rfl le_rfl
  | @refused _ _ result _ htask hopening =>
    have hcall : ofCall result = false := by
      rcases NotificationDispatcher.opening_records hopening with rfl | rfl <;> decide
    refine h.goOn [result] htask rfl rfl rfl rfl rfl ?_
    simp [Pipeline.goOn, recordDelivery, TaskPhase.calling, hcall]
  | loaded htask => exact h.goOn [] htask rfl (List.append_nil _).symm rfl rfl rfl rfl
  | send htask =>
    refine h.goOn [] htask rfl (List.append_nil _).symm rfl rfl rfl ?_
    simp [TaskPhase.calling]
  | @sent _ _ sends htask =>
    refine h.goOn [sendResult sends] htask rfl rfl rfl rfl rfl ?_
    simp [Pipeline.goOn, recordDelivery, TaskPhase.calling, ofCall_sendResult]
  | recorded htask =>
    exact h.finish [] 0 htask rfl (List.append_nil _).symm rfl rfl rfl rfl rfl
      le_rfl le_rfl zero_le_one
  | unrecorded htask =>
    exact h.finish [] 1 htask rfl (List.append_nil _).symm rfl rfl rfl rfl rfl
      le_rfl zero_le_one le_rfl

end Pipeline

section

variable (d : NotificationDispatcher) (moves : List PipelineMove)

theorem pipelineAfter_append (rest : List PipelineMove) :
    pipelineAfter d (moves ++ rest) = run Pipeline.step (pipelineAfter d moves) rest :=
  (run_append moves rest).1

/-- What a process does by itself, after any run. -/
theorem inner_endings {rest : List PipelineMove} (hrest : ∀ m ∈ rest, m.inner = true) :
    (pipelineAfter d (moves ++ rest)).world.due = (pipelineAfter d moves).world.due ∧
    ∀ k, (k, Ending.lost) ∈ (pipelineAfter d (moves ++ rest)).ended →
      (k, Ending.lost) ∈ (pipelineAfter d moves).ended := by
  rw [pipelineAfter_append]
  induction rest using List.reverseRecOn with
  | nil => exact ⟨rfl, fun k hk => hk⟩
  | append_singleton rest m ih =>
    obtain ⟨hdue, hlost⟩ := ih fun m' hm' => hrest m' (List.mem_append_left _ hm')
    have hinner := hrest m (List.mem_append_right _ (List.mem_singleton_self m))
    cases hstep : Pipeline.step m (run Pipeline.step (pipelineAfter d moves) rest) with
    | error e =>
      rw [(run_concat_error hstep).1]
      exact ⟨hdue, hlost⟩
    | ok r =>
      have hmove := step_moves hstep
      have hprocess : m.isRestart = false := by
        cases m <;> first | rfl | cases hinner
      rw [(run_concat_ok hstep).1]
      exact ⟨(hmove.due hinner).trans hdue, fun k hk => hlost k (hmove.lost hprocess hk)⟩

/-- **Drain**: after any run, requests and tasks commit at most `rank` moves before the next
transaction or restart, in whatever order and whatever fails; they can always be brought to rest;
and at rest nothing is in flight and every planned delivery has one ending, none of them lost that
was not before. -/
theorem drain_settles :
    (∀ rest : List PipelineMove, (∀ m ∈ rest, m.inner = true) →
      (log Pipeline.step (pipelineAfter d moves) rest).length ≤ (pipelineAfter d moves).rank) ∧
    (∃ rest : List PipelineMove, (∀ m ∈ rest, m.inner = true) ∧
      AtRest Pipeline.step PipelineMove.inner (pipelineAfter d (moves ++ rest))) ∧
    ∀ rest : List PipelineMove, (∀ m ∈ rest, m.inner = true) →
      AtRest Pipeline.step PipelineMove.inner (pipelineAfter d (moves ++ rest)) →
        (pipelineAfter d (moves ++ rest)).requests = [] ∧
        (pipelineAfter d (moves ++ rest)).tasks = [] ∧
        ∀ k ∈ (pipelineAfter d moves).world.due,
          (∃! e, (k, e) ∈ (pipelineAfter d (moves ++ rest)).ended) ∧
            ((k, .lost) ∈ (pipelineAfter d (moves ++ rest)).ended →
              (k, .lost) ∈ (pipelineAfter d moves).ended) := by
  refine ⟨fun rest hrest => ?_, ?_, fun rest hrest hat => ?_⟩
  · have hlength := step_drains.log_length (pipelineAfter d moves) hrest
    omega
  · obtain ⟨rest, hrest, hat⟩ := step_drains.exists_atRest (pipelineAfter d moves)
    refine ⟨rest, hrest, ?_⟩
    rw [pipelineAfter_append]
    exact hat
  · obtain ⟨hrequests, htasks⟩ := atRest_iff.mp hat
    obtain ⟨hdue, hlost⟩ := inner_endings d moves hrest
    refine ⟨hrequests, htasks, fun k hk => ?_⟩
    have hsound := pipelineAfter_sound d (moves ++ rest)
    have hheld : ((pipelineAfter d (moves ++ rest)).inHand : Multiset (UUID × String)) = 0 := by
      rw [inHand, hrequests, htasks]
      rfl
    rw [← hdue] at hk
    exact ⟨hsound.conserved.all_settled hsound.once hheld hk, hlost k⟩

/-- **Accounting**: in every state of a process, its accepted tasks are those it has counted a
delivery of and those it has yet to, up to tasks that have raised, of which there are no more than
there are tasks gone; and its plugin calls are the deliveries counted as such and those that are out. -/
theorem counters_reconcile (d' : NotificationDispatcher) (rest : List PipelineMove)
    (hrest : ∀ m ∈ rest, m.isRestart = false) :
    (pipelineAfter d (moves ++ .restart d' :: rest)).Reconciled (pipelineAfter d moves).sends.length := by
  rw [show moves ++ .restart d' :: rest = moves ++ [.restart d'] ++ rest by simp, pipelineAfter_append]
  have hstart : (pipelineAfter d (moves ++ [.restart d'])).Reconciled
      (pipelineAfter d moves).sends.length := by
    rw [pipelineAfter_append]
    exact ⟨le_rfl, le_rfl, le_rfl, rfl⟩
  induction rest using List.reverseRecOn with
  | nil => exact hstart
  | append_singleton rest m ih =>
    have ih := ih fun m' hm' => hrest m' (List.mem_append_left _ hm')
    have hprocess := hrest m (List.mem_append_right _ (List.mem_singleton_self m))
    cases hstep : Pipeline.step m (run Pipeline.step (pipelineAfter d (moves ++ [.restart d'])) rest) with
    | error e =>
      rw [(run_concat_error hstep).1]
      exact ih
    | ok r =>
      rw [(run_concat_ok hstep).1]
      exact ih.step (step_moves hstep) hprocess

end

/-- Two problems, the second of which crosses the threshold, and its one delivery. -/
def sampleMoves : List PipelineMove :=
  [.transact (.ingress sampleCall),
   .transact (.ingress ⟨{ sampleProcessor with
      sha256 := fun _ => HexDigest.ofNat 5, hasTaskRunner := true, pluginNames := ["mail"] },
    { sampleIngressRequest with now := sampleTime 2, incidentId := 7, eventId := 5 }⟩),
   .submit 0 (sampleTime 2) true true, .submit 0 (sampleTime 2) true true, .start 0 true, .send 0,
   .sent 0 true, .record 0 (sampleTime 3) true]

theorem counters_reconcile_sample : ∃ s,
    s = pipelineAfter ⟨none, ["mail"]⟩ ([] ++ .restart ⟨none, ["mail"]⟩ :: sampleMoves) ∧
    s.Reconciled 0 ∧ (s.counters.deliveries, s.ended) =
      ([notificationDispatched], [((3, "mail"), .recorded notificationDispatched)]) := by
  have hall : (sampleMoves.all fun m => !m.isRestart) = true := rfl
  have h := counters_reconcile ⟨none, ["mail"]⟩ [] ⟨none, ["mail"]⟩ sampleMoves fun m hm => by
    simpa using List.all_eq_true.mp hall m hm
  exact ⟨_, rfl, h, by decide +kernel⟩

end Correlia
