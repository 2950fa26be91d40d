import Correlia.Invariant
import Correlia.Processing.Submission

/-!
# Isolation — what a plugin's failure costs the plugins after it

Recording a terminal result is the only step of the loop that raises, and it ends the loop.  So the
tasks submitted are those of the plugins before the first one whose recording is tried and raises.
-/

namespace Correlia

open Lib Attempt

section

variable {σ : Type} (d : SubmissionDeps σ) (incidentId : UUID)

/-- The plugin is registered, and the runner accepts its task. -/
def Submits (pluginName : String) : Prop :=
  pluginName ∈ d.pluginNames ∧ ∃ accepts, d.runner = some accepts ∧
    accepts (d.task incidentId pluginName) = true

instance (pluginName : String) : Decidable (Submits d incidentId pluginName) :=
  match hr : d.runner with
  | none => isFalse fun h => by
    obtain ⟨-, accepts, ha, -⟩ := h
    rw [hr] at ha
    cases ha
  | some accepts => decidable_of_iff
    (pluginName ∈ d.pluginNames ∧ accepts (d.task incidentId pluginName) = true) (by
      unfold Submits
      rw [hr]
      simp)

/-- Its terminal result is recorded at once, and recording it raises. -/
def endsLoop (pluginName : String) : Bool :=
  !decide (Submits d incidentId pluginName) && d.persistFails pluginName

/-- The result recorded of a plugin that is not submitted. -/
def terminalResult (pluginName : String) : NotificationResult :=
  if d.runner.isNone then missingRunner
  else if pluginName ∉ d.pluginNames then missingPlugin
  else submitFailed

/-- A round that does not raise. -/
def submitOrRecord (s : Submissions σ) (pluginName : String) : Submissions σ :=
  if Submits d incidentId pluginName then
    { s with
      submitted := s.submitted ++ [d.task incidentId pluginName]
      results := s.results ++ [taskSubmitted] }
  else
    { s with
      store := d.record incidentId pluginName (terminalResult d pluginName) s.store
      results := s.results ++ [terminalResult d pluginName] }

variable {d incidentId} {pluginName : String} {s : Submissions σ}

theorem endsLoop_eq_true : endsLoop d incidentId pluginName = true ↔
    ¬ Submits d incidentId pluginName ∧ d.persistFails pluginName = true := by
  simp [endsLoop]

theorem persistTerminal_terminal (hn : ¬ Submits d incidentId pluginName) :
    persistTerminal d incidentId pluginName (terminalResult d pluginName) s =
      if endsLoop d incidentId pluginName then .error s
      else .ok (submitOrRecord d incidentId s pluginName) := by
  unfold persistTerminal Attempt.step endsLoop submitOrRecord
  rw [if_neg hn]
  simp [hn]

/-- **Step**: a round without a runner. -/
theorem round_none (hr : d.runner = none) :
    persistTerminal d incidentId pluginName missingRunner s =
      if endsLoop d incidentId pluginName then .error s
      else .ok (submitOrRecord d incidentId s pluginName) := by
  have hn : ¬ Submits d incidentId pluginName := by
    rintro ⟨-, accepts, ha, -⟩
    rw [hr] at ha
    cases ha
  have hresult : terminalResult d pluginName = missingRunner := by
    simp [terminalResult, hr]
  rw [← hresult]
  exact persistTerminal_terminal hn

/-- **Step**: a round with one. -/
theorem round_some {accepts : NotifyTask → Bool} (hr : d.runner = some accepts) :
    submitNotification d incidentId accepts pluginName s =
      if endsLoop d incidentId pluginName then .error s
      else .ok (submitOrRecord d incidentId s pluginName) := by
  have hsubmits : Submits d incidentId pluginName ↔
      pluginName ∈ d.pluginNames ∧ accepts (d.task incidentId pluginName) = true := by
    unfold Submits
    rw [hr]
    simp
  unfold submitNotification
  by_cases hknown : pluginName ∈ d.pluginNames
  · rw [if_neg (not_not.mpr hknown)]
    by_cases haccepts : accepts (d.task incidentId pluginName) = true
    · have hs : Submits d incidentId pluginName := hsubmits.mpr ⟨hknown, haccepts⟩
      rw [if_pos haccepts]
      unfold endsLoop submitOrRecord
      rw [if_pos hs]
      simp [hs]
    · have hn : ¬ Submits d incidentId pluginName := fun h => haccepts (hsubmits.mp h).2
      have hresult : terminalResult d pluginName = submitFailed := by
        simp [terminalResult, hr, hknown]
      rw [if_neg haccepts, ← hresult]
      exact persistTerminal_terminal hn
  · have hn : ¬ Submits d incidentId pluginName := fun h => hknown h.1
    have hresult : terminalResult d pluginName = missingPlugin := by
      simp [terminalResult, hr, hknown]
    rw [if_pos hknown, ← hresult]
    exact persistTerminal_terminal hn

/-- **Loop**: the rounds before the first that raises. -/
theorem final_submitNotifications (decision : RuleMatch) :
    final (submitNotifications d incidentId decision s) =
      ((sortedSet id decision.val.actions).takeWhile fun p => !endsLoop d incidentId p).foldl
        (submitOrRecord d incidentId) s := by
  unfold submitNotifications
  cases hr : d.runner with
  | none =>
    refine final_forEach (fun p s hp => ?_) (fun p s hp => ?_) _ s <;> rw [round_none hr, hp] <;> rfl
  | some accepts =>
    refine final_forEach (fun p s hp => ?_) (fun p s hp => ?_) _ s <;> rw [round_some hr, hp] <;> rfl

theorem submitted_foldl (plugins : List String) :
    (plugins.foldl (submitOrRecord d incidentId) s).submitted =
      s.submitted ++
        (plugins.filter fun p => decide (Submits d incidentId p)).map (d.task incidentId) := by
  induction plugins generalizing s with
  | nil => simp
  | cons p plugins ih =>
    rw [List.foldl_cons, ih]
    by_cases hp : Submits d incidentId p
    · simp [submitOrRecord, hp]
    · simp [submitOrRecord, hp]

theorem task_injective : Function.Injective (d.task incidentId) := fun _ _ h =>
  congrArg NotifyTask.pluginName h

/-- A plugin is submitted once, or not at all: it is if no plugin up to it ends the loop. -/
theorem count_submitted (decision : RuleMatch) (store : σ)
    (hs : Submits d incidentId pluginName) (hp : pluginName ∈ decision.val.actions) :
    (final (submitNotifications d incidentId decision ⟨store, [], []⟩)).submitted.count
        (d.task incidentId pluginName) =
      if ∀ q ∈ decision.val.actions, q ≤ pluginName → endsLoop d incidentId q = false then 1
      else 0 := by
  have hstrict : Strict id (sortedSet id decision.val.actions) :=
    sortedSet_strict Function.injective_id
  rw [final_submitNotifications, submitted_foldl, List.nil_append,
    List.count_map_of_injective _ _ task_injective]
  have hnodup := (hstrict.nodup.sublist (List.takeWhile_sublist
    fun p => !endsLoop d incidentId p)).filter fun p => decide (Submits d incidentId p)
  rw [hnodup.count]
  refine if_congr ?_ rfl rfl
  rw [List.mem_filter, hstrict.mem_takeWhile]
  simp [hp, hs]

/-- **Isolation, exactly.**  Every plugin whose task would be accepted is submitted once if and
only if no plugin before such a one has a terminal result whose recording raises. -/
theorem submission_isolation (d : SubmissionDeps σ) (decision : RuleMatch)
    (result : IncidentAggregationResult) (store : σ)
    (hplanned : result.notificationIntent = .dispatchPlanned) :
    (∀ p ∈ decision.val.actions, Submits d result.incidentId p →
      (final (afterCommit d decision result ⟨store, [], []⟩)).submitted.count
        (d.task result.incidentId p) = 1) ↔
    ¬ ∃ q ∈ decision.val.actions, ¬ Submits d result.incidentId q ∧ d.persistFails q = true ∧
      ∃ p ∈ decision.val.actions, q < p ∧ Submits d result.incidentId p := by
  unfold afterCommit
  rw [if_pos hplanned]
  constructor
  · rintro hall ⟨q, hq, hqn, hqf, p, hp, hlt, hs⟩
    have hcount := hall p hp hs
    rw [count_submitted decision store hs hp] at hcount
    split at hcount
    · rename_i hnone
      have := hnone q hq hlt.le
      rw [endsLoop_eq_true.mpr ⟨hqn, hqf⟩] at this
      cases this
    · cases hcount
  · intro hnone p hp hs
    rw [count_submitted decision store hs hp]
    refine if_pos fun q hq hle => ?_
    by_contra hends
    obtain ⟨hqn, hqf⟩ := endsLoop_eq_true.mp (Bool.not_eq_false _ ▸ hends)
    have hne : q ≠ p := by
      rintro rfl
      exact hqn hs
    exact hnone ⟨q, hq, hqn, hqf, p, hp, lt_of_le_of_ne hle hne, hs⟩

end

/-! ### A missing plugin before a known one -/

/-- A match with two output plugins. -/
def twoPlugins : RuleMatch :=
  ⟨{ ruleName := "disk", priority := 1, matchedRules := ["disk"], groupKey := "host=db1",
     window := ⟨⟨60, ["host"], 1⟩, by decide⟩, summary := "disk full on db1",
     actions := ["smtp", "pager"] }, by decide⟩

/-- The first crossing of its threshold. -/
def firstCrossing : IncidentAggregationResult where
  incidentId := 0
  effect := .inserted
  status := .«open»
  replay := false
  insideWindow := true
  counted := true
  countedCount := 1
  thresholdDecision :=
    ⟨{ ruleName := "disk", groupKey := "host=db1", windowStart := (sampleTime 0).toDatetime,
       windowEnd := (sampleTime 5).toDatetime,
       threshold := 1, countedFingerprints := ["cpu"], counted := 1, crossed := true,
       replayOrSkipReasons := [] }, by decide⟩
  thresholdCrossed := true
  firstThresholdTransition := true
  notificationIntent := .dispatchPlanned
  noDispatchReason := none

/-- The runner accepts everything, `pager` is not registered, and recording raises for the plugins
of `persistFails`. -/
def smtpOnly (persistFails : String → Bool) : SubmissionDeps (List Incident) where
  runner := some fun _ => true
  pluginNames := ["smtp"]
  configHash := none
  persistFails
  record id pluginName result t :=
    match recordNotificationResult (sampleTime 0) id pluginName result t with
    | .ok (t', _) => t'
    | .error _ => t

/-- `pager` is missing and its result cannot be recorded: `smtp` is never submitted. -/
theorem smtp_not_submitted :
    ¬ ∀ p ∈ twoPlugins.val.actions, Submits (smtpOnly fun _ => true) firstCrossing.incidentId p →
      (final (afterCommit (smtpOnly fun _ => true) twoPlugins firstCrossing
        ⟨[], [], []⟩)).submitted.count
          ((smtpOnly fun _ => true).task firstCrossing.incidentId p) = 1 := by
  intro h
  exact absurd (h "smtp" (by decide) (by decide)) (by decide)

/-- Where it can be recorded, `smtp` is submitted once. -/
theorem submission_isolation_smtp :
    (final (afterCommit (smtpOnly fun _ => false) twoPlugins firstCrossing
      ⟨[], [], []⟩)).submitted.count
        ((smtpOnly fun _ => false).task firstCrossing.incidentId "smtp") = 1 :=
  (submission_isolation (smtpOnly fun _ => false) twoPlugins firstCrossing [] rfl).mpr
    (by rintro ⟨q, -, -, hq, -⟩; cases hq) "smtp" (by decide) (by decide)

end Correlia
