import Correlia.Effects
import Correlia.Ingestion
import Correlia.Invariant
import Correlia.Processing.Ingress

/-!
# ThresholdFacts — five records of one window

The answer, the audit summary, the decision context, the window state and the columns of the
incident tell the same of a problem that matched, on the insert and on the merge path
(`threshold_facts`).
-/

namespace Correlia

open Lib

/-! ### What a write reports of its row -/

/-- The facts of a write are those of the row it returns, and of the table before it. -/
structure WriteFacts (i : IncidentUpsertInput) (t : List Incident)
    (w : IncidentAggregationWriteResult) : Prop where
  ruleName : w.incident.ruleName = i.ruleName
  groupKey : w.incident.groupKey = i.groupKey
  thresholdCount : w.thresholdCount = w.incident.windowState.val.thresholdCount
  started : w.windowStartedAt.dump.rewritten = w.incident.windowState.val.windowStartedAt.rewritten
  ended : w.windowEndedAt.dump.rewritten = w.incident.windowState.val.windowEndedAt.rewritten
  countedCount : w.countedCount = w.incident.windowState.val.countedCount
  size : w.incident.windowState.val.countedCount =
    w.incident.windowState.val.countedFingerprintTimestamps.size
  fingerprints : w.countedFingerprints =
    w.incident.windowState.val.countedFingerprintTimestamps.keys
  windowCrossed : w.windowCrossed = w.incident.windowState.val.crossed
  marker : w.thresholdCrossed = w.incident.thresholdCrossed
  /-- The fingerprint was there already, inside the window. -/
  replay : w.replay = true ↔ ∃ r ∈ t, r.id = w.incident.id ∧
    ∃ e ∈ r.window.countedFingerprintTimestamps.entries, e.1 = i.fingerprint ∧
      w.windowStartedAt.instant ≤ e.2 ∧ e.2 ≤ w.windowEndedAt.instant
  /-- The marker is set, and was not before. -/
  first : w.firstThresholdTransition = true ↔ w.incident.thresholdCrossed = true ∧
    ∀ r ∈ t, r.id = w.incident.id → r.thresholdCrossed = false

section

variable {now : Timestamptz} {id : UUID} {i : IncidentUpsertInput} {t t' : List Incident}
  {w : IncidentAggregationWriteResult}

theorem insertedResult_facts {state : IncidentWindowState} {eventTime : Timestamptz}
    (hstate : initialWindowState i = .ok state) (hid : ∀ r ∈ t, r.id ≠ id) :
    WriteFacts i t (insertedResult (freshIncident now id i eventTime state)) := by
  obtain ⟨objs, start, -, -, hval⟩ := initialWindowState_eq_ok hstate
  refine ⟨rfl, rfl, rfl, Timestamp.rewritten_rewritten _, Timestamp.rewritten_rewritten _, rfl, ?_,
    rfl, rfl, rfl, ?_, ?_⟩
  · show state.val.countedCount = (state.val.countedFingerprintTimestamps.map Datetime.dump).size
    rw [Dict.size_map, hval]
    rfl
  · refine iff_of_false (fun h => Bool.noConfusion h) ?_
    rintro ⟨r, hr, hrid, -⟩
    exact hid r hr hrid
  · exact ⟨fun h => ⟨h, fun r hr hrid => absurd hrid (hid r hr)⟩, fun h => h.1⟩

theorem updatedResult_facts (ht : (t.map Incident.id).Nodup) {existing : Incident}
    {w' : WindowUpdate} {context : ContextData} {eventTime : Timestamptz} (hmem : existing ∈ t)
    (hkey : existing.key = i.key) (hw : nextWindowState existing i = .ok w') :
    WriteFacts i t
      (updatedResult existing (mergedIncident now i eventTime w' context existing) w') := by
  have hnext := nextWindowState_eq_ok hw
  have hsame : ∀ r ∈ t, r.id = existing.id → r = existing := fun r hr hid =>
    eq_of_key ht hr hmem hid
  obtain ⟨hrule, hgroup⟩ := Prod.mk.inj hkey
  have hended : w'.state.val.windowEndedAt.instant = nextWindowEnd existing i := by
    rw [hnext.endedAt, nextWindowEndDatetime_instant]
  have hstarted : w'.state.val.windowStartedAt.instant = nextWindowStart existing i := by
    rw [Datetime.subSeconds_instant hnext.startedAt, nextWindowEndDatetime_instant, nextWindowStart]
  refine ⟨hrule, hgroup, rfl, rfl, rfl, rfl, ?_, Dict.keys_map.symm, rfl, rfl, ?_, ?_⟩
  · show w'.state.val.countedCount =
      (w'.state.val.countedFingerprintTimestamps.map Datetime.dump).size
    rw [Dict.size_map, hnext.countedCount]
  · show w'.replay = true ↔ ∃ r ∈ t, r.id = existing.id ∧
      ∃ e ∈ r.window.countedFingerprintTimestamps.entries, e.1 = i.fingerprint ∧
      w'.state.val.windowStartedAt.instant ≤ e.2 ∧ e.2 ≤ w'.state.val.windowEndedAt.instant
    rw [hnext.replay, Dict.contains_iff, hended, hstarted]
    constructor
    · rintro ⟨v, hv⟩
      obtain ⟨hv, hinside⟩ := mem_retain.mp hv
      exact ⟨existing, hmem, rfl, _, hv, rfl, hinside⟩
    · rintro ⟨r, hr, hid, e, he, hname, hinside⟩
      obtain rfl := hsame r hr hid
      exact ⟨e.2, mem_retain.mpr ⟨hname ▸ he, hinside⟩⟩
  · show (!existing.thresholdCrossed && (existing.thresholdCrossed || w'.state.val.crossed)) = true ↔
      (existing.thresholdCrossed || w'.state.val.crossed) = true ∧
        ∀ r ∈ t, r.id = existing.id → r.thresholdCrossed = false
    rw [Bool.and_eq_true, Bool.not_eq_true', and_comm]
    refine and_congr_right' ⟨fun h r hr hid => ?_, fun h => h existing hmem rfl⟩
    rw [hsame r hr hid]
    exact h

theorem recordProblemIncident_facts (ht : (t.map Incident.id).Nodup)
    (h : recordProblemIncident now id i t = .ok (t', w)) :
    WriteFacts i t w ∧ w.incident ∈ t' := by
  cases recordProblemIncident_eq_ok ht h with
  | inserted state eventTime hstate htime hlen hkey hid =>
    exact ⟨insertedResult_facts hstate hid, List.mem_append_right t (List.mem_singleton_self _)⟩
  | merged existing w' context eventTime hmem hopen hkey hw hcontext htime hlen =>
    refine ⟨updatedResult_facts ht hmem hkey hw, List.mem_map.mpr ⟨existing, hmem, ?_⟩⟩
    exact if_pos (decide_eq_true rfl)

end

/-! ### The five records -/

/-- The text of a replay in the reasons of a threshold decision. -/
def replayText (fingerprint : String) : String :=
  "replay: fingerprint " ++ fingerprint ++ " already counted in window"

/-- What the answer's threshold decision, the audit summary, and the decision context, the window
state and the columns of the incident say of a problem recorded on a table `t`. -/
structure SameFacts (event : EventData) (t : List Incident) (answered : ThresholdDecision)
    (summary : SummaryFields) (r : Incident) : Prop where
  rule : answered.val.ruleName = r.ruleName ∧ answered.val.groupKey = r.groupKey ∧
    summary.ruleName = some r.ruleName ∧ summary.groupKey = some r.groupKey ∧
    r.decisionContext.fill.ruleName = some r.ruleName ∧
    r.decisionContext.fill.groupKey = some r.groupKey
  threshold : answered.val.threshold = r.windowState.val.thresholdCount ∧
    summary.thresholdCount = some (r.windowState.val.thresholdCount : ℤ) ∧
    r.decisionContext.fill.thresholdCount = some r.windowState.val.thresholdCount
  /-- The same texts, except that `+00:00` may stand for `Z`. -/
  bounds : answered.val.windowStart.dump.rewritten = r.windowState.val.windowStartedAt.rewritten ∧
    answered.val.windowEnd.dump.rewritten = r.windowState.val.windowEndedAt.rewritten
  counted : answered.val.counted = r.windowState.val.countedCount ∧
    summary.countedCount = some (r.windowState.val.countedCount : ℤ) ∧
    r.decisionContext.fill.countedCount = some r.windowState.val.countedCount ∧
    r.windowState.val.countedCount = r.windowState.val.countedFingerprintTimestamps.size
  fingerprints : answered.val.countedFingerprints =
    r.windowState.val.countedFingerprintTimestamps.keys
  crossed : answered.val.crossed = decide (answered.val.threshold ≤ answered.val.counted)
  marker : summary.thresholdCrossed = some r.thresholdCrossed ∧
    r.decisionContext.fill.thresholdCrossed = some r.thresholdCrossed
  replay : ∃ replay, summary.replay = some replay ∧
    r.decisionContext.fill.replay = some replay ∧
    (replayText event.fingerprint ∈ answered.val.replayOrSkipReasons ↔ replay = true) ∧
    (replay = true ↔ ∃ r₀ ∈ t, r₀.id = r.id ∧
      ∃ e ∈ r₀.window.countedFingerprintTimestamps.entries, e.1 = event.fingerprint ∧
        answered.val.windowStart.instant ≤ e.2 ∧ e.2 ≤ answered.val.windowEnd.instant)
  first : ∃ first, summary.firstThresholdTransition = some first ∧
    r.decisionContext.fill.firstThresholdTransition = some first ∧
    (first = true ↔ r.thresholdCrossed = true ∧
      ∀ r₀ ∈ t, r₀.id = r.id → r₀.thresholdCrossed = false)
  events : r.decisionContext.fill.eventCount = some r.eventCount

theorem replayText_ne (fingerprint : String) :
    replayText fingerprint ≠ "outside window: event timestamp not counted" := by
  unfold replayText
  intro h
  have hhead := congrArg (fun s => s.toList.head?) h
  rw [String.toList_append, String.toList_append] at hhead
  simp at hhead

theorem replayText_mem_iff {event : NormalizedEvent} {w : IncidentAggregationWriteResult} :
    replayText event.val.fingerprint ∈ replayOrSkipReasons event w ↔ w.replay = true := by
  unfold replayOrSkipReasons
  rw [List.mem_append]
  constructor
  · rintro (h | h)
    · by_contra hno
      rw [if_neg hno] at h
      exact List.not_mem_nil h
    · by_cases hinside : w.insideWindow = true
      · rw [if_pos hinside] at h
        exact absurd h List.not_mem_nil
      · rw [if_neg hinside] at h
        exact absurd (List.mem_singleton.mp h) (replayText_ne _)
  · intro h
    rw [if_pos h]
    exact Or.inl (List.mem_singleton_self _)

/-- The row of a completed `apply_problem`, with the facts of its result. -/
theorem applyProblem_facts {now : Timestamptz} {id : UUID} {configHash : Option String}
    {event : NormalizedEvent} {decision : RuleMatch} {t t' : List Incident}
    {result : IncidentAggregationResult} (ht : (t.map Incident.id).Nodup)
    (h : applyProblem now id configHash event decision t = .ok (t', result)) :
    ∃ r ∈ t', r.id = result.incidentId ∧ result.thresholdCrossed = r.thresholdCrossed ∧
      SameFacts event.val t result.thresholdDecision (buildProblemAuditSummary result decision) r := by
  obtain ⟨-, input, t₁, w, threshold, final, hinput, hrec, hthreshold, hfinal, rfl, rfl⟩ :=
    applyProblem_eq_ok h
  obtain ⟨facts, hmem⟩ := recordProblemIncident_facts ht hrec
  obtain ⟨preliminary, -, hpost⟩ := bind_eq_ok.mp hinput
  rw [liftError_eq_ok, UpsertArgs.postInit_eq_ok] at hpost
  obtain ⟨hpass, rfl⟩ := hpost
  rw [thresholdDecision, liftError_eq_ok, modelValidate_eq_ok] at hthreshold
  obtain ⟨deliveries, -, hfinal⟩ := bind_eq_ok.mp hfinal
  rw [liftError_eq_ok, modelValidate_eq_ok] at hfinal
  refine ⟨{ w.incident with decisionContext := final.val.dump }, ?_, rfl, facts.marker, ?_⟩
  · exact List.mem_map.mpr ⟨w.incident, hmem, if_pos (decide_eq_true rfl)⟩
  have hfill : final.val.dump.fill = final.val := ContextFields.fill_dump _
  have hcounted : threshold.val.counted = w.incident.windowState.val.countedCount := by
    rw [hthreshold]
    exact facts.countedCount
  have hcount : threshold.val.threshold = w.incident.windowState.val.thresholdCount := by
    rw [hthreshold]
    exact facts.thresholdCount
  constructor
  · refine ⟨?_, ?_, ?_, ?_, ?_, ?_⟩
    · rw [hthreshold]
      exact facts.ruleName.symm
    · rw [hthreshold]
      exact facts.groupKey.symm
    · exact congrArg some facts.ruleName.symm
    · exact congrArg some facts.groupKey.symm
    · rw [hfill, hfinal]
      exact congrArg some facts.ruleName.symm
    · rw [hfill, hfinal]
      exact congrArg some facts.groupKey.symm
  · refine ⟨hcount, ?_, ?_⟩
    · exact congrArg (fun n : ℕ => some (n : ℤ)) hcount
    · rw [hfill, hfinal]
      exact congrArg some facts.thresholdCount
  · rw [hthreshold]
    exact ⟨facts.started, facts.ended⟩
  · refine ⟨hcounted, ?_, ?_, facts.size⟩
    · exact congrArg (fun n : ℕ => some (n : ℤ)) hcounted
    · rw [hfill, hfinal]
      exact congrArg some facts.countedCount
  · rw [hthreshold]
    exact facts.fingerprints
  · rw [hcount, hcounted, hthreshold]
    exact facts.windowCrossed
  · refine ⟨congrArg some facts.marker, ?_⟩
    rw [hfill, hfinal]
    exact congrArg some facts.marker
  · refine ⟨w.replay, rfl, ?_, ?_, ?_⟩
    · rw [hfill, hfinal]
      rfl
    · rw [hthreshold]
      exact replayText_mem_iff
    · rw [hthreshold]
      exact facts.replay
  · refine ⟨w.firstThresholdTransition, rfl, ?_, facts.first⟩
    rw [hfill, hfinal]
    rfl
  · rw [hfill, hfinal]
    rfl

/-! ### From the commit on -/

/-- Recording a delivery leaves the facts as they are. -/
theorem SameFacts.notified {event : EventData} {t : List Incident} {answered : ThresholdDecision}
    {summary : SummaryFields} {r : Incident} (h : SameFacts event t answered summary r)
    {now : Timestamptz} {success : Bool} {context : ContextData}
    {records : List NotificationDeliveryRecord}
    (hfill : context.fill =
      { r.decisionContext.fill with notificationDeliveryResults := records }) :
    SameFacts event t answered summary (notifiedIncident now success context r) := by
  have hcontext : (notifiedIncident now success context r).decisionContext.fill =
      { r.decisionContext.fill with notificationDeliveryResults := records } := hfill
  constructor
  · rw [hcontext]
    exact h.rule
  · rw [hcontext]
    exact h.threshold
  · exact h.bounds
  · rw [hcontext]
    exact h.counted
  · exact h.fingerprints
  · exact h.crossed
  · rw [hcontext]
    exact h.marker
  · rw [hcontext]
    exact h.replay
  · rw [hcontext]
    exact h.first
  · rw [hcontext]
    exact h.events

/-- The incident of a problem is there, with these facts. -/
structure Tells (event : EventData) (t : List Incident) (threshold : ThresholdDecision)
    (summary : SummaryFields) (id : UUID) (t' : List Incident) : Prop where
  ids : (t'.map Incident.id).Nodup
  row : ∃ r ∈ t', r.id = id ∧ SameFacts event t threshold summary r

theorem Tells.recorded {event : EventData} {t t' t'' : List Incident} {threshold : ThresholdDecision}
    {summary : SummaryFields} {id id' : UUID} (h : Tells event t threshold summary id t')
    {now : Timestamptz} {pluginName : String} {result : NotificationResult} {found : Bool}
    (hrecord : recordNotificationResult now id' pluginName result t' = .ok (t'', found)) :
    Tells event t threshold summary id t'' := by
  obtain ⟨r, hr, hid, hfacts⟩ := h.row
  rcases recordNotificationResult_eq_ok h.ids hrecord with
    ⟨rfl, -⟩ | ⟨c, hc, -, -, context, hcontext, rfl⟩
  · exact h
  · obtain ⟨-, records, hfill⟩ := validatedNotificationContext_eq_ok hcontext
    refine ⟨?_, ?_⟩
    · rw [setRow_map_key]
      exact h.ids
    · by_cases hrc : r.id = c.id
      · obtain rfl := eq_of_key h.ids hr hc hrc
        exact ⟨_, List.mem_map.mpr ⟨r, hr, if_pos (decide_eq_true rfl)⟩, hid, hfacts.notified hfill⟩
      · exact ⟨r, mem_setRow_of_ne hr hrc, hid, hfacts⟩

section

open Icinga2DecisionProcessor

/-- **Threshold facts.**  For every problem that matches a rule and whose transaction commits: the
answer's two threshold decisions, the stored audit summary, and the decision context, the window
state and the marker of the incident say the same, at the commit and after the submissions. -/
theorem threshold_facts {p : Icinga2DecisionProcessor} {req : IngressRequest} {db db' : Database}
    {event : NormalizedEvent} {a : AcceptedEvent} {decision : RuleMatch} {effect : Effect}
    {decided : Option Decision} (hids : (db.incidents.map Incident.id).Nodup)
    (hevent : processPayload p.sha256 req.payload = .ok (.event event))
    (haccept : p.accept event = .ok a) (hproblem : event.val.eventType = .problem)
    (hmatch : a.decision = .ruleMatch decision)
    (hcommit : p.transaction req a db = .ok (db', effect, decided)) :
    ∃ (id : UUID) (threshold : ThresholdDecision) (summary : SummaryFields),
      (∃ row ∈ db'.incidentEvents, row.id = req.eventId ∧
        row.decisionSummary.fields = summary.dump) ∧
      (p.processPayload req db).database.incidentEvents = db'.incidentEvents ∧
      Tells a.event.val db.incidents threshold summary id db'.incidents ∧
      Tells a.event.val db.incidents threshold summary id
        (p.processPayload req db).database.incidents ∧
      ∀ answer : IngressDecisionEnvelope, (p.processPayload req db).response = .ok answer →
        answer.val.incidentId = some id ∧ answer.val.thresholdDecision = some threshold ∧
        (∃ rule : RuleDecision, answer.val.ruleDecision = some (.rule rule) ∧
          rule.val.thresholdDecision = threshold) ∧
        summary.thresholdCrossed = some answer.val.thresholdCrossed := by
  rw [processPayload_event hevent, processEvent_committed haccept hcommit]
  obtain ⟨happlied, hdecided, -, haudited⟩ := committed_of_transaction hcommit
  have htype : a.event.val.eventType = .problem := by
    rw [(accept_eq_ok haccept).1]
    exact hproblem
  unfold applyEvent at happlied
  rw [htype, hmatch] at happlied
  obtain ⟨⟨t', result⟩, happly, happlied⟩ := bind_eq_ok.mp happlied
  cases happlied
  obtain ⟨r, hr, hid, hmarker, hfacts⟩ := applyProblem_facts hids happly
  have hids' : (db'.incidents.map Incident.id).Nodup := by
    have hstep : step (.applyProblem req.now req.incidentId p.configHash a.event decision)
        db.incidents = .ok (db'.incidents, .applied result) :=
      answer_eq_ok.mpr ⟨result, happly, rfl⟩
    exact step_ids_nodup hids hstep
  have htells : Tells a.event.val db.incidents result.thresholdDecision
      (buildProblemAuditSummary result decision) result.incidentId db'.incidents :=
    ⟨hids', r, hr, hid, hfacts⟩
  obtain ⟨summary, redacted, ts, hsummary, -, -, haudit⟩ := haudited
  refine ⟨result.incidentId, result.thresholdDecision, buildProblemAuditSummary result decision,
    ?_, ?_, htells, ?_, ?_⟩
  · refine ⟨auditRow req a (.problem result decision) ts summary redacted, ?_, rfl, ?_⟩
    · rw [haudit]
      exact List.mem_append_right _ (List.mem_singleton_self _)
    · exact congrArg SummaryFields.dump hsummary
  · exact afterTransaction_keeps (P := fun d => d.incidentEvents = db'.incidentEvents) rfl
      fun _ _ _ _ _ _ _ hd _ => hd
  · exact afterTransaction_keeps (P := fun d => Tells a.event.val db.incidents
      result.thresholdDecision (buildProblemAuditSummary result decision) result.incidentId
      d.incidents) htells fun _ _ _ _ _ _ _ hd hrecord => hd.recorded hrecord
  · intro answer hanswer
    obtain ⟨s, -, -, henvelope⟩ := afterTransaction_answer hanswer
    obtain ⟨rule, hrule, hdecision⟩ := bind_eq_ok.mp hdecided
    cases hdecision
    rw [liftError_eq_ok, modelValidate_eq_ok] at hrule
    rw [henvelope]
    refine ⟨rfl, ?_, ⟨rule, rfl, ?_⟩, rfl⟩
    · exact congrArg (fun d : RuleDecisionFields => some d.thresholdDecision) hrule
    · rw [hrule]

/-! ### A first problem -/

def sampleProcessor : Icinga2DecisionProcessor where
  sha256 := sampleSha256
  hmac := fun _ _ => HexDigest.ofNat 0
  topologyEnricher := none
  ruleEngine := some [sampleCompiledRule]
  hasSessionmaker := true
  hasTaskRunner := false
  pluginNames := []
  configHash := none
  auditRawPayloadMaxBytes := 4096
  auditRawPayloadHmacKey := "key"

theorem timeout_length : 1 ≤ "timeout".length := by decide

def sampleIngressRequest : IngressRequest where
  payload := samplePayload "timeout" timeout_length
  now := sampleTime 1
  incidentId := 3
  eventId := 4
  fault := none
  persistFails := fun _ => false
  accepts := fun _ => true

/-- The request brings a problem that a rule matches, and its transaction commits. -/
def Icinga2DecisionProcessor.commitsProblem (p : Icinga2DecisionProcessor) (req : IngressRequest)
    (db : Database) : Bool :=
  match Correlia.processPayload p.sha256 req.payload with
  | .ok (.event event) =>
    match p.accept event with
    | .ok a =>
      match a.decision, p.transaction req a db with
      | .ruleMatch _, .ok _ => decide (event.val.eventType = .problem)
      | _, _ => false
    | .error _ => false
  | _ => false

/-- The sample problem commits on the empty database. -/
theorem sampleIngressRequest_commits : ∃ event a decision db' effect decided,
    processPayload sampleProcessor.sha256 sampleIngressRequest.payload = .ok (.event event) ∧
      sampleProcessor.accept event = .ok a ∧ event.val.eventType = .problem ∧
      a.decision = .ruleMatch decision ∧
      sampleProcessor.transaction sampleIngressRequest a ⟨[], []⟩ = .ok (db', effect, decided) := by
  have h : sampleProcessor.commitsProblem sampleIngressRequest ⟨[], []⟩ = true := by
    decide +kernel
  unfold Icinga2DecisionProcessor.commitsProblem at h
  split at h
  · rename_i event hevent
    split at h
    · rename_i a haccept
      split at h
      · rename_i decision committed hmatch hcommit
        obtain ⟨db', effect, decided⟩ := committed
        exact ⟨event, a, decision, db', effect, decided, hevent, haccept, of_decide_eq_true h, hmatch,
          hcommit⟩
      · cases h
    · cases h
  · cases h

theorem threshold_facts_sample : ∃ (event : EventData) (threshold : ThresholdDecision)
    (summary : SummaryFields) (id : UUID), Tells event [] threshold summary id
      (sampleProcessor.processPayload sampleIngressRequest ⟨[], []⟩).database.incidents := by
  obtain ⟨event, a, decision, db', effect, decided, hevent, haccept, hproblem, hmatch, hcommit⟩ :=
    sampleIngressRequest_commits
  obtain ⟨id, threshold, summary, -, -, -, htells, -⟩ :=
    @threshold_facts sampleProcessor sampleIngressRequest ⟨[], []⟩ db' event a decision effect decided
      List.nodup_nil hevent haccept hproblem hmatch hcommit
  exact ⟨_, threshold, summary, id, htells⟩

end

end Correlia
