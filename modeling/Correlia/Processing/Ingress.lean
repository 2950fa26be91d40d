import Correlia.Config.Rules
import Correlia.Persistence.Audit
import Correlia.Plugins.Icinga2
import Correlia.Processing.Enrichment
import Correlia.Processing.Lifecycle
import Correlia.Processing.RuleEngine
import Correlia.Processing.Submission

/-!
# Processing.Ingress — a webhook request from payload to answer (`app/processing/ingress.py`)

The request's own transaction writes the incidents and one audit row, or nothing.  A statement of it
can fail, and so can the commit; after the commit, recording a terminal result can.  Which of these
happen, the clock, the generated ids and which tasks the runner takes come with the request.
-/

namespace Correlia

open Lib

/-! ### Dumps -/

/-- A datetime in a JSON dump: ISO text, with `Z` for the offset of UTC. -/
def timestampJson (d : Datetime) : Json :=
  .string (if d.offset = 0 then takeText (d.isoformat.length - 6) d.isoformat ++ "Z"
    else d.isoformat)

def tagsJson (tags : Items String String) : Json :=
  .object (tags.entries.map fun e => (e.1, .string e.2))

theorem distinct_tagsJson (tags : Items String String) : (tagsJson tags).Distinct := by
  refine .object ?_ ?_
  · rw [List.map_map]
    exact tags.nodup
  · rintro e he
    obtain ⟨t, -, rfl⟩ := List.mem_map.mp he
    exact .string t.2

theorem distinct_jsonOf {α : Type} {f : α → Json} (h : ∀ a, (f a).Distinct) (o : Option α) :
    (jsonOf f o).Distinct := by
  cases o with
  | none => exact .null
  | some a => exact h a

/-- `payload.model_dump(mode="json")`. -/
def PayloadFields.dump (p : PayloadFields) : JsonDict where
  fields := [("source_id", .string p.sourceId), ("host", .string p.host),
    ("service", jsonOf .string p.service), ("state", .string p.state),
    ("state_type", .string (match p.stateType with | .hard => "HARD" | .soft => "SOFT")),
    ("timestamp", timestampJson p.timestamp), ("check_output", .string p.checkOutput),
    ("ip_address", jsonOf .string p.ipAddress), ("tags", tagsJson p.tags)]
  distinct := by
    refine .object ?_ ?_
    · simp only [List.map_cons, List.map_nil]
      decide
    · simp only [List.forall_mem_cons]
      exact ⟨.string _, .string _, distinct_jsonOf .string _, .string _, .string _, .string _,
        .string _, distinct_jsonOf .string _, distinct_tagsJson _, nofun⟩

/-- `event.model_dump(mode="json")`. -/
def EventData.dump (e : EventData) : JsonDict where
  fields := [("fingerprint", .string e.fingerprint), ("source_id", .string e.sourceId),
    ("host", .string e.host), ("service", jsonOf .string e.service),
    ("severity", .string e.severity.value), ("event_type", .string e.eventType.value),
    ("timestamp", timestampJson e.timestamp), ("tags", tagsJson e.tags),
    ("message", .string e.message), ("ip_address", jsonOf .string e.ipAddress)]
  distinct := by
    refine .object ?_ ?_
    · simp only [List.map_cons, List.map_nil]
      decide
    · simp only [List.forall_mem_cons]
      exact ⟨.string _, .string _, .string _, distinct_jsonOf .string _, .string _, .string _,
        .string _, distinct_tagsJson _, .string _, distinct_jsonOf .string _, nofun⟩

theorem SummaryFields.dump_distinct (s : SummaryFields) : (Json.object s.dump).Distinct := by
  have hids : (Json.array (s.incidentIds.map Json.string)).Distinct := by
    refine .array fun j hj => ?_
    obtain ⟨id, -, rfl⟩ := List.mem_map.mp hj
    exact .string id
  refine .object ?_ ?_
  · simp only [SummaryFields.dump, List.map_cons, List.map_nil]
    decide
  · simp only [SummaryFields.dump, List.forall_mem_cons]
    exact ⟨.int _, .string _, .string _, distinct_jsonOf .string _, distinct_jsonOf .string _, hids,
      .int _, .bool _, distinct_jsonOf .string _, distinct_jsonOf .string _, .string _,
      distinct_jsonOf .int _, distinct_jsonOf .int _, distinct_jsonOf .bool _,
      distinct_jsonOf .bool _, distinct_jsonOf .bool _, distinct_jsonOf (fun _ => .string _) _,
      distinct_jsonOf .bool _, nofun⟩

/-! ### The answer (`app/domain/rules.py`) -/

structure RuleDecisionFields where
  ruleName : String
  priority : ℤ
  matchedRules : List String
  groupKey : String
  thresholdDecision : ThresholdDecision
  summary : String
  actions : List String

def RuleDecisionFields.errors (d : RuleDecisionFields) : List FieldError :=
  boundedErrors "rule_name" d.ruleName ++ itemErrors (boundedErrors "matched_rules") d.matchedRules ++
    boundedErrors "group_key" d.groupKey ++ boundedErrors "summary" d.summary ++
    itemErrors (boundedErrors "actions") d.actions

abbrev RuleDecision := Checked RuleDecisionFields.errors

inductive Decision
  | rule (decision : RuleDecision)
  | noOp (decision : NoOpDecision)

structure IncidentEffectSummary where
  inserted : ℕ
  updated : ℕ

structure LifecycleOutcome where
  effect : LifecycleEffect
  reason : String
  previousHostCount : ℕ
  previousServiceCount : ℕ
  affectedObjectRemoved : Bool
  notes : List (String × String)

structure EnvelopeFields where
  stateAccepted : Bool
  eventId : Option String := none
  fingerprint : Option String := none
  sourceId : Option String := none
  host : Option String := none
  service : Option String := none
  eventType : Option String := none
  severity : Option String := none
  finalTags : Items String String := .empty
  enrichmentDiagnostics : List EnrichmentDiagnostic := []
  matchedRules : List String := []
  ruleDecision : Option Decision := none
  groupKey : Option String := none
  thresholdDecision : Option ThresholdDecision := none
  incidentEffects : IncidentEffectSummary := ⟨0, 0⟩
  closureCount : ℕ := 0
  lifecycleOutcome : Option LifecycleOutcome := none
  recoveryResolution : Option RecoveryResolution := none
  affectedObjectRemoved : Bool := false
  incidentId : Option UUID := none
  thresholdCrossed : Bool := false
  notificationTriggered : Bool := false
  notificationFailed : Bool := false
  noDispatchReason : Option String := none
  notificationResults : List NotificationResult := []
  notificationCount : ℕ := 0
  rejection : Option Icinga2Rejection := none

def EnvelopeFields.errors (e : EnvelopeFields) : List FieldError :=
  optErrors (boundedErrors "event_id") e.eventId ++
  optErrors (boundedErrors "fingerprint") e.fingerprint ++
  optErrors (boundedErrors "source_id") e.sourceId ++
  optErrors (boundedErrors "host") e.host ++
  optErrors (boundedErrors "service") e.service ++
  optErrors (boundedErrors "event_type") e.eventType ++
  optErrors (boundedErrors "severity") e.severity ++
  itemErrors (fun t => tagKeyErrors "final_tags" t.1 ++ tagValueErrors "final_tags" t.2)
    e.finalTags.entries ++
  itemErrors (boundedErrors "matched_rules") e.matchedRules ++
  optErrors (boundedErrors "group_key") e.groupKey ++
  optErrors (boundedErrors "no_dispatch_reason") e.noDispatchReason ++
  check (decide (e.notificationResults.length ≤ 20)) "notification_results" .tooLong

abbrev IngressDecisionEnvelope := Checked EnvelopeFields.errors

/-! ### Lifecycle results -/

/-- `LifecycleResult.incident_id`. -/
def LifecycleResult.incidentId (r : LifecycleResult) : Option UUID := r.incidentIds.head?

/-- `LifecycleResult.resolved_count`. -/
def LifecycleResult.resolvedCount (r : LifecycleResult) : ℕ := if r.effect = .resolved then 1 else 0

/-! ### Audit summaries -/

def auditIncidentIdsCap : ℕ := 20

/-- `_incident_ids_for_audit`. -/
def incidentIdsForAudit (ids : List UUID) : List String × Bool :=
  ((ids.take auditIncidentIdsCap).map uuidText, decide (auditIncidentIdsCap < ids.length))

/-- `_problem_incident_effect`. -/
def problemIncidentEffect (result : IncidentAggregationResult) : AuditEffect :=
  match result.effect with
  | .inserted => .inserted
  | .updated => .updated

/-- `_recovery_incident_effect`. -/
def recoveryIncidentEffect (result : LifecycleResult) : AuditEffect :=
  match result.effect with
  | .resolved => .resolved
  | .affectedSetShrunk => .affectedSetShrunk
  | _ => .none

/-- `_recovery_resolution_for_audit`. -/
def recoveryResolutionForAudit (result : LifecycleResult) : RecoveryResolution :=
  match result.effect with
  | .resolved => .resolved
  | .affectedSetShrunk => .affectedSetShrunk
  | _ => .noop

/-- `_build_problem_audit_summary`. -/
def buildProblemAuditSummary (result : IncidentAggregationResult) (decision : RuleMatch) :
    SummaryFields :=
  let ids := incidentIdsForAudit [result.incidentId]
  { decisionKind := .problem
    incidentEffect := problemIncidentEffect result
    ruleName := some decision.val.ruleName
    groupKey := some decision.val.groupKey
    incidentIds := ids.1
    affectedIncidentCount := 1
    incidentIdsTruncated := ids.2
    noDispatchReason := result.noDispatchReason.map NoDispatchReason.value
    notificationIntent := result.notificationIntent
    countedCount := some result.thresholdDecision.val.counted
    thresholdCount := some result.thresholdDecision.val.threshold
    thresholdCrossed := some result.thresholdCrossed
    replay := some result.replay
    firstThresholdTransition := some result.firstThresholdTransition }

/-- `_build_recovery_audit_summary`. -/
def buildRecoveryAuditSummary (result : LifecycleResult) : SummaryFields :=
  let ids := incidentIdsForAudit result.incidentIds
  { decisionKind := .recovery
    incidentEffect := recoveryIncidentEffect result
    incidentIds := ids.1
    affectedIncidentCount := result.incidentIds.length
    incidentIdsTruncated := ids.2
    decisionReason := some "source_recovery"
    notificationIntent := .noDispatch
    recoveryResolution := some (recoveryResolutionForAudit result)
    affectedObjectRemoved := some result.affectedObjectRemoved }

/-- The bounded form of a reason that names a field. -/
def auditReason (noopReason : String) : String :=
  if "missing required group-by field: ".toList <+: noopReason.toList then
    "missing_required_group_by_field"
  else noopReason

/-- `_build_noop_audit_summary`; an empty or missing reason reads as no rule. -/
def buildNoopAuditSummary (noopReason : Option String) (matchedRules : List String) :
    SummaryFields :=
  let reason := (noopReason.map auditReason).filter fun s => decide (s ≠ "")
  { decisionKind := .noop
    incidentEffect := .none
    decisionReason := some (reason.getD "no matching rule")
    noDispatchReason := if matchedRules = [] then some (reason.getD "no_matching_rule") else none
    notificationIntent := .noDispatch }

/-! ### The processor -/

/-- Where the transaction fails. -/
inductive Fault
  | session | statement | auditInsert | commit
deriving DecidableEq

inductive IngressException
  | input (e : InputError)
  | database (e : OpError)
  | noSuchGroup (e : GroupException)
  | eventTags
  | runtime (message : String)
  | fault (f : Fault)

structure Icinga2DecisionProcessor where
  sha256 : String → HexDigest
  hmac : String → List Char → HexDigest
  topologyEnricher : Option CompiledTopologyConfig
  ruleEngine : Option (List CompiledRule)
  hasSessionmaker : Bool
  hasTaskRunner : Bool
  pluginNames : List String
  configHash : Option String
  auditRawPayloadMaxBytes : ℤ
  auditRawPayloadHmacKey : String

structure Database where
  incidents : List Incident
  incidentEvents : List IncidentEvent

/-- A request: the payload, the clock, the generated ids, and what fails. -/
structure IngressRequest where
  payload : Icinga2WebhookPayload
  now : Timestamptz
  incidentId : UUID
  eventId : UUID
  fault : Option Fault
  persistFails : String → Bool
  accepts : NotifyTask → Bool

/-- An accepted event with its effective tags, and what the rules say to it. -/
structure AcceptedEvent where
  event : NormalizedEvent
  diagnostics : List EnrichmentDiagnostic
  decision : EngineDecision

/-- What the managers did. -/
inductive Effect
  | problem (result : IncidentAggregationResult) (decision : RuleMatch)
  | recovery (result : LifecycleResult)
  | noop

/-- The deliveries a committed effect plans: one for every distinct action plugin. -/
def Effect.planned : Effect → List (UUID × String)
  | .problem result decision =>
    if result.notificationIntent = .dispatchPlanned then
      (sortedSet id decision.val.actions).map fun pluginName => (result.incidentId, pluginName)
    else []
  | _ => []

theorem Effect.mem_planned {result : IncidentAggregationResult} {decision : RuleMatch}
    (h : result.notificationIntent = .dispatchPlanned) {pluginName : String}
    (hn : pluginName ∈ decision.val.actions) :
    (result.incidentId, pluginName) ∈ (Effect.problem result decision).planned := by
  rw [planned, if_pos h]
  exact List.mem_map.mpr ⟨pluginName, mem_sortedSet.mpr hn, rfl⟩

theorem pairOk_of_eventTagLoop {encoded comma : ℕ} {l : List (String × String)}
    (h : eventTagLoop encoded comma l = true) : ∀ e ∈ l, eventTagPairOk e.1 e.2 = true := by
  induction l generalizing encoded comma with
  | nil => nofun
  | cons e l ih =>
    rw [eventTagLoop, Bool.and_eq_true, Bool.and_eq_true] at h
    exact List.forall_mem_cons.mpr ⟨h.1.1, ih h.2⟩

/-- Tags that `validate_event_tags` accepts are tags of an event. -/
theorem eventTagsErrors_of_validate {tags : Items String String}
    (h : validateEventTags tags = true) : eventTagsErrors tags = [] := by
  rw [eventTagsErrors, thenErrors_eq_nil, itemErrors_eq_nil, check_eq_nil]
  refine ⟨fun e he => ?_, h⟩
  rw [validateEventTags, Bool.and_eq_true] at h
  have hok := pairOk_of_eventTagLoop h.2 e (mem_sortBy.mpr he)
  simp only [eventTagPairOk, Bool.and_eq_true, decide_eq_true_eq] at hok
  obtain ⟨⟨⟨hkey, hlen⟩, hvalue⟩, -⟩ := hok
  have hpos : 1 ≤ e.1.length := by
    by_contra hzero
    have hempty : e.1.length = 0 := by omega
    rw [String.length_eq_zero_iff.mp hempty] at hkey
    cases hkey
  rw [List.append_eq_nil_iff, eventTagKeyErrors, thenErrors_eq_nil, strErrors_eq_nil, check_eq_nil,
    tagValueErrors_eq_nil]
  exact ⟨⟨⟨hpos, hlen⟩, hkey⟩, hvalue⟩

/-- An event keeps its validity with tags that `validate_event_tags` accepts. -/
theorem EventData.errors_withTags {event : EventData} {tags : Items String String}
    (hevent : event.errors = []) (h : validateEventTags tags = true) :
    EventData.errors { event with tags } = [] := by
  have htags := eventTagsErrors_of_validate h
  simp only [EventData.errors, List.append_eq_nil_iff] at hevent ⊢
  exact ⟨⟨⟨hevent.1.1.1, htags⟩, hevent.1.2⟩, hevent.2⟩

namespace Icinga2DecisionProcessor

variable (p : Icinga2DecisionProcessor)

/-- `raise e`, unless the condition holds. -/
def require (ok : Bool) (e : IngressException) : Except IngressException Unit :=
  if ok then .ok () else .error e

theorem require_eq_ok {ok : Bool} {e : IngressException} : require ok e = .ok () ↔ ok = true := by
  cases ok <;> simp [require]

/-- The event with its effective tags: `model_copy` skips validation, `validate_event_tags` makes up
for it. -/
def effectiveEvent (event : NormalizedEvent) (tags : Items String String) :
    Except IngressException NormalizedEvent :=
  if h : validateEventTags tags = true then
    .ok ⟨{ event.val with tags }, EventData.errors_withTags event.valid h⟩
  else .error .eventTags

/-- `self._topology_enricher.enrich(event)`, when there is an enricher. -/
def enrichEvent (event : NormalizedEvent) : Except IngressException EnrichmentResult :=
  match p.topologyEnricher with
  | none => .ok ⟨event.val, []⟩
  | some config => liftError .noSuchGroup (enrich config event.val)

/-- `self._rule_engine.evaluate(event)`, or the no-op of a processor without rules. -/
def evaluateRules (event : NormalizedEvent) : Except InputError EngineDecision :=
  match p.ruleEngine with
  | some rules => evaluate rules event
  | none => NoOpDecision.ofReason "no rule engine configured"

/-- What happens to an event before the transaction. -/
def accept (event : NormalizedEvent) : Except IngressException AcceptedEvent := do
  require p.hasSessionmaker (.runtime ("audit configuration is incomplete: ingress " ++
    "sessionmaker is required for accepted events (AUD-02)"))
  let enrichment ← p.enrichEvent event
  let event ← effectiveEvent event enrichment.event.tags
  let decision ← liftError .input (p.evaluateRules event)
  return ⟨event, enrichment.diagnostics, decision⟩

end Icinga2DecisionProcessor

/-- The matched rules and the reason for doing nothing. -/
def EngineDecision.matchedRules : EngineDecision → List String
  | .ruleMatch decision => decision.val.matchedRules
  | .noOp _ => []

def EngineDecision.noopReason : EngineDecision → Option String
  | .ruleMatch _ => none
  | .noOp decision => some decision.val.reason

namespace Icinga2DecisionProcessor

variable (p : Icinga2DecisionProcessor)

/-- The manager of the event: for a problem that matched, for a recovery, or none. -/
def applyEvent (req : IngressRequest) (a : AcceptedEvent) (t : List Incident) :
    Except OpError (List Incident × Effect) :=
  match a.event.val.eventType, a.decision with
  | .problem, .ruleMatch decision => do
    let (t', result) ← applyProblem req.now req.incidentId p.configHash a.event decision t
    return (t', .problem result decision)
  | .recovery, _ => do
    let (t', result) ← resolveForEvent req.now a.event t
    return (t', .recovery result)
  | .problem, .noOp _ => .ok (t, .noop)

/-- The decision of the answer: a matched rule with the outcome of its threshold. -/
def decisionOf (a : AcceptedEvent) : Effect → Except InputError (Option Decision)
  | .problem result decision => do
    let rule ← liftError (.validation "RuleDecision") (modelValidate RuleDecisionFields.errors
      { ruleName := decision.val.ruleName
        priority := decision.val.priority
        matchedRules := decision.val.matchedRules
        groupKey := decision.val.groupKey
        thresholdDecision := result.thresholdDecision
        summary := decision.val.summary
        actions := decision.val.actions })
    return some (.rule rule)
  | _ =>
    match a.decision with
    | .ruleMatch _ => .ok none
    | .noOp decision => .ok (some (.noOp decision))

/-- `_build_audit_summary`. -/
def auditSummary (a : AcceptedEvent) : Effect → SummaryFields
  | .recovery result => buildRecoveryAuditSummary result
  | .problem result decision => buildProblemAuditSummary result decision
  | .noop => buildNoopAuditSummary a.decision.noopReason a.decision.matchedRules

/-- `insert_incident_event`: a new row with these columns. -/
def auditRow (req : IngressRequest) (a : AcceptedEvent) (effect : Effect) (eventTimestamp : Timestamptz)
    (summary : AuditDecisionSummary) (redacted : RedactedPayload) : IncidentEvent where
  id := req.eventId
  acceptedAt := req.now
  eventTimestamp := eventTimestamp
  sourceId := a.event.val.sourceId
  fingerprint := a.event.val.fingerprint
  eventType := a.event.val.eventType
  severity := a.event.val.severity
  host := a.event.val.host
  service := a.event.val.service
  incidentIds := match effect with
    | .recovery result => result.incidentIds.map uuidText
    | _ => summary.val.incidentIds
  incidentEffect := summary.val.incidentEffect
  decisionSummary := ⟨summary.val.dump, summary.val.dump_distinct⟩
  normalizedEvent := a.event.val.dump
  rawPayload := redacted.payload
  rawPayloadOriginalByteLength := redacted.originalByteLength
  rawPayloadStoredByteLength := redacted.storedByteLength
  rawPayloadTruncated := redacted.truncated
  redactionVersion := redacted.redactionVersion
  redactedPathCount := redacted.redactedPathCount
  rawPayloadHmac := redacted.payloadHmac

/-- The numbers of a row fit their `integer` columns. -/
def fitsIntegerColumns (redacted : RedactedPayload) : Bool :=
  decide (redacted.originalByteLength < int4End ∧ redacted.storedByteLength < int4End ∧
    redacted.redactedPathCount < int4End)

/-- A point at which the transaction can fail. -/
def passes (req : IngressRequest) (f : Fault) : Except IngressException Unit :=
  require (decide (req.fault ≠ some f)) (.fault f)

/-- The statements of the transaction, up to its commit. -/
def transaction (req : IngressRequest) (a : AcceptedEvent) (db : Database) :
    Except IngressException (Database × Effect × Option Decision) := do
  passes req .session
  let (incidents, effect) ← liftError .database (p.applyEvent req a db.incidents)
  passes req .statement
  let decision ← liftError .input (decisionOf a effect)
  let summary ← liftError (fun e => .input (.validation "AuditDecisionSummary" e))
    (modelValidate SummaryFields.errors (auditSummary a effect))
  let redacted ← liftError .input (redactPayload p.hmac (some req.payload.val.dump)
    p.auditRawPayloadMaxBytes p.auditRawPayloadHmacKey)
  let eventTimestamp ← orThrow (.database .overflow) a.event.val.timestamp.toTimestamptz
  require (fitsIntegerColumns redacted) (.database (.database "value out of int32 range"))
  require (decide (req.eventId ∉ db.incidentEvents.map IncidentEvent.id)) (.database .integrity)
  passes req .auditInsert
  passes req .commit
  return (⟨incidents, db.incidentEvents ++ [auditRow req a effect eventTimestamp summary redacted]⟩,
    effect, decision)

/-! ### After the commit -/

/-- The post-commit dependencies: a terminal result is recorded in a transaction of its own. -/
def submissionDeps (req : IngressRequest) : SubmissionDeps Database where
  runner := if p.hasTaskRunner then some req.accepts else none
  pluginNames := p.pluginNames
  configHash := p.configHash
  persistFails := req.persistFails
  record id pluginName result db :=
    match recordNotificationResult req.now id pluginName result db.incidents with
    | .ok (incidents, _) => { db with incidents }
    -- a recording that raises is one that fails: `persistFails` says so too
    | .error _ => db

/-- The submissions of a committed effect. -/
def submissions (req : IngressRequest) (effect : Effect) (db : Database) :
    Except (Submissions Database) (Submissions Database) :=
  match effect with
  | .problem result decision => afterCommit (p.submissionDeps req) decision result ⟨db, [], []⟩
  | _ => .ok ⟨db, [], []⟩

/-- `_incident_effects`. -/
def incidentEffects : Effect → IncidentEffectSummary
  | .problem result _ =>
    match result.effect with
    | .inserted => ⟨1, 0⟩
    | .updated => ⟨0, 1⟩
  | _ => ⟨0, 0⟩

/-- `_lifecycle_outcome`. -/
def lifecycleOutcome (result : LifecycleResult) : LifecycleOutcome where
  effect := result.effect
  reason := "source_recovery"
  previousHostCount := result.previousHostCount
  previousServiceCount := result.previousServiceCount
  affectedObjectRemoved := result.affectedObjectRemoved
  notes := [("lifecycle.reason", "source_recovery")]

/-- `_recovery_resolution`. -/
def recoveryResolution (result : LifecycleResult) : Option RecoveryResolution :=
  match result.effect with
  | .noop => some .noop
  | .affectedSetShrunk => some .affectedSetShrunk
  | .resolved => some .resolved
  | _ => none

/-- The answer to an accepted event. -/
def envelope (a : AcceptedEvent) (effect : Effect) (decision : Option Decision)
    (results : List NotificationResult) : EnvelopeFields :=
  let event := a.event.val
  let common : EnvelopeFields :=
    { stateAccepted := true
      eventId := some event.fingerprint
      fingerprint := some event.fingerprint
      sourceId := some event.sourceId
      host := some event.host
      service := event.service
      eventType := some event.eventType.value
      severity := some event.severity.value
      finalTags := event.tags
      enrichmentDiagnostics := a.diagnostics
      matchedRules := a.decision.matchedRules
      ruleDecision := decision
      groupKey := match a.decision with
        | .ruleMatch decision => some decision.val.groupKey
        | .noOp _ => none
      thresholdDecision := match decision with
        | some (.rule rule) => some rule.val.thresholdDecision
        | _ => none
      incidentEffects := incidentEffects effect
      notificationTriggered := results.any fun r => r.success
      notificationFailed := results.any fun r => !r.success
      notificationResults := results
      notificationCount := (results.filter fun r => r.success).length }
  match effect with
  | .problem result _ =>
    { common with
      incidentId := some result.incidentId
      thresholdCrossed := result.thresholdCrossed
      noDispatchReason := result.noDispatchReason.map NoDispatchReason.value }
  | .recovery result =>
    { common with
      closureCount := result.resolvedCount
      lifecycleOutcome := some (lifecycleOutcome result)
      recoveryResolution := recoveryResolution result
      affectedObjectRemoved := result.affectedObjectRemoved
      incidentId := result.incidentId }
  | .noop => common

/-- The answer to a rejected payload. -/
def rejectionEnvelope (r : Icinga2Rejection) : EnvelopeFields where
  stateAccepted := false
  sourceId := some r.val.sourceId
  host := some r.val.host
  service := r.val.service
  rejection := some r

/-- What a request leaves: the database, the submitted tasks, and the answer or the exception. -/
structure Outcome where
  database : Database
  submitted : List NotifyTask
  response : Except IngressException IngressDecisionEnvelope

/-- `IngressDecisionEnvelope(..)`. -/
def toEnvelope (fields : EnvelopeFields) : Except IngressException IngressDecisionEnvelope :=
  liftError (fun e => .input (.validation "IngressDecisionEnvelope" e))
    (modelValidate EnvelopeFields.errors fields)

/-- From the commit on: the submissions, then the answer. -/
def afterTransaction (req : IngressRequest) (a : AcceptedEvent) (effect : Effect) (decision : Option Decision)
    (db : Database) : Outcome :=
  match p.submissions req effect db with
  | .error s => ⟨s.store, s.submitted, .error (.runtime "recording a notification result failed")⟩
  | .ok s => ⟨s.store, s.submitted, toEnvelope (envelope a effect decision s.results)⟩

/-- An accepted event: all or nothing up to the commit. -/
def processEvent (req : IngressRequest) (event : NormalizedEvent) (db : Database) : Outcome :=
  match p.accept event with
  | .error e => ⟨db, [], .error e⟩
  | .ok a =>
    match p.transaction req a db with
    | .error e => ⟨db, [], .error e⟩
    | .ok (db', effect, decision) => p.afterTransaction req a effect decision db'

/-- `Icinga2DecisionProcessor.process_payload`. -/
def processPayload (req : IngressRequest) (db : Database) : Outcome :=
  match Correlia.processPayload p.sha256 req.payload with
  | .error e => ⟨db, [], .error (.input e)⟩
  | .ok (.rejection r) => ⟨db, [], toEnvelope (rejectionEnvelope r)⟩
  | .ok (.event event) => p.processEvent req event db

/-! ### What a request does -/

section

variable {p} {req : IngressRequest} {event : NormalizedEvent} {a : AcceptedEvent} {db db' : Database}
  {effect : Effect} {decision : Option Decision}

/-- The event of a request is the plugin's, but for its tags; the rules have decided on it. -/
theorem accept_eq_ok (h : p.accept event = .ok a) :
    a.event.val = { event.val with tags := a.event.val.tags } ∧
      p.evaluateRules a.event = .ok a.decision := by
  obtain ⟨_, -, h⟩ := bind_eq_ok.mp h
  obtain ⟨enrichment, -, h⟩ := bind_eq_ok.mp h
  obtain ⟨effective, heffective, h⟩ := bind_eq_ok.mp h
  obtain ⟨decision, hdecision, h⟩ := bind_eq_ok.mp h
  cases h
  refine ⟨?_, liftError_eq_ok.mp hdecision⟩
  unfold effectiveEvent at heffective
  split at heffective
  · cases heffective
    rfl
  · cases heffective

variable (p req a db db' effect decision) in
/-- What a committed transaction has done. -/
structure Committed : Prop where
  applied : p.applyEvent req a db.incidents = .ok (db'.incidents, effect)
  decided : decisionOf a effect = .ok decision
  fresh : req.eventId ∉ db.incidentEvents.map IncidentEvent.id
  audited : ∃ (summary : AuditDecisionSummary) (redacted : RedactedPayload) (ts : Timestamptz),
    summary.val = auditSummary a effect ∧
    redactPayload p.hmac (some req.payload.val.dump) p.auditRawPayloadMaxBytes
      p.auditRawPayloadHmacKey = .ok redacted ∧
    a.event.val.timestamp.toTimestamptz = some ts ∧
    db'.incidentEvents = db.incidentEvents ++ [auditRow req a effect ts summary redacted]

theorem committed_of_transaction (h : p.transaction req a db = .ok (db', effect, decision)) :
    Committed p req a db db' effect decision := by
  obtain ⟨_, -, h⟩ := bind_eq_ok.mp h
  obtain ⟨⟨incidents, eff⟩, happly, h⟩ := bind_eq_ok.mp h
  obtain ⟨_, -, h⟩ := bind_eq_ok.mp h
  obtain ⟨dec, hdec, h⟩ := bind_eq_ok.mp h
  obtain ⟨summary, hsummary, h⟩ := bind_eq_ok.mp h
  obtain ⟨redacted, hredacted, h⟩ := bind_eq_ok.mp h
  obtain ⟨ts, hts, h⟩ := bind_eq_ok.mp h
  obtain ⟨_, -, h⟩ := bind_eq_ok.mp h
  obtain ⟨_, hfresh, h⟩ := bind_eq_ok.mp h
  obtain ⟨_, -, h⟩ := bind_eq_ok.mp h
  obtain ⟨_, -, h⟩ := bind_eq_ok.mp h
  cases h
  exact ⟨liftError_eq_ok.mp happly, liftError_eq_ok.mp hdec,
    of_decide_eq_true (require_eq_ok.mp hfresh), summary, redacted, ts,
    modelValidate_eq_ok.mp (liftError_eq_ok.mp hsummary), liftError_eq_ok.mp hredacted,
    orThrow_eq_ok.mp hts, rfl⟩

/-- A request leaves everything as it was, or commits and goes on from there. -/
theorem processEvent_cases (p : Icinga2DecisionProcessor) (req : IngressRequest) (event : NormalizedEvent)
    (db : Database) : (∃ e, p.processEvent req event db = ⟨db, [], .error e⟩) ∨
      ∃ a db' effect decision, p.accept event = .ok a ∧
        p.transaction req a db = .ok (db', effect, decision) ∧
        p.processEvent req event db = p.afterTransaction req a effect decision db' := by
  unfold processEvent
  cases haccept : p.accept event with
  | error e => exact .inl ⟨e, rfl⟩
  | ok a =>
    cases htransaction : p.transaction req a db with
    | error e =>
      dsimp only
      rw [htransaction]
      exact .inl ⟨e, rfl⟩
    | ok r =>
      dsimp only
      rw [htransaction]
      exact .inr ⟨a, _, _, _, rfl, htransaction, rfl⟩

/-- What every recording of a planned delivery keeps holds from the commit on. -/
theorem afterTransaction_keeps {P : Database → Prop} (hdb : P db)
    (hrecord : ∀ id n, (id, n) ∈ effect.planned → ∀ result d t found, P d →
      recordNotificationResult req.now id n result d.incidents = .ok (t, found) →
        P { d with incidents := t }) :
    P (p.afterTransaction req a effect decision db).database := by
  have hdeps : ∀ id n, (id, n) ∈ effect.planned → ∀ result d, P d →
      P ((p.submissionDeps req).record id n result d) := by
    intro id n hplanned result d hd
    dsimp only [submissionDeps]
    split
    · exact hrecord id n hplanned result d _ _ hd ‹_›
    · exact hd
  unfold afterTransaction submissions
  cases effect with
  | problem result decision =>
    have hplan : result.notificationIntent = .dispatchPlanned → ∀ n ∈ decision.val.actions, ∀ r s,
        P s → P ((p.submissionDeps req).record result.incidentId n r s) :=
      fun hplanned n hn r s => hdeps _ n (Effect.mem_planned hplanned hn) r s
    have hends := afterCommit_keeps (p.submissionDeps req) hplan
    have hfinal := hends ⟨db, [], []⟩ hdb
    dsimp only at hfinal ⊢
    split at hfinal <;> rename_i heq <;> rw [heq] <;> exact hfinal
  | recovery result => exact hdb
  | noop => exact hdb

theorem processPayload_event (h : Correlia.processPayload p.sha256 req.payload = .ok (.event event)) :
    p.processPayload req db = p.processEvent req event db := by
  unfold processPayload
  rw [h]

theorem processEvent_committed (haccept : p.accept event = .ok a)
    (htransaction : p.transaction req a db = .ok (db', effect, decision)) :
    p.processEvent req event db = p.afterTransaction req a effect decision db' := by
  unfold processEvent
  rw [haccept]
  dsimp only
  rw [htransaction]

theorem afterTransaction_answer {answer : IngressDecisionEnvelope}
    (h : (p.afterTransaction req a effect decision db).response = .ok answer) :
    ∃ s, p.submissions req effect db = .ok s ∧
      (p.afterTransaction req a effect decision db).database = s.store ∧
      answer.val = envelope a effect decision s.results := by
  unfold afterTransaction at h ⊢
  cases hs : p.submissions req effect db with
  | error s =>
    rw [hs] at h
    cases h
  | ok s =>
    rw [hs] at h
    exact ⟨s, rfl, rfl, modelValidate_eq_ok.mp (liftError_eq_ok.mp h)⟩

/-- The answer of an accepted event is the envelope of what was committed. -/
theorem processEvent_answer {answer : IngressDecisionEnvelope}
    (h : (p.processEvent req event db).response = .ok answer) :
    ∃ a db' effect decision s, p.accept event = .ok a ∧
      Committed p req a db db' effect decision ∧ p.submissions req effect db' = .ok s ∧
      (p.processEvent req event db).database = s.store ∧
      answer.val = envelope a effect decision s.results := by
  rcases processEvent_cases p req event db with ⟨e, he⟩ | ⟨a, db', effect, decision, ha, ht, heq⟩
  · rw [he] at h
    cases h
  · rw [heq] at h ⊢
    obtain ⟨s, hs, hdb, henvelope⟩ := afterTransaction_answer h
    exact ⟨a, db', effect, decision, s, ha, committed_of_transaction ht, hs, hdb, henvelope⟩

end

end Icinga2DecisionProcessor

end Correlia
