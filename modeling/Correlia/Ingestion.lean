import Correlia.Plugins.Icinga2
import Correlia.Processing.IncidentManager
import Correlia.Processing.RuleEngine

/-!
# Ingestion — the pure stages of an accepted event (`app/processing/ingress.py`)

Normalization, rule evaluation and the upsert input of a matched problem, one after the other, and
exactly when none of them fails.
-/

namespace Correlia

open Lib

def InputError.toOpError : InputError → OpError
  | .validation model errors => .validation model errors
  | .value message => .value message

inductive IngestOutcome
  | rejected (rejection : Icinga2Rejection)
  | decided (event : NormalizedEvent) (decision : EngineDecision)
      (input : Option IncidentUpsertInput)

/-- The input `apply_problem` passes on, when a problem has matched. -/
def plannedInput (configHash : Option HexDigest) (event : NormalizedEvent) :
    EngineDecision → Except OpError (Option IncidentUpsertInput)
  | .noOp _ => .ok none
  | .ruleMatch decision =>
    if event.val.eventType = .problem then
      (problemInput (configHash.map Subtype.val) event decision).map some
    else .ok none

/-- The stages for an event the plugin has normalized. -/
def decideEvent (configHash : Option HexDigest) (rules : List CompiledRule)
    (event : NormalizedEvent) : Except OpError IngestOutcome := do
  let decision ← liftError InputError.toOpError (evaluate rules event)
  let input ← plannedInput configHash event decision
  return .decided event decision input

/-- The pure stages of `process_payload`. -/
def ingest (sha256 : String → HexDigest) (configHash : Option HexDigest)
    (config : CompiledRuleConfig) (payload : Icinga2WebhookPayload) :
    Except OpError IngestOutcome := do
  match ← liftError InputError.toOpError (processPayload sha256 payload) with
  | .rejection rejection => return .rejected rejection
  | .event event => decideEvent configHash config.rules event

/-! ### Normalization -/

section Normalization

variable {sha256 : String → HexDigest} {payload : Icinga2WebhookPayload}

/-- What the checks of an accepted payload amount to. -/
structure PayloadFields.Accepted (p : PayloadFields) : Prop where
  sourceId : 1 ≤ p.sourceId.length ∧ p.sourceId.length ≤ 256
  host : 1 ≤ p.host.length ∧ p.host.length ≤ 256
  service : ∀ s ∈ p.service, 1 ≤ s.length ∧ s.length ≤ 256
  checkOutput : 1 ≤ p.checkOutput.length
  ipAddress : ∀ s ∈ p.ipAddress, 1 ≤ s.length
  tags : eventTagsErrors p.tags = []
  state : p.state ∈ (icingaStates p.service.isNone).map Prod.fst

theorem accepted (payload : Icinga2WebhookPayload) : payload.val.Accepted := by
  have h := payload.valid
  simp only [PayloadFields.errors, thenErrors_eq_nil, List.append_eq_nil_iff, strErrors_eq_nil,
    optErrors_eq_nil, check_eq_nil, decide_eq_true_eq, PayloadFields.stateErrors] at h
  obtain ⟨⟨⟨⟨⟨⟨hsource, hhost⟩, hservice⟩, houtput⟩, hip⟩, htags⟩, hstate⟩ := h
  exact ⟨hsource, hhost, hservice, houtput, hip, htags, hstate⟩

/-- The state of an accepted payload has a meaning. -/
theorem mapIcingaState_eq_ok (payload : Icinga2WebhookPayload) :
    ∃ m, mapIcingaState payload.val.state payload.val.service.isNone = .ok m := by
  obtain ⟨e, he, hfst⟩ := List.mem_map.mp (accepted payload).state
  have hfind : ((icingaStates payload.val.service.isNone).find? fun e =>
      e.1 = payload.val.state).isSome := by
    rw [List.find?_isSome]
    exact ⟨e, he, decide_eq_true hfst⟩
  obtain ⟨e', he'⟩ := Option.isSome_iff_exists.mp hfind
  exact ⟨e'.2, orThrow_eq_ok.mpr (by rw [getItem, he']; rfl)⟩

theorem fingerprint_length (sourceId host : String) (service : Option String)
    (eventType : EventType) (severity : Severity) :
    (fingerprintIcingaEvent sha256 sourceId host service eventType severity).length = 32 := by
  rw [fingerprintIcingaEvent, takeText_length, (sha256 _).property.1]
  rfl

/-- A fingerprint is made of hexadecimal digits. -/
theorem fingerprint_chars (sourceId host : String) (service : Option String)
    (eventType : EventType) (severity : Severity) :
    ∀ c ∈ (fingerprintIcingaEvent sha256 sourceId host service eventType severity).toList,
      c ∈ hexChars := by
  intro c hc
  rw [fingerprintIcingaEvent, takeText, String.toList_ofList] at hc
  exact (sha256 _).property.2 c (List.mem_of_mem_take hc)

/-- Of the event's checks only the bound on the message is not one of the payload. -/
theorem eventData_errors (sha256 : String → HexDigest) (payload : Icinga2WebhookPayload)
    (severity : Severity) (eventType : EventType) :
    (eventData sha256 payload.val severity eventType).errors = [] ↔
      payload.val.checkOutput.length ≤ 4096 := by
  have hp := accepted payload
  simp only [EventData.errors, List.append_eq_nil_iff, check_eq_nil, decide_eq_true_eq,
    optErrors_eq_nil, strErrors_eq_nil]
  simp only [eventData, fingerprint_length, hp.tags]
  constructor
  · intro h
    exact h.1.2.2
  · intro h
    exact ⟨⟨⟨⟨⟨⟨by omega, hp.sourceId.1⟩, hp.host.1⟩, fun s hs => (hp.service s hs).1⟩, trivial⟩,
      hp.checkOutput, h⟩, hp.ipAddress⟩

theorem processPayload_hard (hard : payload.val.stateType = .hard) {out : PayloadOutcome} :
    processPayload sha256 payload = .ok out ↔
      ∃ m, mapIcingaState payload.val.state payload.val.service.isNone = .ok m ∧
        ∃ event : NormalizedEvent,
          event.val = eventData sha256 payload.val m.1 m.2 ∧ out = .event event := by
  have hsoft : payload.val.stateType ≠ .soft := by
    rw [hard]
    decide
  simp only [processPayload, if_neg hsoft]
  rw [bind_eq_ok]
  refine exists_congr fun m => and_congr_right fun _ => ?_
  rw [bind_eq_ok]
  refine exists_congr fun event => ?_
  rw [liftError_eq_ok, modelValidate_eq_ok]
  refine and_congr_right fun _ => ?_
  constructor
  · intro h
    cases h
    rfl
  · rintro rfl
    rfl

end Normalization

/-! ### Evaluation -/

section Evaluation

variable {compiled : CompiledRule} {event : EventData}

/-- Every group-by field of the rule has a value. -/
def Grouped (compiled : CompiledRule) (event : EventData) : Prop :=
  ∀ field ∈ compiled.definition.val.window.val.groupBy, (resolveField field event).isSome = true

instance : Decidable (Grouped compiled event) := inferInstanceAs (Decidable (∀ _ ∈ _, _))

/-- `field=value` of every field, when they all have a value. -/
def segmentTexts (fields : List String) (event : EventData) : List String :=
  fields.map fun field => field ++ "=" ++ (resolveField field event).getD ""

/-- The characters of `field=value` for every field, and one between two of them. -/
def keyLength (fields : List String) (event : EventData) : ℕ :=
  (fields.map fun field => field.length + 1 + ((resolveField field event).getD "").length).sum +
    (fields.length - 1)

theorem groupSegments_of_isSome {fields : List String}
    (h : ∀ field ∈ fields, (resolveField field event).isSome = true) :
    groupSegments fields event = some (segmentTexts fields event) := by
  induction fields with
  | nil => rfl
  | cons field fields ih =>
    obtain ⟨hfield, hfields⟩ := List.forall_mem_cons.mp h
    obtain ⟨value, hvalue⟩ := Option.isSome_iff_exists.mp hfield
    have := ih hfields
    rw [groupSegments] at this
    rw [groupSegments, List.mapM_cons, hvalue, this, segmentTexts, segmentTexts, List.map_cons,
      hvalue]
    rfl

theorem groupSegments_of_isNone {fields : List String}
    (h : ∃ field ∈ fields, resolveField field event = none) :
    groupSegments fields event = none := by
  induction fields with
  | nil => simp at h
  | cons field fields ih =>
    rw [groupSegments, List.mapM_cons]
    rcases (List.exists_mem_cons_iff _ _ _).mp h with hfield | hfields
    · rw [hfield]
      rfl
    · have := ih hfields
      rw [groupSegments] at this
      rw [this]
      cases resolveField field event <;> rfl

theorem buildGroupKey_eq_some (h : Grouped compiled event) :
    buildGroupKey compiled event = some ("|".intercalate
      (segmentTexts compiled.definition.val.window.val.groupBy event)) := by
  rw [buildGroupKey, groupSegments_of_isSome h]
  rfl

theorem buildGroupKey_eq_none (h : ¬Grouped compiled event) :
    buildGroupKey compiled event = none := by
  rw [buildGroupKey, groupSegments_of_isNone]
  · rfl
  · simp only [Grouped, not_forall, Bool.not_eq_true, Option.isSome_eq_false_iff,
      Option.isNone_iff_eq_none] at h
    obtain ⟨field, hfield, hnone⟩ := h
    exact ⟨field, hfield, hnone⟩

theorem groupKey_length (fields : List String) (event : EventData) :
    ("|".intercalate (segmentTexts fields event)).length = keyLength fields event := by
  rw [intercalate_length, segmentTexts, List.map_map, List.length_map, keyLength]
  congr 1
  · refine congrArg List.sum (List.map_congr_left fun field _ => ?_)
    simp only [Function.comp_apply, String.length_append]
    rfl
  · exact Nat.mul_one _

/-- A group key holds an equals sign. -/
theorem groupKey_not_blank {fields : List String} (h : fields ≠ []) (event : EventData) :
    isBlank ("|".intercalate (segmentTexts fields event)) = false := by
  obtain ⟨field, hfield⟩ := List.exists_mem_of_ne_nil fields h
  have hpart : field ++ "=" ++ (resolveField field event).getD "" ∈ segmentTexts fields event :=
    List.mem_map_of_mem hfield
  have hequals : '=' ∈ (field ++ "=" ++ (resolveField field event).getD "").toList := by simp
  exact isBlank_eq_false (mem_intercalate hpart hequals) (by decide)

/-- What the checks of a rule amount to, for the fields a match uses. -/
structure RuleFields.Sound (r : RuleFields) : Prop where
  name : 1 ≤ r.name.length ∧ r.name.length ≤ 256
  duration : 1 ≤ r.window.val.durationSeconds
  groupBy : r.window.val.groupBy ≠ []
  threshold : 1 ≤ r.window.val.triggerThreshold ∧
    r.window.val.triggerThreshold ≤ maxWindowFingerprints
  actions_le : r.actions.length ≤ 20
  actions : ∀ a ∈ r.actions, 1 ≤ a.val.plugin.length ∧ a.val.plugin.length ≤ 256

theorem rule_sound (definition : RuleDefinition) : definition.val.Sound := by
  have hrule := definition.valid
  simp only [RuleFields.errors, actionsErrors, List.append_eq_nil_iff, boundedErrors_eq_nil,
    thenErrors_eq_nil, check_eq_nil, decide_eq_true_eq, List.length_map] at hrule
  have hwindow := definition.val.window.valid
  simp only [WindowRule.errors, thresholdErrors, List.append_eq_nil_iff, thenErrors_eq_nil,
    check_eq_nil, decide_eq_true_eq] at hwindow
  obtain ⟨⟨hduration, -, hgroup⟩, hthreshold⟩ := hwindow
  refine ⟨hrule.1.1, hduration, ?_, hthreshold, hrule.2.2.1, ?_⟩
  · intro hnil
    rw [hnil, List.length_nil] at hgroup
    omega
  · intro a _
    have ha := a.valid
    simp only [ActionFields.errors, List.append_eq_nil_iff, boundedErrors_eq_nil] at ha
    exact ha.2

/-- Of a match's checks only the bounds on its key and its summary can fail. -/
theorem matchDecision_errors (definition : RuleDefinition) (event : EventData) (groupKey : String) :
    (matchDecision definition.val event groupKey).errors = [] ↔
      (1 ≤ groupKey.length ∧ groupKey.length ≤ 256) ∧
        1 ≤ (renderSummary definition.val.outputSummary event).length ∧
          (renderSummary definition.val.outputSummary event).length ≤ 256 := by
  have hrule := rule_sound definition
  simp only [MatchDecision.errors, List.append_eq_nil_iff, boundedErrors_eq_nil, itemErrors_eq_nil,
    matchDecision]
  constructor
  · intro h
    exact ⟨h.1.1.2, h.1.2⟩
  · rintro ⟨hkey, hsummary⟩
    refine ⟨⟨⟨⟨hrule.name, ?_⟩, hkey⟩, hsummary⟩, ?_⟩
    · intro b hb
      rw [List.mem_singleton] at hb
      exact hb ▸ hrule.name
    · intro b hb
      obtain ⟨a, ha, rfl⟩ := List.mem_map.mp hb
      exact hrule.actions a ha

theorem ofReason_eq_ok {reason : String} (h : 1 ≤ reason.length) :
    ∃ decision, NoOpDecision.ofReason reason = .ok (.noOp decision) := by
  have hvalid : ({ reason := reason } : NoOpFields).errors = [] := by
    simp only [NoOpFields.errors, itemErrors, List.flatMap_nil, List.nil_append, check_eq_nil,
      decide_eq_true_eq]
    exact h
  refine ⟨⟨_, hvalid⟩, ?_⟩
  rw [NoOpDecision.ofReason, modelValidate_of_valid hvalid]
  rfl

/-- A rule whose group-by fields are not all there decides nothing. -/
theorem decideRule_missing (h : ¬Grouped compiled event) :
    ∃ decision, decideRule compiled event = .ok (.noOp decision) := by
  rw [decideRule, buildGroupKey_eq_none h]
  apply ofReason_eq_ok
  rw [String.length_append]
  have : 1 ≤ "missing required group-by field: ".length := by decide
  omega

/-- A rule whose group-by fields are all there decides on the match, if that passes its checks. -/
theorem decideRule_grouped (h : Grouped compiled event) {d : EngineDecision} :
    decideRule compiled event = .ok d ↔ ∃ m : RuleMatch,
      m.val = matchDecision compiled.definition.val event ("|".intercalate
        (segmentTexts compiled.definition.val.window.val.groupBy event)) ∧ d = .ruleMatch m := by
  rw [decideRule, buildGroupKey_eq_some h]
  show (_ >>= _) = _ ↔ _
  rw [bind_eq_ok]
  refine exists_congr fun m => ?_
  rw [liftError_eq_ok, modelValidate_eq_ok]
  refine and_congr_right fun _ => ?_
  constructor
  · intro hd
    cases hd
    rfl
  · rintro rfl
    rfl

end Evaluation

/-! ### The upsert input -/

section UpsertInput

variable {event : NormalizedEvent} {decision : RuleMatch}

theorem dispatchNotes_errors (event : NormalizedEvent) :
    notesErrors (dispatchNotes event none) = [] := by
  have htype : NoteOk "event.type" event.val.eventType.value := by
    cases event.val.eventType <;> decide
  have hseverity : NoteOk "event.severity" event.val.severity.value := by
    cases event.val.severity <;> decide
  refine notesErrors_eq_nil.mpr ⟨fun e he => ?_, ?_⟩
  · rcases Dict.mem_insert.mp he with rfl | ⟨he, -⟩
    · exact hseverity
    · rcases Dict.mem_insert.mp he with rfl | ⟨he, -⟩
      · exact htype
      · cases he
  · have h₁ := Dict.size_insert_le Dict.empty (JsonKey.mk "event.type") event.val.eventType.value
    have h₂ := Dict.size_insert_le (Dict.empty.insert (JsonKey.mk "event.type")
      event.val.eventType.value) ⟨"event.severity"⟩ event.val.severity.value
    have h₀ : (Dict.empty : Dict JsonKey String).size = 0 := rfl
    show Dict.size (Dict.insert _ _ _) ≤ 20
    omega

/-- The fields of the context of a match that has not been written yet. -/
def preliminaryFields (configHash : Option HexDigest) (event : EventData) (decision : MatchDecision)
    (notes : Dict JsonKey String) : ContextFields where
  fingerprint := some event.fingerprint
  sourceId := some event.sourceId
  ruleName := some decision.ruleName
  groupKey := some decision.groupKey
  matchedRuleNames := decision.matchedRules
  enrichmentRefs := []
  eventCount := none
  configHash := configHash.map Subtype.val
  notes := notes
  thresholdCount := some decision.window.val.triggerThreshold.toNat
  countedCount := none
  thresholdCrossed := none
  firstThresholdTransition := none
  replay := none
  actionNames := decision.actions
  notificationDeliveryResults := []

theorem decisionContext_preliminary (configHash : Option HexDigest) :
    decisionContext (configHash.map Subtype.val) event decision none none =
      liftError (.validation "DecisionContext") (modelValidate ContextFields.errors
        (preliminaryFields configHash event.val decision.val (dispatchNotes event none))) := by
  simp only [decisionContext, Option.map_none, Option.getD_none, ok_bind, preliminaryFields]

/-- The preliminary context of a match on a normalized payload passes its checks. -/
theorem preliminaryFields_sound {sha256 : String → HexDigest} {payload : Icinga2WebhookPayload}
    {severity : Severity} {eventType : EventType} {definition : RuleDefinition} {groupKey : String}
    (hevent : event.val = eventData sha256 payload.val severity eventType)
    (hdecision : decision.val = matchDecision definition.val event.val groupKey)
    (configHash : Option HexDigest) :
    (preliminaryFields configHash event.val decision.val (dispatchNotes event none)).Sound := by
  have hp := accepted payload
  have hrule := rule_sound definition
  have hmatch := decision.valid
  rw [hdecision] at hmatch
  obtain ⟨hkey, -⟩ := (matchDecision_errors definition event.val groupKey).mp hmatch
  have hnotes := dispatchNotes_errors event
  have hfingerprint : event.val.fingerprint.length = 32 := by
    rw [hevent]
    exact fingerprint_length _ _ _ _ _
  have hsource : event.val.sourceId = payload.val.sourceId := by rw [hevent]; rfl
  rw [hdecision]
  constructor
  · rintro s ⟨⟩
    exact ⟨by omega, by omega⟩
  · rintro s ⟨⟩
    rw [hsource]
    exact hp.sourceId
  · rintro s ⟨⟩
    exact hrule.name
  · rintro s ⟨⟩
    exact hkey
  · refine ⟨Nat.le_of_ble_eq_true rfl, fun s hs => ?_⟩
    obtain rfl := List.mem_singleton.mp hs
    exact hrule.name
  · exact ⟨Nat.zero_le _, fun s hs => by cases hs⟩
  · intro s hs
    obtain ⟨digest, -, rfl⟩ := Option.mem_map.mp hs
    have := digest.property.1
    omega
  · exact hnotes
  · rintro n ⟨⟩
    have := hrule.threshold.1
    show 1 ≤ definition.val.window.val.triggerThreshold.toNat
    omega
  · refine ⟨?_, fun s hs => ?_⟩
    · show (definition.val.actions.map _).length ≤ 20
      rw [List.length_map]
      exact hrule.actions_le
    · obtain ⟨a, ha, rfl⟩ := List.mem_map.mp hs
      exact hrule.actions a ha
  · rfl

/-- What a matched rule needs so that neither the match nor the upsert input is refused. -/
structure RuleFits (compiled : CompiledRule) (event : EventData) : Prop where
  key_length : keyLength compiled.definition.val.window.val.groupBy event ≤ 256
  summary_length : (renderSummary compiled.definition.val.outputSummary event).length ≤ 256
  summary : isBlank (renderSummary compiled.definition.val.outputSummary event) = false
  name : isBlank compiled.definition.val.name = false
  host : isBlank event.host = false
  service : ∀ s ∈ event.service, isBlank s = false

/-- The upsert input of a match on a normalized payload is refused for a blank text only. -/
theorem problemInput_ok_iff {sha256 : String → HexDigest} {payload : Icinga2WebhookPayload}
    {severity : Severity} {eventType : EventType} {definition : RuleDefinition}
    (hevent : event.val = eventData sha256 payload.val severity eventType)
    (hdecision : decision.val = matchDecision definition.val event.val ("|".intercalate
      (segmentTexts definition.val.window.val.groupBy event.val)))
    (configHash : Option HexDigest) :
    (∃ i, problemInput (configHash.map Subtype.val) event decision = .ok i) ↔
      isBlank definition.val.name = false ∧
        isBlank (renderSummary definition.val.outputSummary event.val) = false ∧
          isBlank event.val.host = false ∧ ∀ s ∈ event.val.service, isBlank s = false := by
  have hpreliminary : decisionContext (configHash.map Subtype.val) event decision none none =
      .ok ⟨_, ContextFields.errors_eq_nil.mpr
        (preliminaryFields_sound hevent hdecision configHash)⟩ := by
    rw [decisionContext_preliminary, liftError_eq_ok]
    exact modelValidate_of_valid _
  simp only [problemInput, hpreliminary, ok_bind, liftError_eq_ok, UpsertArgs.postInit_eq_ok]
  have hrule := rule_sound definition
  constructor
  · rintro ⟨i, h, -⟩
    have hname := h.ruleName
    have hsummary := h.summary
    simp only [upsertArgs, hdecision, matchDecision] at hname hsummary
    exact ⟨hname, hsummary, h.hosts _ (List.mem_singleton_self _),
      fun s hs => h.services s (Option.mem_toList.mpr hs)⟩
  · rintro ⟨hname, hsummary, hhost, hservice⟩
    refine ⟨_, ?_, rfl⟩
    constructor
    · simpa only [upsertArgs, hdecision, matchDecision] using hname
    · simp only [upsertArgs, hdecision, matchDecision]
      exact groupKey_not_blank hrule.groupBy _
    · simpa only [upsertArgs, hdecision, matchDecision] using hsummary
    · simp only [upsertArgs, hdecision, matchDecision]
      exact hrule.threshold.1
    · simp only [upsertArgs, hdecision, matchDecision]
      exact hrule.duration
    · exact le_refl _
    · simp only [upsertArgs, hdecision, matchDecision]
      exact hrule.threshold.2
    · exact List.cons_ne_nil _ _
    · intro h hh
      obtain rfl := List.mem_singleton.mp hh
      exact hhost
    · intro s hs
      exact hservice s (Option.mem_toList.mp hs)
    · -- a fingerprint has 32 hexadecimal digits, none of them a space
      show isBlank event.val.fingerprint = false
      have hlength : event.val.fingerprint.length = 32 := by
        rw [hevent]
        exact fingerprint_length _ _ _ _ _
      have hne : event.val.fingerprint.toList ≠ [] := by
        intro hnil
        rw [← String.length_toList, hnil, List.length_nil] at hlength
        omega
      obtain ⟨c, hc⟩ := List.exists_mem_of_ne_nil _ hne
      have hhex : c ∈ hexChars := by
        rw [hevent] at hc
        exact fingerprint_chars _ _ _ _ _ c hc
      exact isBlank_eq_false hc (hexChars_not_space c hhex)

end UpsertInput

/-! ### The stages together -/

section Stages

variable {sha256 : String → HexDigest} {payload : Icinga2WebhookPayload} {severity : Severity}

/-- Behind a match whose fields are all there, the stages complete when the rule fits. -/
theorem decideRule_then_plan {compiled : CompiledRule} {event : NormalizedEvent}
    (hevent : event.val = eventData sha256 payload.val severity .problem)
    (hgrouped : Grouped compiled event.val) (configHash : Option HexDigest) :
    (∃ d, decideRule compiled event.val = .ok d ∧ ∃ i, plannedInput configHash event d = .ok i) ↔
      RuleFits compiled event.val := by
  have htype : event.val.eventType = .problem := by rw [hevent]; rfl
  have hplan : ∀ m : RuleMatch, (∃ i, plannedInput configHash event (.ruleMatch m) = .ok i) ↔
      ∃ i, problemInput (configHash.map Subtype.val) event m = .ok i := by
    intro m
    simp only [plannedInput, if_pos htype]
    cases problemInput (configHash.map Subtype.val) event m <;> simp [Except.map]
  have hkey : isBlank ("|".intercalate
      (segmentTexts compiled.definition.val.window.val.groupBy event.val)) = false :=
    groupKey_not_blank (rule_sound compiled.definition).groupBy _
  constructor
  · rintro ⟨d, hd, hi⟩
    obtain ⟨m, hm, rfl⟩ := (decideRule_grouped hgrouped).mp hd
    have hvalid := m.valid
    rw [hm] at hvalid
    obtain ⟨⟨-, hlength⟩, -, hsummary⟩ := (matchDecision_errors _ _ _).mp hvalid
    obtain ⟨h1, h2, h3, h4⟩ := (problemInput_ok_iff hevent hm configHash).mp ((hplan m).mp hi)
    rw [groupKey_length] at hlength
    exact ⟨hlength, hsummary, h2, h1, h3, h4⟩
  · intro h
    have hvalid := (matchDecision_errors compiled.definition event.val _).mpr
      ⟨⟨length_pos_of_not_blank hkey, (groupKey_length _ _).trans_le h.key_length⟩,
        length_pos_of_not_blank h.summary, h.summary_length⟩
    obtain ⟨m, hm⟩ : ∃ m : RuleMatch, m.val = matchDecision compiled.definition.val event.val
        ("|".intercalate (segmentTexts compiled.definition.val.window.val.groupBy event.val)) :=
      ⟨⟨_, hvalid⟩, rfl⟩
    refine ⟨.ruleMatch m, (decideRule_grouped hgrouped).mpr ⟨m, hm, rfl⟩, (hplan m).mpr ?_⟩
    exact (problemInput_ok_iff hevent hm configHash).mpr ⟨h.name, h.summary, h.host, h.service⟩

/-- The payloads that pass every stage: the check output fits a message, and where a rule matches
the problem and its group-by fields are all there, the rule fits. -/
structure Fits (sha256 : String → HexDigest) (rules : List CompiledRule) (p : PayloadFields) :
    Prop where
  message : p.checkOutput.length ≤ 4096
  rule : ∀ severity, mapIcingaState p.state p.service.isNone = .ok (severity, .problem) →
    ∀ compiled, firstMatch rules (eventData sha256 p severity .problem) = some compiled →
      Grouped compiled (eventData sha256 p severity .problem) →
        RuleFits compiled (eventData sha256 p severity .problem)

theorem decideEvent_ok_iff {config : CompiledRuleConfig} {event : NormalizedEvent}
    {configHash : Option HexDigest} :
    (∃ out, decideEvent configHash config.rules event = .ok out) ↔
      ∃ d, evaluate config.rules event = .ok d ∧ ∃ i, plannedInput configHash event d = .ok i := by
  simp only [decideEvent, bind_eq_ok, liftError_eq_ok]
  constructor
  · rintro ⟨_, d, hd, i, hi, -⟩
    exact ⟨d, hd, i, hi⟩
  · rintro ⟨d, hd, i, hi⟩
    exact ⟨_, d, hd, i, hi, rfl⟩

theorem evaluate_ok_iff {config : CompiledRuleConfig} {event : NormalizedEvent}
    {eventType : EventType} (hevent : event.val = eventData sha256 payload.val severity eventType)
    (configHash : Option HexDigest) :
    (∃ out, decideEvent configHash config.rules event = .ok out) ↔
      (eventType = .problem → ∀ compiled, firstMatch config.rules event.val = some compiled →
        Grouped compiled event.val → RuleFits compiled event.val) := by
  have htype : event.val.eventType = eventType := by rw [hevent]; rfl
  have hnoOp : ∀ reason : String, 1 ≤ reason.length →
      ∃ d, NoOpDecision.ofReason reason = .ok d ∧ ∃ i, plannedInput configHash event d = .ok i := by
    intro reason hreason
    obtain ⟨decision, hdecision⟩ := ofReason_eq_ok hreason
    exact ⟨_, hdecision, none, rfl⟩
  rw [decideEvent_ok_iff, evaluate, htype]
  cases eventType with
  | recovery =>
    rw [if_pos rfl]
    exact ⟨fun _ h => (by cases h), fun _ => hnoOp _ (by decide)⟩
  | problem =>
    have hne : EventType.problem ≠ .recovery := by decide
    rw [if_neg hne]
    cases hmatch : firstMatch config.rules event.val with
    | none => exact ⟨fun _ _ _ h => (by cases h), fun _ => hnoOp _ (by decide)⟩
    | some compiled =>
      by_cases hgrouped : Grouped compiled event.val
      · rw [decideRule_then_plan hevent hgrouped]
        constructor
        · rintro h _ c hc -
          cases hc
          exact h
        · intro h
          exact h rfl compiled rfl hgrouped
      · constructor
        · rintro - _ c hc hg
          cases hc
          exact absurd hg hgrouped
        · intro _
          obtain ⟨decision, hdecision⟩ := decideRule_missing hgrouped
          exact ⟨_, hdecision, none, rfl⟩

end Stages

/-- The pure stages complete for an accepted HARD payload exactly when it fits. -/
theorem ingest_ok_iff (sha256 : String → HexDigest) (configHash : Option HexDigest)
    (config : CompiledRuleConfig) (payload : Icinga2WebhookPayload)
    (hard : payload.val.stateType = .hard) :
    (∃ out, ingest sha256 configHash config payload = .ok out) ↔
      Fits sha256 config.rules payload.val := by
  obtain ⟨⟨severity, eventType⟩, hstate⟩ := mapIcingaState_eq_ok payload
  have hingest : (∃ out, ingest sha256 configHash config payload = .ok out) ↔
      ∃ event : NormalizedEvent, event.val = eventData sha256 payload.val severity eventType ∧
        ∃ out, decideEvent configHash config.rules event = .ok out := by
    simp only [ingest, bind_eq_ok, liftError_eq_ok, processPayload_hard hard]
    constructor
    · rintro ⟨out, _, ⟨m, hm, event, hevent, rfl⟩, hout⟩
      rw [hstate] at hm
      cases hm
      exact ⟨event, hevent, out, hout⟩
    · rintro ⟨event, hevent, out, hout⟩
      exact ⟨out, _, ⟨_, hstate, event, hevent, rfl⟩, hout⟩
  rw [hingest]
  constructor
  · rintro ⟨event, hevent, hout⟩
    have hfits := (evaluate_ok_iff hevent configHash).mp hout
    refine ⟨?_, fun severity' hstate' compiled hmatch hgrouped => ?_⟩
    · exact (eventData_errors _ _ _ _).mp (hevent ▸ event.valid)
    · rw [hstate] at hstate'
      cases hstate'
      rw [← hevent] at hmatch hgrouped ⊢
      exact hfits rfl compiled hmatch hgrouped
  · intro h
    have hvalid := (eventData_errors sha256 payload severity eventType).mpr h.message
    refine ⟨⟨_, hvalid⟩, rfl, (evaluate_ok_iff rfl configHash).mpr ?_⟩
    rintro rfl compiled hmatch hgrouped
    exact h.rule severity hstate compiled hmatch hgrouped

/-! ### A rules file and its payloads -/

/-- The rules file of one rule, which groups by host. -/
def sampleRules : List RuleDefinitionConfig :=
  [{ name := "outage", priority := 1
     «match» := { severities := ["CRITICAL"], hostPattern := ".*", servicePattern := none }
     window := ⟨300, ["host"], 2⟩
     outputSummary := "Trouble on \x7bhost\x7d"
     actions := [⟨"create_incident", "mail"⟩] }]

/-- `re.compile`, as far as the sample rules use it: `.*` matches in front of every text. -/
def sampleCompiler : RegexCompiler := fun pattern =>
  if pattern = ".*" then some fun _ => true else none

/-- The digest of the dumped sample rules. -/
def sampleConfigHash : HexDigest :=
  HexDigest.ofNat 0x5588fad86699b01b66b64a3fe1f873882d91bfd498e8f04ef120ee1e8903259d

def sampleCompiledRule : CompiledRule where
  definition :=
    ⟨{ name := "outage", priority := 1
       «match» := ⟨⟨[.critical], ".*", none, ⟨[], List.nodup_nil⟩⟩, by decide⟩
       window := ⟨⟨300, ["host"], 2⟩, by decide⟩
       outputSummary := "Trouble on \x7bhost\x7d"
       actions := [⟨⟨"create_incident", "mail"⟩, by decide⟩] }, by decide⟩
  hostPattern := fun _ => true
  servicePattern := none

def sampleConfig : CompiledRuleConfig := ⟨[sampleCompiledRule], sampleConfigHash⟩

theorem sampleConfig_loaded :
    loadRulesConfig sampleCompiler sampleConfigHash ["create_incident"] [] (some sampleRules) =
      .ok sampleConfig := rfl

theorem sampleNoon_lt : 63902865600 * usPerSecond < datetimeEnd := by decide

/-- Noon of 1 January 2026. -/
def sampleNoon : Datetime := ⟨63902865600 * usPerSecond, 0, sampleNoon_lt, utc_gt, utc_lt⟩

/-- The digest of `mon|web-1|PROBLEM|CRITICAL|http`, which is all the samples hash. -/
def sampleSha256 : String → HexDigest := fun _ =>
  HexDigest.ofNat 0xebf264b4a97e47e979120796e8d0b9f8451a0206eadae6b0debf82ab74f097e5

/-- A critical service check with this output. -/
def sampleFields (checkOutput : String) : PayloadFields where
  sourceId := "mon"
  host := "web-1"
  service := some "http"
  state := "CRITICAL"
  stateType := .hard
  timestamp := sampleNoon
  checkOutput := checkOutput
  ipAddress := none
  tags := ⟨[], List.nodup_nil⟩

theorem sampleFields_errors {checkOutput : String} (h : 1 ≤ checkOutput.length) :
    (sampleFields checkOutput).errors = [] := by
  have hsource : 1 ≤ "mon".length ∧ "mon".length ≤ 256 := by decide
  have hhost : 1 ≤ "web-1".length ∧ "web-1".length ≤ 256 := by decide
  have hservice : 1 ≤ "http".length ∧ "http".length ≤ 256 := by decide
  have htags : eventTagsErrors ⟨[], List.nodup_nil⟩ = [] := by decide
  have hcritical : "CRITICAL" ∈ (icingaStates false).map Prod.fst := by decide
  have hstate : (sampleFields checkOutput).stateErrors = [] :=
    check_eq_nil.mpr (decide_eq_true hcritical)
  simp only [PayloadFields.errors, thenErrors_eq_nil, List.append_eq_nil_iff, strErrors_eq_nil,
    optErrors_eq_nil, check_eq_nil, decide_eq_true_eq]
  refine ⟨⟨⟨⟨⟨⟨hsource, hhost⟩, ?_⟩, h⟩, ?_⟩, htags⟩, hstate⟩
  · rintro s ⟨⟩
    exact hservice
  · rintro s ⟨⟩

def samplePayload (checkOutput : String) (h : 1 ≤ checkOutput.length) : Icinga2WebhookPayload :=
  ⟨sampleFields checkOutput, sampleFields_errors h⟩

/-- A check output of 4097 characters, with a rules file that loads. -/
theorem longOutput_refused :
    loadRulesConfig sampleCompiler sampleConfigHash ["create_incident"] [] (some sampleRules) =
        .ok sampleConfig ∧
      ∃ payload : Icinga2WebhookPayload, payload.val.stateType = .hard ∧
        payload.val.checkOutput = String.ofList (List.replicate 4097 'x') ∧
        ¬∃ out, ingest sampleSha256 (some sampleConfigHash) sampleConfig payload = .ok out := by
  have hlength : (String.ofList (List.replicate 4097 'x')).length = 4097 := by
    rw [String.length_ofList, List.length_replicate]
  refine ⟨sampleConfig_loaded, samplePayload _ (hlength.symm ▸ by omega), rfl, rfl, ?_⟩
  rintro ⟨out, hout⟩
  obtain ⟨_, hpayload, -⟩ := bind_eq_ok.mp hout
  obtain ⟨m, -, event, hevent, -⟩ := (processPayload_hard rfl).mp (liftError_eq_ok.mp hpayload)
  have hmessage := (eventData_errors _ _ _ _).mp (hevent ▸ event.valid)
  rw [show (samplePayload _ _).val.checkOutput.length = 4097 from hlength] at hmessage
  omega

theorem ingest_ok_iff_sample :
    (samplePayload "timeout" (by decide)).val.stateType = .hard ∧
      ∃ out, ingest sampleSha256 (some sampleConfigHash) sampleConfig
        (samplePayload "timeout" (by decide)) = .ok out := by
  refine ⟨rfl, (ingest_ok_iff _ _ _ _ rfl).mpr ⟨by decide, ?_⟩⟩
  rintro severity hstate compiled hmatch -
  obtain rfl : Severity.critical = severity := by cases hstate; rfl
  obtain rfl : sampleCompiledRule = compiled := Option.some.inj hmatch
  exact ⟨by decide, by decide, by decide, by decide, by decide, by decide⟩

end Correlia
