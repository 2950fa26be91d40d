import Correlia.Effects
import Correlia.Invariant
import Correlia.Processing.Ingress

/-!
# Closures — what a recovery event resolves, and what its answer counts

Every targeted incident is resolved or shrunk, and the results are folded into one effect; the
answer counts that effect, so it counts one at most.
-/

namespace Correlia

open Lib

/-! ### The results of a recovery -/

/-- The members a recovery event covers. -/
def recovers (event : EventData) : IncidentObject → Bool :=
  match event.service with
  | some service => coversService event.host service
  | none => coversHost event.host

/-- The notes of a recovery event. -/
def recoveryNotes (event : NormalizedEvent) : LifecycleArgs :=
  (recoveryArgs event).lifecycleArgs event.val.service

section

variable {now : Timestamptz} {covered : IncidentObject → Bool} {a : LifecycleArgs}
  {t t' : List Incident} {event : NormalizedEvent}

theorem recoveryWrites_eq (ht : (t.map Incident.id).Nodup) (now : Timestamptz)
    (event : NormalizedEvent) :
    recoveryWrites now event t = recoverAll now (recovers event.val) (recoveryNotes event) t := by
  unfold recoveryWrites recovers recoveryNotes
  cases event.val.service with
  | some service => exact resolveServiceRecovery_eq ht now (recoveryArgs event) service
  | none => exact resolveHostRecovery_eq ht now (recoveryArgs event)

/-- The effect of one targeted incident. -/
def recoveryEffect (covered : IncidentObject → Bool) (r : Incident) : LifecycleEffect :=
  if remainingObjects covered r = [] then .resolved else .affectedSetShrunk

/-- A recovery answers one result a target: its id, and its effect. -/
theorem recoverAll_results {writes : List LifecycleWriteResult}
    (h : recoverAll now covered a t = .ok (t', writes)) :
    List.Forall₂ (fun r w => w.incident.id = r.id ∧ w.effect = recoveryEffect covered r)
      (recoveryTargets covered t) writes := by
  unfold recoverAll at h
  cases hm : (recoveryTargets covered t).mapM (recoverRow now covered a) with
  | error e =>
    rw [hm] at h
    cases h
  | ok ps =>
    rw [hm] at h
    cases h
    show List.Forall₂ _ _ (ps.filterMap Prod.snd)
    have hps := mapM_eq_ok.mp hm
    clear hm
    generalize recoveryTargets covered t = targets at hps
    induction hps with
    | nil => exact List.Forall₂.nil
    | @cons r p rs ps hp _ ih =>
      obtain ⟨context, -, rfl⟩ := recoverRow_eq_ok.mp hp
      refine List.Forall₂.cons ⟨?_, ?_⟩ ih
      · unfold recoveredResult
        split_ifs <;> exact recoveredIncident_id _ _ _ _
      · unfold recoveredResult recoveryEffect
        split_ifs <;> rfl

/-- The effect of a recovery: nothing targeted, something resolved, or all shrunk. -/
def totalEffect (covered : IncidentObject → Bool) (targets : List Incident) : LifecycleEffect :=
  if targets = [] then .noop
  else if ∃ r ∈ targets, remainingObjects covered r = [] then .resolved
  else .affectedSetShrunk

theorem resultFromWrites_spec {targets : List Incident} {writes : List LifecycleWriteResult}
    (h : List.Forall₂ (fun r w => w.incident.id = r.id ∧ w.effect = recoveryEffect covered r)
      targets writes) :
    (resultFromWrites writes).incidentIds = targets.map Incident.id ∧
      (resultFromWrites writes).effect = totalEffect covered targets := by
  have hids : writes.map (fun w => w.incident.id) = targets.map Incident.id := by
    induction h with
    | nil => rfl
    | cons hw _ ih => rw [List.map_cons, List.map_cons, hw.1, ih]
  have heffect : ∀ w ∈ writes, ∃ r ∈ targets, w.effect = recoveryEffect covered r := fun w hw => by
    obtain ⟨r, hr, -, he⟩ := exists_of_forall₂_right h hw
    exact ⟨r, hr, he⟩
  have hresolved : (∃ w ∈ writes, w.effect = .resolved) ↔
      ∃ r ∈ targets, remainingObjects covered r = [] := by
    constructor
    · rintro ⟨w, hw, he⟩
      obtain ⟨r, hr, hre⟩ := heffect w hw
      refine ⟨r, hr, ?_⟩
      by_contra hne
      rw [hre, recoveryEffect, if_neg hne] at he
      cases he
    · rintro ⟨r, hr, he⟩
      obtain ⟨w, hw, -, hwe⟩ := exists_of_forall₂_left h hr
      exact ⟨w, hw, by rw [hwe, recoveryEffect, if_pos he]⟩
  cases writes with
  | nil =>
    rw [List.forall₂_nil_right_iff.mp h]
    exact ⟨rfl, rfl⟩
  | cons first rest =>
    have hne : targets ≠ [] := by
      rintro rfl
      cases h
    refine ⟨hids, ?_⟩
    rw [totalEffect, if_neg hne]
    unfold resultFromWrites
    dsimp only
    cases hf : (first :: rest).filter fun w => decide (w.effect = .resolved) with
    | cons w ws =>
      have hw : w ∈ (first :: rest).filter fun w => decide (w.effect = .resolved) := by
        rw [hf]
        exact List.mem_cons_self
      obtain ⟨hmem, he⟩ := List.mem_filter.mp hw
      rw [if_pos (hresolved.mp ⟨w, hmem, of_decide_eq_true he⟩)]
    | nil =>
      have hnone : ∀ w ∈ first :: rest, w.effect ≠ .resolved := by
        simpa using List.filter_eq_nil_iff.mp hf
      have hshrunk : ∀ w ∈ first :: rest, w.effect = .affectedSetShrunk := by
        intro w hw
        obtain ⟨r, -, hre⟩ := heffect w hw
        rw [hre, recoveryEffect, if_neg]
        intro hnil
        exact hnone w hw (by rw [hre, recoveryEffect, if_pos hnil])
      have hfirst : first ∈ (first :: rest).filter fun w => decide (w.effect = .affectedSetShrunk) :=
        List.mem_filter.mpr ⟨List.mem_cons_self,
          decide_eq_true (hshrunk first List.mem_cons_self)⟩
      have hno : ¬ ∃ r ∈ targets, remainingObjects covered r = [] := by
        rw [← hresolved]
        exact fun ⟨w, hw, he⟩ => hnone w hw he
      rw [if_neg hno, if_pos (List.ne_nil_of_mem hfirst)]

/-- What a committed recovery event has done. -/
structure Recovered (now : Timestamptz) (event : NormalizedEvent) (t t' : List Incident)
    (result : LifecycleResult) : Prop where
  rows : List.Forall₂ (RecoveryRow now (recovers event.val) (recoveryNotes event)) t t'
  ids : result.incidentIds = (recoveryTargets (recovers event.val) t).map Incident.id
  effect : result.effect =
    totalEffect (recovers event.val) (recoveryTargets (recovers event.val) t)

theorem resolveForEvent_recovered (ht : (t.map Incident.id).Nodup) {result : LifecycleResult}
    (h : resolveForEvent now event t = .ok (t', result)) : Recovered now event t t' result := by
  unfold resolveForEvent at h
  split at h
  · cases h
  · obtain ⟨⟨t'', writes⟩, hwrites, h⟩ := bind_eq_ok.mp h
    cases h
    rw [recoveryWrites_eq ht] at hwrites
    obtain ⟨hids, heffect⟩ := resultFromWrites_spec (recoverAll_results hwrites)
    exact ⟨recoverAll_rows ht hwrites, hids, heffect⟩

end

/-! ### What is resolved -/

/-- The incidents that are open before and resolved after. -/
def resolvedBetween (t t' : List Incident) : List Incident :=
  t.filter fun r => r.isOpen && t'.any fun r' => decide (r'.id = r.id ∧ r'.status = .resolved)

/-- The open incidents with members, all of which the event recovers. -/
def emptiedBy (event : EventData) (t : List Incident) : List Incident :=
  t.filter fun r => r.isOpen && decide (r.windowState.val.activeObjects ≠ []) &&
    r.windowState.val.activeObjects.all (recovers event)

section

variable {now : Timestamptz} {covered : IncidentObject → Bool} {a : LifecycleArgs}
  {t t' : List Incident} {event : NormalizedEvent}

/-- A targeted incident that keeps no member. -/
theorem emptied_iff {event : EventData} {r : Incident} :
    (r.isOpen && decide (r.windowState.val.activeObjects ≠ []) &&
        r.windowState.val.activeObjects.all (recovers event)) = true ↔
      (r.status = .«open» ∧ touches (recovers event) r = true) ∧
        remainingObjects (recovers event) r = [] := by
  rw [remainingObjects, List.filter_eq_nil_iff, touches_iff]
  simp only [Bool.and_eq_true, decide_eq_true_eq, Incident.isOpen_iff, List.all_eq_true,
    Bool.not_eq_true', Bool.not_eq_false, and_assoc]
  refine and_congr_right' ?_
  constructor
  · rintro ⟨hne, hall⟩
    obtain ⟨o, ho⟩ := List.exists_mem_of_ne_nil _ hne
    exact ⟨⟨o, ho, hall o ho⟩, hall⟩
  · rintro ⟨⟨o, ho, -⟩, hall⟩
    exact ⟨List.ne_nil_of_mem ho, hall⟩

theorem mem_emptiedBy {event : EventData} {r : Incident} : r ∈ emptiedBy event t ↔
    r ∈ recoveryTargets (recovers event) t ∧ remainingObjects (recovers event) r = [] := by
  rw [emptiedBy, List.mem_filter, emptied_iff, mem_recoveryTargets]
  simp only [and_assoc]

/-- The rows that become resolved are the targets that keep no member. -/
theorem resolvedBetween_eq (ht : (t.map Incident.id).Nodup)
    (h : List.Forall₂ (RecoveryRow now (recovers event.val) a) t t') :
    resolvedBetween t t' = emptiedBy event.val t := by
  have hkeep : ∀ r r', RecoveryRow now (recovers event.val) a r r' → r'.id = r.id := by
    rintro r r' (⟨-, context, -, rfl⟩ | ⟨-, rfl⟩)
    · exact recoveredIncident_id _ _ _ _
    · rfl
  have ht' : (t'.map Incident.id).Nodup := by rwa [map_key_of_forall₂ hkeep h]
  refine List.filter_congr fun r hr => ?_
  obtain ⟨r', hr', hrow⟩ := exists_of_forall₂_left h hr
  have hstatus : (t'.any fun s => decide (s.id = r.id ∧ s.status = .resolved)) = true ↔
      r'.status = .resolved := by
    rw [List.any_eq_true]
    constructor
    · rintro ⟨s, hs, hdec⟩
      obtain ⟨hid, hres⟩ := of_decide_eq_true hdec
      rwa [← eq_of_key ht' hs hr' (hid.trans (hkeep r r' hrow).symm)]
    · exact fun hres => ⟨r', hr', decide_eq_true ⟨hkeep r r' hrow, hres⟩⟩
  rw [Bool.eq_iff_iff, emptied_iff, Bool.and_eq_true, hstatus, Incident.isOpen_iff]
  rcases hrow with ⟨htarget, context, -, rfl⟩ | ⟨hnot, rfl⟩
  · unfold recoveredIncident
    split_ifs with hnil
    · exact ⟨fun _ => ⟨htarget, hnil⟩, fun _ => ⟨htarget.1, rfl⟩⟩
    · have hopen : r.status ≠ .resolved := by
        rw [htarget.1]
        decide
      exact ⟨fun hres => absurd hres.2 hopen, fun hemptied => absurd hemptied.2 hnil⟩
  · constructor
    · rintro ⟨hopen, hres⟩
      rw [hopen] at hres
      cases hres
    · exact fun hemptied => absurd hemptied.1 hnot

/-- The count is one as soon as some target keeps no member. -/
theorem Recovered.resolvedCount {result : LifecycleResult} (h : Recovered now event t t' result) :
    result.resolvedCount = min 1 (emptiedBy event.val t).length := by
  rw [LifecycleResult.resolvedCount, h.effect, totalEffect]
  by_cases hempty : emptiedBy event.val t = []
  · have hnone : ¬ ∃ r ∈ recoveryTargets (recovers event.val) t,
        remainingObjects (recovers event.val) r = [] := by
      rintro ⟨r, hr, hnil⟩
      exact List.ne_nil_of_mem (mem_emptiedBy.mpr ⟨hr, hnil⟩) hempty
    have heffect : (if recoveryTargets (recovers event.val) t = [] then LifecycleEffect.noop
        else .affectedSetShrunk) ≠ .resolved := by
      split_ifs <;> decide
    rw [hempty, if_neg hnone, if_neg heffect]
    rfl
  · obtain ⟨r, hr⟩ := List.exists_mem_of_ne_nil _ hempty
    obtain ⟨htarget, hnil⟩ := mem_emptiedBy.mp hr
    have hpos := List.length_pos_iff.mpr hempty
    have hsome : ∃ r ∈ recoveryTargets (recovers event.val) t,
        remainingObjects (recovers event.val) r = [] := ⟨r, htarget, hnil⟩
    rw [if_neg (List.ne_nil_of_mem htarget), if_pos hsome, if_pos rfl]
    omega

end

/-- **Closure count.**  The answer to an accepted recovery counts the incidents its transaction
resolves if and only if the recovery empties at most one open incident. -/
theorem closure_count {p : Icinga2DecisionProcessor} {req : IngressRequest} {db : Database}
    {event : NormalizedEvent} {answer : IngressDecisionEnvelope}
    (hids : (db.incidents.map Incident.id).Nodup)
    (hevent : processPayload p.sha256 req.payload = .ok (.event event))
    (hrecovery : event.val.eventType = .recovery)
    (hanswer : (p.processPayload req db).response = .ok answer) :
    answer.val.closureCount =
        (resolvedBetween db.incidents (p.processPayload req db).database.incidents).length ↔
      (emptiedBy event.val db.incidents).length ≤ 1 := by
  rw [Icinga2DecisionProcessor.processPayload_event hevent] at hanswer ⊢
  obtain ⟨a, db', effect, decision, s, haccept, hcommitted, hs, hdb, henvelope⟩ :=
    Icinga2DecisionProcessor.processEvent_answer hanswer
  obtain ⟨htags, -⟩ := Icinga2DecisionProcessor.accept_eq_ok haccept
  have htype : a.event.val.eventType = .recovery := by rw [htags]; exact hrecovery
  have hsame : emptiedBy a.event.val db.incidents = emptiedBy event.val db.incidents := by
    rw [htags]
    rfl
  have happlied := hcommitted.applied
  unfold Icinga2DecisionProcessor.applyEvent at happlied
  rw [htype] at happlied
  obtain ⟨⟨t', result⟩, hresolve, happlied⟩ := bind_eq_ok.mp happlied
  cases happlied
  cases hs
  have hrecovered := resolveForEvent_recovered hids hresolve
  rw [hdb, henvelope, resolvedBetween_eq hids hrecovered.rows, hsame]
  show result.resolvedCount = _ ↔ _
  rw [hrecovered.resolvedCount, hsame]
  omega

/-! ### Two incidents of one host -/

/-- Problems of one host, each in a group of its own. -/
def openedIn (groups : List String) : List Op :=
  groups.flatMap fun group =>
    ({ sampleArgs "cpu" 0 2 60 with groupKey := group }).postInit.toOption.toList.map fun i =>
      .recordProblem (sampleTime 0) (Fin.ofNat _ group.length) i

/-- The host is up again. -/
def hostUp : PayloadFields where
  sourceId := "icinga"
  host := "db1"
  service := none
  state := "UP"
  stateType := .hard
  timestamp := (sampleTime 9).toDatetime
  checkOutput := "up"
  ipAddress := none
  tags := .empty

theorem hostUp_valid : hostUp.errors = [] := by
  have h : hostUp.errors.isEmpty = true := by decide +kernel
  exact List.isEmpty_iff.mp h

def hostUpRequest : IngressRequest where
  payload := ⟨hostUp, hostUp_valid⟩
  now := sampleTime 9
  incidentId := 7
  eventId := 8
  fault := none
  persistFails := fun _ => false
  accepts := fun _ => true

/-- No rules, no topology. -/
def plainProcessor : Icinga2DecisionProcessor where
  sha256 := fun _ => HexDigest.ofNat 0
  hmac := fun _ _ => HexDigest.ofNat 0
  topologyEnricher := none
  ruleEngine := none
  hasSessionmaker := true
  hasTaskRunner := false
  pluginNames := []
  configHash := none
  auditRawPayloadMaxBytes := 4096
  auditRawPayloadHmacKey := "key"

def databaseOf (ops : List Op) : Database := ⟨tableAfter ops, []⟩

/-- The host of two open incidents, each of whose groups holds nothing else, recovers. -/
def hostUpOutcome : Icinga2DecisionProcessor.Outcome :=
  plainProcessor.processPayload hostUpRequest (databaseOf (openedIn ["db", "db1"]))

/-- What an answer counts, and what is resolved. -/
def closures (db : Database) (outcome : Icinga2DecisionProcessor.Outcome) : Option ℕ × ℕ :=
  (outcome.response.toOption.map fun e => e.val.closureCount,
    (resolvedBetween db.incidents outcome.database.incidents).length)

theorem hostUp_closures :
    hostUpOutcome.response.toOption.map (fun e => e.val.closureCount) = some 1 ∧
      (resolvedBetween (databaseOf (openedIn ["db", "db1"])).incidents
        hostUpOutcome.database.incidents).length = 2 := by
  have h : closures (databaseOf (openedIn ["db", "db1"])) hostUpOutcome = (some 1, 2) := by
    decide +kernel
  rwa [closures, Prod.mk.injEq] at h

/-- The request brings a recovery. -/
def Icinga2DecisionProcessor.readsRecovery (p : Icinga2DecisionProcessor) (req : IngressRequest) :
    Bool :=
  match Correlia.processPayload p.sha256 req.payload with
  | .ok (.event event) => decide (event.val.eventType = .recovery)
  | _ => false

theorem hostUp_event : ∃ event,
    processPayload plainProcessor.sha256 hostUpRequest.payload = .ok (.event event) ∧
      event.val.eventType = .recovery := by
  have h : plainProcessor.readsRecovery hostUpRequest = true := by decide +kernel
  unfold Icinga2DecisionProcessor.readsRecovery at h
  split at h
  · exact ⟨_, ‹_›, of_decide_eq_true h⟩
  · cases h

theorem hostUp_answered : ∃ answer, hostUpOutcome.response = .ok answer ∧
    answer.val.closureCount = 1 := by
  have hcount := hostUp_closures.1
  cases hanswer : hostUpOutcome.response with
  | error e =>
    rw [hanswer] at hcount
    cases hcount
  | ok answer =>
    rw [hanswer] at hcount
    exact ⟨answer, rfl, Option.some.inj hcount⟩

theorem closure_count_sample : ∃ event answer, hostUpOutcome.response = .ok answer ∧
    (answer.val.closureCount = (resolvedBetween (databaseOf (openedIn ["db", "db1"])).incidents
        hostUpOutcome.database.incidents).length ↔
      (emptiedBy event (databaseOf (openedIn ["db", "db1"])).incidents).length ≤ 1) := by
  obtain ⟨event, hevent, hrecovery⟩ := hostUp_event
  obtain ⟨answer, hanswer, -⟩ := hostUp_answered
  have hids : ((databaseOf (openedIn ["db", "db1"])).incidents.map Incident.id).Nodup := by
    decide +kernel
  refine ⟨event.val, answer, hanswer, ?_⟩
  unfold hostUpOutcome at hanswer ⊢
  exact closure_count hids hevent hrecovery hanswer

/-- The answer counts one of two. -/
theorem closures_undercounted :
    ∃ answer, hostUpOutcome.response = .ok answer ∧ answer.val.closureCount = 1 ∧
      (resolvedBetween (databaseOf (openedIn ["db", "db1"])).incidents
        hostUpOutcome.database.incidents).length = 2 := by
  obtain ⟨answer, hanswer, hcount⟩ := hostUp_answered
  exact ⟨answer, hanswer, hcount, hostUp_closures.2⟩

end Correlia
