import Correlia.Closures
import Correlia.ThresholdFacts

/-!
# AuditTrail — one audit row for every committed event

The rows of `incident_events` are, in commit order, those of the committed transactions, and each
tells the incident rows its transaction wrote and what became of them.  A request that does not
commit leaves nothing behind (`audit_trail`).
-/

namespace Correlia

open Lib

/-! ### What a transaction writes -/

/-- A transaction at `now` has inserted or modified exactly the rows with these ids.  Every write
stamps `updated_at`, so a written row is another one unless the clock has stood still. -/
structure WroteExactly (now : Timestamptz) (before after : List Incident) (ids : List UUID) :
    Prop where
  distinct : ids.Nodup
  stamped : ∀ id ∈ ids, ∃ r ∈ after, r.id = id ∧ r.updatedAt = now
  kept : ∀ r, r.id ∉ ids → (r ∈ after ↔ r ∈ before)
  exact : (∀ r ∈ before, r.updatedAt ≠ now) → ∀ id, id ∈ ids ↔ ∃ r ∈ after, r.id = id ∧ r ∉ before

/-- The incident is a new one. -/
def Creates (before : List Incident) (id : UUID) : Prop := ∀ r ∈ before, r.id ≠ id

/-- The incident is open before and `RESOLVED` after. -/
def Resolves (before after : List Incident) (id : UUID) : Prop :=
  (∃ r ∈ before, r.id = id ∧ r.status = .«open») ∧ ∃ r ∈ after, r.id = id ∧ r.status = .resolved

/-- The incident stays open with fewer members. -/
def Shrinks (before after : List Incident) (id : UUID) : Prop :=
  ∃ r ∈ before, ∃ r' ∈ after, r.id = id ∧ r'.id = id ∧ r.status = .«open» ∧ r'.status = .«open» ∧
    r'.windowState.val.activeObjects.length < r.windowState.val.activeObjects.length

theorem wroteExactly_of {now : Timestamptz} {before after : List Incident} {ids : List UUID}
    (hdistinct : ids.Nodup) (hstamped : ∀ id ∈ ids, ∃ r ∈ after, r.id = id ∧ r.updatedAt = now)
    (hkept : ∀ r, r.id ∉ ids → (r ∈ after ↔ r ∈ before)) : WroteExactly now before after ids := by
  refine ⟨hdistinct, hstamped, hkept, fun hclock id => ⟨fun hid => ?_, ?_⟩⟩
  · obtain ⟨r, hr, hrid, hnow⟩ := hstamped id hid
    exact ⟨r, hr, hrid, fun hbefore => hclock r hbefore hnow⟩
  · rintro ⟨r, hr, rfl, hnew⟩
    by_contra hid
    exact hnew ((hkept r hid).mp hr)

theorem mem_updateWhere_id {id : UUID} {f : Incident → Incident} (hf : ∀ r, r.id = id → (f r).id = id)
    {t : List Incident} {r : Incident} (hr : r.id ≠ id) :
    r ∈ updateWhere (fun r => decide (r.id = id)) f t ↔ r ∈ t := by
  rw [updateWhere, List.mem_map]
  constructor
  · rintro ⟨x, hx, rfl⟩
    by_cases hid : x.id = id
    · rw [if_pos (decide_eq_true hid)] at hr
      exact absurd (hf x hid) hr
    · rwa [if_neg (by simpa using hid)]
  · intro h
    exact ⟨r, h, if_neg (by simpa using hr)⟩

/-! ### A matched problem -/

/-- A matched problem writes one row, which is new exactly when the write says so. -/
theorem applyProblem_wrote {now : Timestamptz} {id : UUID} {configHash : Option String}
    {event : NormalizedEvent} {decision : RuleMatch} {t t' : List Incident}
    {result : IncidentAggregationResult} (ht : (t.map Incident.id).Nodup)
    (h : applyProblem now id configHash event decision t = .ok (t', result)) :
    WroteExactly now t t' [result.incidentId] ∧
      (result.effect = .inserted ↔ Creates t result.incidentId) := by
  obtain ⟨-, input, t₁, w, threshold, final, -, hrec, -, -, rfl, rfl⟩ := applyProblem_eq_ok h
  have hwritten : w.incident ∈ t₁ → w.incident.updatedAt = now →
      (∀ r, r.id ≠ w.incident.id → (r ∈ t₁ ↔ r ∈ t)) → WroteExactly now t
        (updateWhere (fun r => decide (r.id = w.incident.id))
          (fun r => { r with decisionContext := final.val.dump }) t₁) [w.incident.id] := by
    intro hmem hnow hkept
    refine wroteExactly_of (List.nodup_singleton _) ?_ fun r hr => ?_
    · intro id hid
      rw [List.mem_singleton.mp hid]
      refine ⟨{ w.incident with decisionContext := final.val.dump }, ?_, rfl, hnow⟩
      exact List.mem_map.mpr ⟨w.incident, hmem, if_pos (decide_eq_true rfl)⟩
    · have hne : r.id ≠ w.incident.id := fun hid => hr (List.mem_singleton.mpr hid)
      refine Iff.trans (mem_updateWhere_id ?_ hne) (hkept r hne)
      exact fun _ hid => hid
  cases recordProblemIncident_eq_ok ht hrec with
  | inserted state eventTime hstate htime hlen hkey hid =>
    refine ⟨hwritten (List.mem_append_right t (List.mem_singleton_self _)) rfl fun r hr => ?_,
      iff_of_true rfl hid⟩
    rw [List.mem_append, List.mem_singleton]
    refine or_iff_left fun heq => hr ?_
    rw [heq]
    rfl
  | merged existing w' context eventTime hmem hopen hkey hw hcontext htime hlen =>
    refine ⟨hwritten (List.mem_map.mpr ⟨existing, hmem, if_pos (decide_eq_true rfl)⟩) rfl
      fun r hr => ?_, iff_of_false nofun fun hnew => hnew existing hmem rfl⟩
    exact mem_updateWhere_id (fun _ _ => rfl) hr

/-! ### A recovery -/

section

variable {now : Timestamptz} {event : NormalizedEvent} {t t' : List Incident}
  {result : LifecycleResult}

theorem recoveredIncident_updatedAt (now : Timestamptz) (covered : IncidentObject → Bool)
    (context : ContextData) (r : Incident) :
    (recoveredIncident now covered context r).updatedAt = now := by
  unfold recoveredIncident
  split_ifs <;> rfl

theorem RecoveryRow.id_eq {covered : IncidentObject → Bool} {a : LifecycleArgs} {r r' : Incident}
    (h : RecoveryRow now covered a r r') : r'.id = r.id := by
  rcases h with ⟨-, context, -, rfl⟩ | ⟨-, rfl⟩
  · exact recoveredIncident_id _ _ _ _
  · rfl

/-- A recovery writes its targets. -/
theorem Recovered.wrote (ht : (t.map Incident.id).Nodup) (h : Recovered now event t t' result) :
    WroteExactly now t t' result.incidentIds := by
  have ht' : (t'.map Incident.id).Nodup := by
    rwa [map_key_of_forall₂ (fun _ _ hr => hr.id_eq) h.rows]
  rw [h.ids]
  refine wroteExactly_of (ht.sublist (List.filter_sublist.map _)) ?_ fun r hr => ?_
  · intro id hid
    obtain ⟨r, hr, rfl⟩ := List.mem_map.mp hid
    obtain ⟨hmem, htarget⟩ := mem_recoveryTargets.mp hr
    obtain ⟨r', hr', hrow⟩ := exists_of_forall₂_left h.rows hmem
    refine ⟨r', hr', hrow.id_eq, ?_⟩
    rcases hrow with ⟨-, context, -, rfl⟩ | ⟨hnot, -⟩
    · exact recoveredIncident_updatedAt _ _ _ _
    · exact absurd htarget hnot
  · -- a row that is no target is the same before and after
    have hsame : ∀ x x', x ∈ t → RecoveryRow now (recovers event.val) (recoveryNotes event) x x' →
        x'.id = r.id → x' = x := by
      intro x x' hx hrow hid
      rcases hrow with ⟨htarget, context, -, rfl⟩ | ⟨-, rfl⟩
      · refine absurd (List.mem_map.mpr ⟨x, mem_recoveryTargets.mpr ⟨hx, htarget⟩, ?_⟩) hr
        rw [← hid, recoveredIncident_id]
      · rfl
    constructor
    · intro hr'
      obtain ⟨x, hx, hrow⟩ := exists_of_forall₂_right h.rows hr'
      rwa [hsame x r hx hrow rfl]
    · intro hmem
      obtain ⟨x', hx', hrow⟩ := exists_of_forall₂_left h.rows hmem
      rwa [← hsame r x' hmem hrow hrow.id_eq]

/-- The row of a target, before and after, is told apart by its id. -/
theorem Recovered.target_row (ht : (t.map Incident.id).Nodup) (h : Recovered now event t t' result)
    {r : Incident} (hr : r ∈ recoveryTargets (recovers event.val) t) :
    ∃ context, recoveredIncident now (recovers event.val) context r ∈ t' ∧
      (∀ x ∈ t, x.id = r.id → x = r) ∧
      ∀ x ∈ t', x.id = r.id → x = recoveredIncident now (recovers event.val) context r := by
  have ht' : (t'.map Incident.id).Nodup := by
    rwa [map_key_of_forall₂ (fun _ _ hr => hr.id_eq) h.rows]
  obtain ⟨hmem, htarget⟩ := mem_recoveryTargets.mp hr
  obtain ⟨r', hr', hrow⟩ := exists_of_forall₂_left h.rows hmem
  rcases hrow with ⟨-, context, -, rfl⟩ | ⟨hnot, -⟩
  · refine ⟨context, hr', fun x hx hid => eq_of_key ht hx hmem hid, fun x hx hid => ?_⟩
    exact eq_of_key ht' hx hr' (hid.trans (recoveredIncident_id _ _ _ _).symm)
  · exact absurd htarget hnot

/-- A target becomes `RESOLVED` when no member is left, and else stays open with fewer. -/
theorem Recovered.change_iff (ht : (t.map Incident.id).Nodup) (h : Recovered now event t t' result)
    {r : Incident} (hr : r ∈ recoveryTargets (recovers event.val) t) :
    (Resolves t t' r.id ↔ remainingObjects (recovers event.val) r = []) ∧
      (Shrinks t t' r.id ↔ remainingObjects (recovers event.val) r ≠ []) := by
  obtain ⟨hmem, hopen, htouch⟩ := mem_recoveryTargets.mp hr
  obtain ⟨context, hafter, hbefore_eq, hafter_eq⟩ := h.target_row ht hr
  have hid : (recoveredIncident now (recovers event.val) context r).id = r.id :=
    recoveredIncident_id _ _ _ _
  by_cases hnil : remainingObjects (recovers event.val) r = []
  · have hrow : recoveredIncident now (recovers event.val) context r =
        resolvedIncident now .resolved context r := if_pos hnil
    refine ⟨iff_of_true ⟨⟨r, hmem, rfl, hopen⟩, _, hafter, hid, ?_⟩ hnil, iff_of_false ?_ ?_⟩
    · rw [hrow]
      rfl
    · rintro ⟨x, hx, x', hx', hxid, hxid', -, hstatus, -⟩
      rw [hafter_eq x' hx' hxid', hrow] at hstatus
      cases hstatus
    · exact fun hne => hne hnil
  · have hrow : recoveredIncident now (recovers event.val) context r =
        shrunkIncident now (remainingObjects (recovers event.val) r) context r := if_neg hnil
    have hlength : (remainingObjects (recovers event.val) r).length <
        r.windowState.val.activeObjects.length :=
      lt_of_le_of_ne (List.length_filter_le _ _) (remainingObjects_length_ne htouch)
    refine ⟨iff_of_false ?_ hnil, iff_of_true ⟨r, hmem, _, hafter, rfl, hid, hopen, ?_, ?_⟩ hnil⟩
    · rintro ⟨-, x', hx', hxid', hstatus⟩
      rw [hafter_eq x' hx' hxid', hrow] at hstatus
      cases hopen.symm.trans hstatus
    · rw [hrow]
      exact hopen
    · rw [hrow]
      exact (List.length_insertionSort _ _).trans_lt hlength

/-- The effect of a recovery, told by what became of its targets. -/
theorem Recovered.effect_iff (ht : (t.map Incident.id).Nodup)
    (h : Recovered now event t t' result) :
    (recoveryIncidentEffect result = .none ↔ result.incidentIds = []) ∧
      (recoveryIncidentEffect result = .resolved ↔ ∃ id ∈ result.incidentIds, Resolves t t' id) ∧
      (recoveryIncidentEffect result = .affectedSetShrunk ↔
        (∃ id ∈ result.incidentIds, Shrinks t t' id) ∧
          ¬ ∃ id ∈ result.incidentIds, Resolves t t' id) := by
  have hids : ∀ P : UUID → Prop, (∃ id ∈ result.incidentIds, P id) ↔
      ∃ r ∈ recoveryTargets (recovers event.val) t, P r.id := by
    intro P
    rw [h.ids]
    simp only [List.mem_map, exists_exists_and_eq_and]
  have hresolves : (∃ id ∈ result.incidentIds, Resolves t t' id) ↔
      ∃ r ∈ recoveryTargets (recovers event.val) t, remainingObjects (recovers event.val) r = [] := by
    rw [hids]
    exact exists_congr fun r => and_congr_right fun hr => (h.change_iff ht hr).1
  have hshrinks : (∃ id ∈ result.incidentIds, Shrinks t t' id) ↔
      ∃ r ∈ recoveryTargets (recovers event.val) t, remainingObjects (recovers event.val) r ≠ [] := by
    rw [hids]
    exact exists_congr fun r => and_congr_right fun hr => (h.change_iff ht hr).2
  rw [hresolves, hshrinks, recoveryIncidentEffect, h.effect, h.ids, List.map_eq_nil_iff, totalEffect]
  by_cases hempty : recoveryTargets (recovers event.val) t = []
  · simp [hempty]
  · by_cases hsome : ∃ r ∈ recoveryTargets (recovers event.val) t,
        remainingObjects (recovers event.val) r = []
    · simp only [if_neg hempty, if_pos hsome]
      simp [hempty, hsome]
    · obtain ⟨r, hr⟩ := List.exists_mem_of_ne_nil _ hempty
      have hshrunk : ∃ r ∈ recoveryTargets (recovers event.val) t,
          remainingObjects (recovers event.val) r ≠ [] := ⟨r, hr, fun hnil => hsome ⟨r, hr, hnil⟩⟩
      simp only [if_neg hempty, if_neg hsome]
      simp only [hempty, hsome, hshrunk]
      decide

end

/-! ### Calls and commits -/

/-- A call of `process_payload`, with the processor it is made on. -/
structure PayloadCall where
  processor : Icinga2DecisionProcessor
  request : IngressRequest

/-- A committed transaction: the accepted event, and the database before and after it. -/
structure Commit where
  request : IngressRequest
  accepted : AcceptedEvent
  effect : Effect
  before : Database
  after : Database

open Icinga2DecisionProcessor

def PayloadCall.outcome (c : PayloadCall) (db : Database) : Outcome :=
  c.processor.processPayload c.request db

/-- The transaction of a call, if its event is accepted and the transaction commits. -/
def PayloadCall.commit (c : PayloadCall) (db : Database) : Option Commit :=
  match processPayload c.processor.sha256 c.request.payload with
  | .ok (.event event) =>
    match c.processor.accept event with
    | .ok a =>
      match c.processor.transaction c.request a db with
      | .ok (db', effect, _) => some ⟨c.request, a, effect, db, db'⟩
      | .error _ => none
    | .error _ => none
  | _ => none

/-- The database after a run of calls. -/
def databaseAfter (db : Database) (calls : List PayloadCall) : Database :=
  calls.foldl (fun db c => (c.outcome db).database) db

/-- The commits of a run, in order. -/
def commits : Database → List PayloadCall → List Commit
  | _, [] => []
  | db, c :: calls => (c.commit db).toList ++ commits (c.outcome db).database calls

/-! ### What a row tells -/

/-- The incidents a row names, against those its transaction has written. -/
structure TellsChange (k : Commit) (row : IncidentEvent) (ids : List UUID) : Prop where
  named : row.incidentIds = ids.map uuidText
  wrote : WroteExactly k.request.now k.before.incidents k.after.incidents ids
  none_iff : row.incidentEffect = .none ↔ ids = []
  problem : k.accepted.event.val.eventType = .problem → ∀ decision,
    k.accepted.decision = .ruleMatch decision → ids ≠ [] ∧
      (row.incidentEffect = .inserted ↔ ∀ id ∈ ids, Creates k.before.incidents id) ∧
      (row.incidentEffect = .updated ↔ ∀ id ∈ ids, ¬ Creates k.before.incidents id)
  recovery : k.accepted.event.val.eventType = .recovery →
    (row.incidentEffect = .resolved ↔
      ∃ id ∈ ids, Resolves k.before.incidents k.after.incidents id) ∧
    (row.incidentEffect = .affectedSetShrunk ↔
      (∃ id ∈ ids, Shrinks k.before.incidents k.after.incidents id) ∧
        ¬ ∃ id ∈ ids, Resolves k.before.incidents k.after.incidents id)
  summary : ∃ summary : SummaryFields, row.decisionSummary.fields = summary.dump ∧
    summary.incidentEffect = row.incidentEffect ∧
    summary.affectedIncidentCount = ids.length ∧
    summary.incidentIds = (ids.take 20).map uuidText ∧
    (summary.incidentIdsTruncated = true ↔ 20 < ids.length)

/-- A row is that of a commit. -/
structure Describes (k : Commit) (row : IncidentEvent) : Prop where
  id : row.id = k.request.eventId
  acceptedAt : row.acceptedAt = k.request.now
  fingerprint : row.fingerprint = k.accepted.event.val.fingerprint
  eventType : row.eventType = k.accepted.event.val.eventType
  normalizedEvent : row.normalizedEvent = k.accepted.event.val.dump
  change : ∃ ids, TellsChange k row ids

theorem incidentIdsForAudit_truncated (ids : List UUID) :
    (incidentIdsForAudit ids).2 = true ↔ 20 < ids.length := decide_eq_true_iff

section

variable {p : Icinga2DecisionProcessor} {req : IngressRequest} {a : AcceptedEvent}
  {db db' : Database} {ts : Timestamptz} {summary : AuditDecisionSummary}
  {redacted : RedactedPayload}

theorem problem_tells {result : IncidentAggregationResult} {decision : RuleMatch}
    (hids : (db.incidents.map Incident.id).Nodup)
    (htype : a.event.val.eventType = .problem)
    (happly : applyProblem req.now req.incidentId p.configHash a.event decision db.incidents =
      .ok (db'.incidents, result))
    (hsummary : summary.val = buildProblemAuditSummary result decision) :
    TellsChange ⟨req, a, .problem result decision, db, db'⟩
      (auditRow req a (.problem result decision) ts summary redacted) [result.incidentId] := by
  obtain ⟨hwrote, hcreated⟩ := applyProblem_wrote hids happly
  have heffect : (auditRow req a (.problem result decision) ts summary redacted).incidentEffect =
      problemIncidentEffect result := congrArg SummaryFields.incidentEffect hsummary
  constructor
  · exact congrArg SummaryFields.incidentIds hsummary
  · exact hwrote
  · rw [heffect, problemIncidentEffect]
    cases result.effect <;> simp
  · intro _ d _
    refine ⟨List.cons_ne_nil _ _, ?_, ?_⟩
    · rw [heffect, List.forall_mem_singleton, ← hcreated, problemIncidentEffect]
      cases result.effect <;> simp
    · rw [heffect, List.forall_mem_singleton, ← hcreated, problemIncidentEffect]
      cases result.effect <;> simp
  · intro hrecovery
    cases htype.symm.trans hrecovery
  · refine ⟨summary.val, rfl, rfl, ?_, ?_, ?_⟩
    · rw [hsummary]
      rfl
    · rw [hsummary]
      rfl
    · rw [hsummary]
      exact incidentIdsForAudit_truncated [result.incidentId]

theorem recovery_tells {result : LifecycleResult} (hids : (db.incidents.map Incident.id).Nodup)
    (htype : a.event.val.eventType = .recovery)
    (hresolve : resolveForEvent req.now a.event db.incidents = .ok (db'.incidents, result))
    (hsummary : summary.val = buildRecoveryAuditSummary result) :
    TellsChange ⟨req, a, .recovery result, db, db'⟩
      (auditRow req a (.recovery result) ts summary redacted) result.incidentIds := by
  have hrecovered := resolveForEvent_recovered hids hresolve
  obtain ⟨hnone, hresolved, hshrunk⟩ := hrecovered.effect_iff hids
  have heffect : (auditRow req a (.recovery result) ts summary redacted).incidentEffect =
      recoveryIncidentEffect result := congrArg SummaryFields.incidentEffect hsummary
  constructor
  · rfl
  · exact hrecovered.wrote hids
  · rw [heffect]
    exact hnone
  · intro hproblem
    cases htype.symm.trans hproblem
  · intro _
    rw [heffect]
    exact ⟨hresolved, hshrunk⟩
  · refine ⟨summary.val, rfl, rfl, ?_, ?_, ?_⟩
    · rw [hsummary]
      rfl
    · rw [hsummary]
      rfl
    · rw [hsummary]
      exact incidentIdsForAudit_truncated result.incidentIds

theorem noop_tells {d : NoOpDecision} (htype : a.event.val.eventType = .problem)
    (hdecision : a.decision = .noOp d) (hsame : db'.incidents = db.incidents)
    (hsummary : summary.val = buildNoopAuditSummary a.decision.noopReason a.decision.matchedRules) :
    TellsChange ⟨req, a, .noop, db, db'⟩ (auditRow req a .noop ts summary redacted) [] := by
  constructor
  · exact congrArg SummaryFields.incidentIds hsummary
  · refine wroteExactly_of List.nodup_nil nofun fun r _ => ?_
    show r ∈ db'.incidents ↔ r ∈ db.incidents
    rw [hsame]
  · exact iff_of_true (congrArg SummaryFields.incidentEffect hsummary) rfl
  · intro _ decision hmatch
    cases hdecision.symm.trans hmatch
  · intro hrecovery
    cases htype.symm.trans hrecovery
  · refine ⟨summary.val, rfl, rfl, ?_, ?_, ?_⟩
    · rw [hsummary]
      rfl
    · rw [hsummary]
      rfl
    · rw [hsummary]
      exact iff_of_false Bool.false_ne_true (Nat.not_lt_zero _)

/-- Of every committed transaction: its row, and the ids still distinct. -/
theorem committed_describes {effect : Effect} {decided : Option Decision}
    (hids : (db.incidents.map Incident.id).Nodup)
    (h : Committed p req a db db' effect decided) :
    (db'.incidents.map Incident.id).Nodup ∧ ∃ row,
      db'.incidentEvents = db.incidentEvents ++ [row] ∧ Describes ⟨req, a, effect, db, db'⟩ row := by
  obtain ⟨happlied, -, -, summary, redacted, ts, hsummary, -, -, hrows⟩ := h
  suffices hchange : (db'.incidents.map Incident.id).Nodup ∧ ∃ ids,
      TellsChange ⟨req, a, effect, db, db'⟩ (auditRow req a effect ts summary redacted) ids from
    ⟨hchange.1, _, hrows, rfl, rfl, rfl, rfl, rfl, hchange.2⟩
  unfold applyEvent at happlied
  split at happlied
  · rename_i decision htype hmatch
    obtain ⟨⟨t', result⟩, happly, happlied⟩ := bind_eq_ok.mp happlied
    cases happlied
    have hstep : step (.applyProblem req.now req.incidentId p.configHash a.event decision)
        db.incidents = .ok (db'.incidents, .applied result) :=
      answer_eq_ok.mpr ⟨result, happly, rfl⟩
    exact ⟨step_ids_nodup hids hstep, _, problem_tells hids htype happly hsummary⟩
  · rename_i htype
    obtain ⟨⟨t', result⟩, hresolve, happlied⟩ := bind_eq_ok.mp happlied
    cases happlied
    refine ⟨?_, _, recovery_tells hids htype hresolve hsummary⟩
    rw [map_key_of_forall₂ (fun _ _ hr => hr.id_eq) (resolveForEvent_recovered hids hresolve).rows]
    exact hids
  · rename_i d htype hdecision
    obtain ⟨hincidents, rfl⟩ := Prod.mk.inj (Except.ok.inj happlied)
    refine ⟨hincidents ▸ hids, _, noop_tells htype hdecision hincidents.symm hsummary⟩

end

/-! ### A call -/

section

variable (c : PayloadCall) {db : Database}

/-- A call without a commit leaves nothing behind. -/
theorem PayloadCall.outcome_of_none (h : c.commit db = none) :
    (c.outcome db).database = db ∧ (c.outcome db).submitted = [] := by
  unfold PayloadCall.commit at h
  unfold PayloadCall.outcome
  cases hpayload : processPayload c.processor.sha256 c.request.payload with
  | error e =>
    unfold Icinga2DecisionProcessor.processPayload
    rw [hpayload]
    exact ⟨rfl, rfl⟩
  | ok r =>
    cases r with
    | rejection r =>
      unfold Icinga2DecisionProcessor.processPayload
      rw [hpayload]
      exact ⟨rfl, rfl⟩
    | event event =>
      rw [processPayload_event hpayload]
      rcases processEvent_cases c.processor c.request event db with
        ⟨e, he⟩ | ⟨a, db', effect, decision, haccept, htransaction, -⟩
      · rw [he]
        exact ⟨rfl, rfl⟩
      · simp only [hpayload, haccept, htransaction] at h
        cases h

/-- The steps of a call that commits. -/
theorem PayloadCall.commit_steps {k : Commit} (h : c.commit db = some k) :
    ∃ event decision, processPayload c.processor.sha256 c.request.payload = .ok (.event event) ∧
      c.processor.accept event = .ok k.accepted ∧
      c.processor.transaction c.request k.accepted db = .ok (k.after, k.effect, decision) ∧
      k.request = c.request ∧ k.before = db := by
  unfold PayloadCall.commit at h
  cases hpayload : processPayload c.processor.sha256 c.request.payload with
  | error e =>
    rw [hpayload] at h
    cases h
  | ok r =>
    cases r with
    | rejection r =>
      rw [hpayload] at h
      cases h
    | event event =>
      rw [hpayload] at h
      dsimp only at h
      cases haccept : c.processor.accept event with
      | error e =>
        rw [haccept] at h
        cases h
      | ok a =>
        rw [haccept] at h
        dsimp only at h
        cases htransaction : c.processor.transaction c.request a db with
        | error e =>
          rw [htransaction] at h
          cases h
        | ok r =>
          rw [htransaction] at h
          cases h
          exact ⟨event, r.2.2, rfl, haccept, htransaction, rfl, rfl⟩

/-- A commit is one of a transaction, and the call goes on from there. -/
theorem PayloadCall.commit_eq_some {k : Commit} (h : c.commit db = some k) :
    ∃ decision, k.request = c.request ∧ k.before = db ∧
      Committed c.processor c.request k.accepted db k.after k.effect decision ∧
      c.outcome db =
        c.processor.afterTransaction c.request k.accepted k.effect decision k.after := by
  obtain ⟨event, decision, hpayload, haccept, htransaction, hrequest, hbefore⟩ := c.commit_steps h
  exact ⟨decision, hrequest, hbefore, committed_of_transaction htransaction,
    (processPayload_event hpayload).trans (processEvent_committed haccept htransaction)⟩

/-- Recording a result after the commit changes no audit row and no id. -/
theorem PayloadCall.outcome_of_some {k : Commit} (hids : (db.incidents.map Incident.id).Nodup)
    (h : c.commit db = some k) :
    ((c.outcome db).database.incidents.map Incident.id).Nodup ∧ ∃ row,
      (c.outcome db).database.incidentEvents = db.incidentEvents ++ [row] ∧ Describes k row := by
  obtain ⟨decision, hrequest, hbefore, hcommitted, houtcome⟩ := c.commit_eq_some h
  obtain ⟨hids', row, hrows, hdescribes⟩ := committed_describes hids hcommitted
  have hkeeps : ((c.outcome db).database.incidents.map Incident.id).Nodup ∧
      (c.outcome db).database.incidentEvents = k.after.incidentEvents := by
    rw [houtcome]
    refine afterTransaction_keeps (P := fun d => (d.incidents.map Incident.id).Nodup ∧
      d.incidentEvents = k.after.incidentEvents) ⟨hids', rfl⟩ ?_
    rintro id n - result d t found ⟨hd, hevents⟩ hrecord
    have hstep : step (.recordNotification c.request.now id n result) d.incidents =
        .ok (t, .notified found) := answer_eq_ok.mpr ⟨found, hrecord, rfl⟩
    exact ⟨step_ids_nodup hd hstep, hevents⟩
  refine ⟨hkeeps.1, row, hkeeps.2.trans hrows, ?_⟩
  obtain ⟨request, accepted, effect, before, after⟩ := k
  obtain rfl : request = c.request := hrequest
  obtain rfl : before = db := hbefore
  exact hdescribes

end

/-! ### A run -/

/-- A run appends the rows of its commits, in their order. -/
theorem databaseAfter_describes (calls : List PayloadCall) {db : Database}
    (hids : (db.incidents.map Incident.id).Nodup) :
    ∃ rows, (databaseAfter db calls).incidentEvents = db.incidentEvents ++ rows ∧
      List.Forall₂ Describes (commits db calls) rows := by
  induction calls generalizing db with
  | nil => exact ⟨[], (List.append_nil _).symm, .nil⟩
  | cons c calls ih =>
    cases h : c.commit db with
    | none =>
      have hsame := (c.outcome_of_none h).1
      have hcommits : commits db (c :: calls) = commits db calls := by
        rw [commits, h, hsame]
        rfl
      have hafter : databaseAfter db (c :: calls) = databaseAfter db calls :=
        congrArg (databaseAfter · calls) hsame
      rw [hcommits, hafter]
      exact ih hids
    | some k =>
      obtain ⟨hids', row, hrow, hdescribes⟩ := c.outcome_of_some hids h
      obtain ⟨rows, hrows, hall⟩ := ih hids'
      refine ⟨row :: rows, ?_, ?_⟩
      · calc (databaseAfter db (c :: calls)).incidentEvents
            = (c.outcome db).database.incidentEvents ++ rows := hrows
          _ = db.incidentEvents ++ row :: rows := by rw [hrow, List.append_assoc]; rfl
      · rw [commits, h]
        exact .cons hdescribes hall

/-- **The audit trail**: in any run of calls, whatever fails in them, the rows added are those of
the commits, in their order, each telling the change of its own transaction; and a call that does
not commit leaves nothing behind. -/
theorem audit_trail (calls : List PayloadCall) (db : Database)
    (hids : (db.incidents.map Incident.id).Nodup) :
    (∃ rows, (databaseAfter db calls).incidentEvents = db.incidentEvents ++ rows ∧
      List.Forall₂ Describes (commits db calls) rows) ∧
    ∀ before c after, calls = before ++ c :: after →
      c.commit (databaseAfter db before) = none →
        (c.outcome (databaseAfter db before)).database = databaseAfter db before ∧
          (c.outcome (databaseAfter db before)).submitted = [] :=
  ⟨databaseAfter_describes calls hids, fun _ c _ _ h => c.outcome_of_none h⟩

def sampleCall : PayloadCall := ⟨sampleProcessor, sampleIngressRequest⟩

/-- The first of two equal calls commits; the second does not, for its row's id is taken. -/
theorem audit_trail_sample : ∃ k row,
    (databaseAfter ⟨[], []⟩ [sampleCall, sampleCall]).incidentEvents = [row] ∧ Describes k row := by
  have hcommits : (commits ⟨[], []⟩ [sampleCall, sampleCall]).length = 1 := by decide +kernel
  obtain ⟨⟨rows, hrows, hall⟩, -⟩ := audit_trail [sampleCall, sampleCall] ⟨[], []⟩ List.nodup_nil
  obtain ⟨k, hk⟩ := List.length_eq_one_iff.mp hcommits
  rw [hk] at hall
  cases hall with
  | cons hdescribes hnil =>
    cases hnil
    exact ⟨k, _, hrows, hdescribes⟩

end Correlia
