import Correlia.Api.Responses
import Correlia.DeliveryRecords
import Correlia.TagsOfAudit

/-!
# ReadBack — whatever is written can be read

The list routes check every row again when they map it, and one row that fails the check fails its
page.  Here: every `incident_events` row of a run has a response (`worldAfter_listable`), and so has
every `incidents` row, with the decision context that is stored (`worldAfter_presentable`).
-/

namespace Correlia

open Lib

/-! ### Audit rows -/

/-- A row that an accepted event has left: bounded names, a dumped summary and its ids. -/
structure IncidentEvent.Listable (row : IncidentEvent) : Prop where
  sourceId : Bounded row.sourceId
  fingerprint : Bounded row.fingerprint
  host : Bounded row.host
  service : ∀ s ∈ row.service, Bounded s
  summary : ∃ summary : AuditDecisionSummary, row.decisionSummary.fields = summary.val.dump ∧
    row.incidentIds.take auditIncidentIdsMax = summary.val.incidentIds

theorem AuditDecisionSummary.ids_ok (s : AuditDecisionSummary) :
    stringTupleErrors "incident_ids" s.val.incidentIds = [] := by
  have h : s.val.errors = [] := s.valid
  simp only [SummaryFields.errors, List.append_eq_nil_iff] at h
  obtain ⟨⟨⟨⟨⟨⟨-, hids⟩, -⟩, -⟩, -⟩, -⟩, -⟩ := h
  exact hids

theorem projectNormalizedEventMessage_length (message : Option String) :
    (projectNormalizedEventMessage message).length ≤ 512 := by
  unfold projectNormalizedEventMessage
  rw [takeText_length, auditMessageMaxLength]
  exact min_le_left _ _

/-- Projected tags pass the validators of the response. -/
theorem projectNormalizedEventTags_response {tags : List (String × String)}
    (h : (tags.map Prod.fst).Nodup) (invalidLegacyShape sizeLimit : Bool) :
    responseTagsErrors
      ⟨(projectNormalizedEventTags tags invalidLegacyShape sizeLimit).projected,
        projectNormalizedEventTags_nodup h invalidLegacyShape sizeLimit⟩ = [] := by
  have hkeys : ((tags.map fun e => (e.1, Json.string e.2)).map Prod.fst).Nodup := by
    rwa [List.map_map]
  have hsorted := List.pairwise_map.mpr ((sortBy_strict hkeys).imp fun hlt => hlt.ne)
  have hprojection := projectionOf_foldl invalidLegacyShape sizeLimit hsorted
  have htext := projectTagValues_text tags invalidLegacyShape sizeLimit
  unfold projectTagValues at htext
  rw [htext] at hprojection
  exact hprojection.response _

theorem reasons_card (reasons : Finset TagOmissionReason) : reasons.card ≤ 3 := by
  have hsub : reasons ⊆ {.sizeLimit, .invalidLegacyShape, .sensitiveKey} := by
    intro r _
    cases r <;> simp
  exact (Finset.card_le_card hsub).trans Finset.card_le_three

theorem HexDigest.response_ok (h : HexDigest) : responseHmacErrors h.val = [] := by
  rw [responseHmacErrors, thenErrors_eq_nil, strErrors_eq_nil, check_eq_nil, List.all_eq_true]
  refine ⟨⟨h.property.1.ge, h.property.1.le⟩, fun c hc => ?_⟩
  exact List.contains_iff_mem.mpr (h.property.2 c hc)

/-- **A listable row has a response.** -/
theorem IncidentEvent.Listable.response {row : IncidentEvent} (h : row.Listable) :
    ∃ response, auditEventResponse (rowToAuditEventListRow row) = .ok response := by
  obtain ⟨summary, hdump, hids⟩ := h.summary
  have hread : AuditDecisionSummary.ofDict (rowToAuditEventListRow row).decisionSummary =
      .ok summary := by
    show AuditDecisionSummary.ofDict (normalizeSummary row.decisionSummary.fields) = _
    rw [hdump]
    exact ofDict_dump summary
  unfold auditEventResponse
  rw [hread, liftError, ok_bind]
  refine ⟨_, liftError_eq_ok.mpr (modelValidate_of_valid ?_)⟩
  unfold ResponseFields.errors
  rw [thenErrors_eq_nil]
  refine ⟨?_, check_eq_nil.mpr (beq_self_eq_true _)⟩
  simp only [List.append_eq_nil_iff]
  refine ⟨⟨⟨⟨⟨⟨⟨⟨?_, ?_⟩, ?_⟩, ?_⟩, ?_⟩, ?_⟩, ?_⟩, ?_⟩, ?_⟩
  · exact strErrors_eq_nil.mpr h.sourceId
  · exact strErrors_eq_nil.mpr h.fingerprint
  · exact strErrors_eq_nil.mpr h.host
  · exact optErrors_eq_nil.mpr fun s hs => strErrors_eq_nil.mpr (h.service s hs)
  · exact (congrArg (stringTupleErrors "incident_ids") hids).trans
      (AuditDecisionSummary.ids_ok summary)
  · exact check_eq_nil.mpr (decide_eq_true (projectNormalizedEventMessage_length _))
  · exact projectNormalizedEventTags_response (sqlTags_nodup row.normalizedEvent.distinct) _ _
  · exact check_eq_nil.mpr (decide_eq_true (reasons_card _))
  · exact HexDigest.response_ok row.rawPayloadHmac

open Icinga2DecisionProcessor in
/-- A committed transaction leaves a listable row. -/
theorem PayloadCall.commit_listable {c : PayloadCall} {db : Database} {k : Commit}
    (h : c.commit db = some k) :
    ∃ row, k.after.incidentEvents = db.incidentEvents ++ [row] ∧ row.Listable := by
  obtain ⟨event, decision, hpayload, haccept, htransaction, -, -⟩ := c.commit_steps h
  obtain ⟨summary, redacted, ts, hsummary, -, -, hrows⟩ :=
    (committed_of_transaction htransaction).audited
  obtain ⟨hhost, hsource, hservice, hlength, -⟩ := Accepted.bounds ⟨_, hpayload⟩
  -- enrichment changes the tags of the event only
  have hevent := (accept_eq_ok haccept).1
  have hsameHost : k.accepted.event.val.host = event.val.host := by rw [hevent]
  have hsameSource : k.accepted.event.val.sourceId = event.val.sourceId := by rw [hevent]
  have hsameService : k.accepted.event.val.service = event.val.service := by rw [hevent]
  have hsameFingerprint : k.accepted.event.val.fingerprint = event.val.fingerprint := by rw [hevent]
  rw [← hsameHost] at hhost
  rw [← hsameSource] at hsource
  rw [← hsameService] at hservice
  rw [← hsameFingerprint] at hlength
  refine ⟨_, hrows, hsource, ⟨?_, ?_⟩, hhost, hservice, summary, rfl, ?_⟩
  · exact hlength ▸ (by decide : 1 ≤ 32)
  · exact hlength ▸ (by decide : 32 ≤ 256)
  · -- a recovery stores all its ids and lists the first, which are those of its summary
    have hfew : summary.val.incidentIds.take auditIncidentIdsMax = summary.val.incidentIds :=
      List.take_of_length_le (stringTupleErrors_eq_nil.mp (AuditDecisionSummary.ids_ok summary)).1
    cases heffect : k.effect with
    | recovery result =>
      rw [heffect] at hsummary
      rw [hsummary]
      show (result.incidentIds.map uuidText).take auditIncidentIdsMax =
        (result.incidentIds.take auditIncidentIdsCap).map uuidText
      simp only [bind_pure_comp, List.map_eq_map, List.map_take]
      rfl
    | problem result decision => exact hfew
    | noop => exact hfew

/-- **Audit rows**: every row of a run is listable. -/
theorem worldAfter_listable (acts : List Activity) :
    ∀ row ∈ (worldAfter acts).database.incidentEvents, row.Listable := by
  have hstart : ∀ row ∈ (⟨⟨[], []⟩, []⟩ : World).database.incidentEvents, row.Listable :=
    List.forall_mem_nil _
  refine service_induction
    (R := fun _ w => ∀ row ∈ w.database.incidentEvents, row.Listable) hstart ?_ acts
  intro before a w' o hall h
  cases a with
  | ingress call =>
    obtain ⟨k, hcommit, rfl⟩ := serve_ingress h
    obtain ⟨row, hrows, hlistable⟩ := PayloadCall.commit_listable hcommit
    rw [hrows]
    exact List.forall_mem_append.mpr ⟨hall, List.forall_mem_singleton.mpr hlistable⟩
  | complete now completion =>
    obtain ⟨-, ⟨-, rfl⟩ | ⟨_, _, _, -, -, rfl⟩⟩ := serve_complete h
    · exact hall
    · exact hall
  | acknowledge now id request =>
    obtain ⟨_, _, -, rfl⟩ := World.write_eq_ok h
    exact hall
  | close now id request =>
    obtain ⟨_, _, -, rfl⟩ := World.write_eq_ok h
    exact hall
  | expire now locked limit =>
    obtain ⟨_, _, -, rfl⟩ := World.write_eq_ok h
    exact hall

/-! ### Incident rows -/

/-- The texts of a row that no derived column determines. -/
structure RowTexts (r : Incident) : Prop where
  ruleName : Bounded r.ruleName
  groupKey : Bounded r.groupKey
  summary : Bounded r.summary
  acknowledgedBy : ∀ s ∈ r.acknowledgedBy, 1 ≤ s.length ∧ s.length ≤ 128

/-- A problem of the service brings the bounded texts of a rule match. -/
theorem Op.Admitted.input_bounded {op : Op} {p : ProblemCall} (hop : op.Admitted)
    (h : op.problem = some p) :
    Bounded p.input.ruleName ∧ Bounded p.input.groupKey ∧ Bounded p.input.summary := by
  cases op with
  | recordProblem now id input => cases hop
  | applyProblem now id configHash event decision =>
    obtain ⟨-, -, context, hpass, hinput⟩ := applyProblem_problem h
    have hdecision : decision.val.errors = [] := decision.valid
    simp only [MatchDecision.errors, List.append_eq_nil_iff, boundedErrors_eq_nil] at hdecision
    obtain ⟨⟨⟨⟨hname, -⟩, hkey⟩, hsummary⟩, -⟩ := hdecision
    rw [hinput]
    exact ⟨hname, hkey, hsummary⟩
  | _ => cases h

theorem Fresh.texts {op : Op} {p : ProblemCall} {t : List Incident} {r : Incident}
    (hop : op.Admitted) (hp : op.problem = some p) (h : Fresh p t r) : RowTexts r := by
  obtain ⟨hname, hkey, hsummary⟩ := hop.input_bounded hp
  obtain ⟨_, _, _, _, _, rfl⟩ := h.made
  exact ⟨hname, hkey, hsummary, nofun⟩

/-- A call that leaves the key, the summary and the operator leaves the texts. -/
theorem RowTexts.carried {r r' : Incident} (h : RowTexts r) (hkey : r'.key = r.key)
    (hsummary : r'.summary = r.summary) (hoperator : r'.acknowledgedBy = r.acknowledgedBy) :
    RowTexts r' := by
  obtain ⟨hname, hgroup⟩ := Prod.mk.inj hkey
  constructor
  · rw [hname]
    exact h.ruleName
  · rw [hgroup]
    exact h.groupKey
  · rw [hsummary]
    exact h.summary
  · rw [hoperator]
    exact h.acknowledgedBy

theorem RowChange.texts {op : Op} {r r' : Incident} (hop : op.Admitted) (hr : RowTexts r)
    (h : RowChange op r r') : RowTexts r' := by
  cases h with
  | same => exact hr
  | @merged _ _ _ w hp hmerged =>
    cases hmerged with
    | intro eventTime context =>
      refine ⟨hr.ruleName, hr.groupKey, ?_, hr.acknowledgedBy⟩
      show Bounded (if w.counted then _ else r.summary)
      split_ifs
      · exact (hop.input_bounded hp).2.2
      · exact hr.summary
  | @recovered now covered context =>
    have hsame := SameCounting.recovered now covered context r
    refine hr.carried hsame.key hsame.summary ?_
    unfold recoveredIncident
    split_ifs <;> rfl
  | acknowledged hack =>
    subst hack
    obtain ⟨request, rfl⟩ := hop
    refine ⟨hr.ruleName, hr.groupKey, hr.summary, ?_⟩
    rintro s ⟨⟩
    have hvalid : operatorErrors request.val.operator = [] := request.valid
    exact strErrors_eq_nil.mp (thenErrors_eq_nil.mp hvalid).1
  | closed => exact hr.carried rfl rfl rfl
  | notified => exact hr.carried rfl rfl rfl

/-- The rows of admitted calls have bounded texts. -/
theorem rowTexts {ops : List Op} (hops : ∀ op ∈ ops, op.Admitted) :
    ∀ r ∈ tableAfter ops, RowTexts r := by
  have hlog : ∀ c ∈ history ops, c.1.Admitted := fun c hc => hops c.1 (mem_of_mem_log hc)
  refine history_induction (R := fun l t => (∀ c ∈ l, c.1.Admitted) → ∀ r ∈ t, RowTexts r)
    (fun _ => List.forall_mem_nil _) ?_ ops hlog
  intro before op t' o ih h hall
  have hop : op.Admitted := hall (op, o) (by simp)
  have hbefore := ih fun c hc => hall c (List.mem_append_left _ hc)
  rcases step_effect (ids_nodup before) h with hrows | ⟨p, r, hp, hfresh, rfl⟩
  · intro r' hr'
    obtain ⟨r, hr, hchange⟩ := exists_of_forall₂_right hrows hr'
    exact hchange.texts hop (hbefore r hr)
  · exact List.forall_mem_append.mpr ⟨hbefore, List.forall_mem_singleton.mpr (hfresh.texts hop hp)⟩

/-- The affected sets are bounded, and hold names of objects. -/
theorem RowInvariant.affected {r : Incident} (h : RowInvariant r) :
    (r.affectedHosts.length ≤ 100 ∧ ∀ s ∈ r.affectedHosts, Bounded s) ∧
      r.affectedServices.length ≤ 100 ∧ ∀ s ∈ r.affectedServices, Bounded s := by
  rw [h.hosts_eq, h.services_eq]
  refine ⟨⟨List.length_take_le _ _, fun s hs => ?_⟩, List.length_take_le _ _, fun s hs => ?_⟩
  · obtain ⟨o, -, rfl⟩ := List.mem_map.mp (mem_sortedSet.mp (List.mem_of_mem_take hs))
    exact o.bounds.1
  · obtain ⟨o, -, hservice⟩ := List.mem_filterMap.mp (mem_sortedSet.mp (List.mem_of_mem_take hs))
    exact o.bounds.2 s hservice

/-- **Incident rows**: every row of a run fits the response. -/
theorem worldAfter_presentable (acts : List Activity) :
    ∀ r ∈ (worldAfter acts).database.incidents, r.Presentable := by
  obtain ⟨ops, hadmitted, htable⟩ := worldAfter_stored acts
  rw [htable]
  intro r hr
  have htexts := rowTexts hadmitted r hr
  obtain ⟨hhosts, hservices⟩ := (invariant_of_mem hr).affected
  exact ⟨htexts.ruleName, htexts.groupKey, htexts.summary, hhosts, hservices,
    htexts.acknowledgedBy⟩

/-- A stored context that validates is the one that is shown. -/
theorem safeDecisionContext_of_valid {r : Incident} (h : r.decisionContext.Valid) :
    ∃ context, DecisionContext.modelValidate r.decisionContext = .ok context ∧
      safeDecisionContext r = context := by
  have hvalidate : DecisionContext.modelValidate r.decisionContext =
      .ok ⟨r.decisionContext.fill, h⟩ := modelValidate_of_valid h
  refine ⟨_, hvalidate, ?_⟩
  unfold safeDecisionContext
  rw [hvalidate]

/-- **Whatever is written can be read.**  After any run, every audit row and every incident has its
response, an incident with the context that is stored; and a page of such rows never fails. -/
theorem written_is_readable (acts : List Activity) :
    (∀ row ∈ (worldAfter acts).database.incidentEvents,
      ∃ response, auditEventResponse (rowToAuditEventListRow row) = .ok response) ∧
    (∀ r ∈ (worldAfter acts).database.incidents,
      (∃ context, DecisionContext.modelValidate r.decisionContext = .ok context ∧
        safeDecisionContext r = context) ∧ ∃ response, incidentResponse r = .ok response) ∧
    (∀ rows ⊆ (worldAfter acts).database.incidentEvents, ∃ page,
      rows.mapM (fun row => auditEventResponse (rowToAuditEventListRow row)) = .ok page) ∧
    ∀ rows ⊆ (worldAfter acts).database.incidents, ∃ page, rows.mapM incidentResponse = .ok page := by
  have hevents : ∀ row ∈ (worldAfter acts).database.incidentEvents,
      ∃ response, auditEventResponse (rowToAuditEventListRow row) = .ok response :=
    fun row hrow => (worldAfter_listable acts row hrow).response
  have hincidents : ∀ r ∈ (worldAfter acts).database.incidents,
      ∃ response, incidentResponse r = .ok response :=
    fun r hr => incidentResponse_ok_iff.mpr (worldAfter_presentable acts r hr)
  refine ⟨hevents, fun r hr => ⟨?_, hincidents r hr⟩, fun rows hrows => ?_, fun rows hrows => ?_⟩
  · exact safeDecisionContext_of_valid ((worldAfter_stored acts).limits hr).context
  · exact mapM_ok_iff.mpr fun row hrow => hevents row (hrows hrow)
  · exact mapM_ok_iff.mpr fun r hr => hincidents r (hrows hr)

end Correlia
