import Correlia.Poisoning
import Correlia.Service

/-!
# DeliveryRecords — an incident keeps the latest result of every plugin

Every writer rebuilds the whole context of a row.  Here: no writer but a recording changes the
delivery records of a row (`step_keeps`), a decision plans deliveries once per incident and for at
most 20 plugins (`applyProblem_plans`), so there is always room for a record.
-/

namespace Correlia

open Lib

/-- The delivery records a row holds. -/
def Incident.deliveries (r : Incident) : List NotificationDeliveryRecord :=
  r.decisionContext.fill.notificationDeliveryResults

/-! ### Contexts -/

theorem preserve_deliveries {existing incoming d : ContextData}
    (hincoming : incoming.fill.notificationDeliveryResults = [])
    (h : preserveNotificationDeliveryResults existing incoming = .ok d) :
    d.fill.notificationDeliveryResults = existing.fill.notificationDeliveryResults := by
  unfold preserveNotificationDeliveryResults at h
  cases hrecords : existing.notificationDeliveryResults with
  | none =>
    rw [hrecords] at h
    cases h
    rw [hincoming, ContextData.fill, hrecords]
    rfl
  | some records =>
    rw [hrecords] at h
    obtain ⟨-, rfl⟩ := normalizeContext_eq_ok.mp h
    rw [ContextFields.fill_dump, ContextData.fill, ContextData.fill, hrecords]

theorem lifecycleContext_deliveries {r : Incident} {a : LifecycleArgs} {d : ContextData}
    (h : lifecycleContext r a = .ok d) : d.fill.notificationDeliveryResults = r.deliveries := by
  obtain ⟨-, rfl⟩ := lifecycleContext_eq_ok.mp h
  rfl

/-- The records after a recording: that of its plugin is replaced. -/
def recordsWith (records : List NotificationDeliveryRecord) (record : NotificationDeliveryRecord) :
    List NotificationDeliveryRecord :=
  ((Dict.ofItems (records.map fun r => (r.pluginName, r))).insert record.pluginName
    record).entries.map Prod.snd

theorem validatedNotificationContext_eq {context : ContextData} (hcontext : context.Valid)
    (name : BoundedString) (result : NotificationResult) :
    validatedNotificationContext context name.val result =
      normalizeContext { context.fill.dump with
        notificationDeliveryResults := some (recordsWith context.fill.notificationDeliveryResults
          ⟨name, safeDeliveryResult result⟩) } := by
  have hexisting : DecisionContext.modelValidate context = .ok ⟨context.fill, hcontext⟩ :=
    modelValidate_of_valid hcontext
  have hname : BoundedString.validate "plugin_name" name.val = .ok name := by
    rw [BoundedString.validate_eq_ok]
  unfold validatedNotificationContext NotificationDeliveryRecord.validate
  rw [hexisting, hname]
  rfl

section

variable {records : List NotificationDeliveryRecord} {record r : NotificationDeliveryRecord}

theorem mem_recordsWith (h : (records.map fun r => r.pluginName).Nodup) :
    r ∈ recordsWith records record ↔
      r = record ∨ (r ∈ records ∧ r.pluginName ≠ record.pluginName) := by
  have hkeys : ((records.map fun r => (r.pluginName, r)).map Prod.fst).Nodup := by
    rwa [List.map_map]
  unfold recordsWith
  rw [List.mem_map]
  constructor
  · rintro ⟨e, he, rfl⟩
    rcases Dict.mem_insert.mp he with rfl | ⟨he, hne⟩
    · exact Or.inl rfl
    · obtain ⟨old, hold, rfl⟩ := List.mem_map.mp ((Dict.mem_ofItems hkeys).mp he)
      exact Or.inr ⟨hold, hne⟩
  · rintro (rfl | ⟨hr, hne⟩)
    · exact ⟨_, Dict.mem_insert.mpr (Or.inl rfl), rfl⟩
    · have hold := (Dict.mem_ofItems hkeys).mpr (List.mem_map.mpr ⟨r, hr, rfl⟩)
      exact ⟨_, Dict.mem_insert.mpr (Or.inr ⟨hold, hne⟩), rfl⟩

theorem recordsWith_strict :
    Strict (fun r : NotificationDeliveryRecord => r.pluginName.val)
      (recordsWith records record) := by
  -- every entry is filed under its own plugin
  have hown : ∀ e ∈ ((Dict.ofItems (records.map fun r => (r.pluginName, r))).insert record.pluginName
      record).entries, e.1 = e.2.pluginName := by
    intro e he
    rcases Dict.mem_insert.mp he with rfl | ⟨he, -⟩
    · rfl
    · obtain ⟨old, -, rfl⟩ := List.mem_map.mp (Dict.mem_of_mem_ofItems he)
      rfl
  refine List.pairwise_map.mpr ((Dict.strict _).imp_of_mem fun ha hb hlt => ?_)
  rw [hown _ ha, hown _ hb] at hlt
  exact hlt

end

theorem deliveryErrors_eq_nil {records : List NotificationDeliveryRecord} :
    deliveryErrors records = [] ↔
      records.length ≤ 20 ∧ (records.map fun r => r.pluginName).Nodup := by
  simp only [deliveryErrors, thenErrors_eq_nil, check_eq_nil, decide_eq_true_eq]

/-- The context of a row with other delivery records is valid if these are. -/
theorem ContextData.Valid.withDeliveries {context : ContextData} (h : context.Valid)
    {records : List NotificationDeliveryRecord} (hrecords : deliveryErrors records = []) :
    ContextData.Valid { context.fill.dump with notificationDeliveryResults := some records } := by
  have hold := ContextFields.errors_eq_nil.mp h
  refine ContextFields.errors_eq_nil.mpr ?_
  exact ⟨hold.fingerprint, hold.sourceId, hold.ruleName, hold.groupKey, hold.matchedRuleNames,
    hold.enrichmentRefs, hold.configHash, hold.notes, hold.thresholdCount, hold.actionNames,
    hrecords⟩

/-! ### What keeps the records -/

/-- A row that keeps its delivery records. -/
structure SameRecords (r r' : Incident) : Prop where
  id : r'.id = r.id
  deliveries : r'.deliveries = r.deliveries

theorem SameRecords.refl (r : Incident) : SameRecords r r := ⟨rfl, rfl⟩

/-- Every row keeps its records, and a new row has none. -/
def KeepsRecords (t t' : List Incident) : Prop :=
  ∀ r' ∈ t', (∃ r ∈ t, SameRecords r r') ∨ (r'.deliveries = [] ∧ ∀ r ∈ t, r.id ≠ r'.id)

theorem keepsRecords_refl (t : List Incident) : KeepsRecords t t := fun r hr =>
  Or.inl ⟨r, hr, SameRecords.refl r⟩

theorem keepsRecords_of_rows {t t' : List Incident} (h : List.Forall₂ SameRecords t t') :
    KeepsRecords t t' := fun _ hr => Or.inl (exists_of_forall₂_right h hr)

theorem keepsRecords_setRow {t : List Incident} {c c' : Incident} (hc : c ∈ t)
    (h : SameRecords c c') : KeepsRecords t (setRow Incident.id c' t) := by
  intro r' hr'
  obtain ⟨r, hr, rfl⟩ := List.mem_map.mp hr'
  left
  by_cases hid : r.id = c'.id
  · rw [if_pos (decide_eq_true hid)]
    exact ⟨c, hc, h⟩
  · rw [if_neg (by simpa using hid)]
    exact ⟨r, hr, SameRecords.refl r⟩

section

variable {now : Timestamptz} {t t' : List Incident}

/-! ### A matched problem -/

theorem problemInput_deliveries {configHash : Option String} {event : NormalizedEvent}
    {decision : RuleMatch} {input : IncidentUpsertInput}
    (h : problemInput configHash event decision = .ok input) :
    (decisionContextDump input).fill.notificationDeliveryResults = [] := by
  obtain ⟨context, hcontext, hinput⟩ := bind_eq_ok.mp h
  obtain ⟨deliveries, hdeliveries, hcontext⟩ := bind_eq_ok.mp hcontext
  cases hdeliveries
  rw [liftError_eq_ok, modelValidate_eq_ok] at hcontext
  rw [liftError_eq_ok, UpsertArgs.postInit_eq_ok] at hinput
  obtain ⟨hpasses, rfl⟩ := hinput
  rw [decisionContextDump_deliveries]
  show context.val.notificationDeliveryResults = []
  rw [hcontext]

theorem applyProblem_keeps {id : UUID} {configHash : Option String} {event : NormalizedEvent}
    {decision : RuleMatch} {result : IncidentAggregationResult} (ht : (t.map Incident.id).Nodup)
    (h : applyProblem now id configHash event decision t = .ok (t', result)) :
    KeepsRecords t t' := by
  obtain ⟨-, input, t₁, w, threshold, final, hinput, hrec, -, hfinal, rfl, -⟩ := applyProblem_eq_ok h
  have hincoming := problemInput_deliveries hinput
  have hwritten : final.val.dump.fill.notificationDeliveryResults = w.incident.deliveries :=
    decisionContext_deliveries hfinal
  have hrow : ∀ r' ∈ updateWhere (fun r => decide (r.id = w.incident.id))
      (fun r => { r with decisionContext := final.val.dump }) t₁,
      (r' ∈ t₁ ∧ r'.id ≠ w.incident.id) ∨
        (r'.id = w.incident.id ∧ r'.deliveries = w.incident.deliveries) := by
    intro r' hr'
    rcases mem_updateWhere_cases hr' with ⟨hmem, hid⟩ | ⟨r, -, hid, rfl⟩
    · exact Or.inl ⟨hmem, of_decide_eq_false hid⟩
    · exact Or.inr ⟨of_decide_eq_true hid, hwritten⟩
  intro r' hr'
  cases recordProblemIncident_eq_ok ht hrec with
  | inserted state eventTime hstate htime hlen hkey hid =>
    rcases hrow r' hr' with ⟨hmem, hne⟩ | ⟨hself, hdeliveries⟩
    · rcases List.mem_append.mp hmem with hmem | hmem
      · exact Or.inl ⟨r', hmem, SameRecords.refl r'⟩
      · exact absurd (congrArg Incident.id (List.mem_singleton.mp hmem)) hne
    · exact Or.inr ⟨hdeliveries.trans hincoming, fun r hr hrid => hid r hr (hrid.trans hself)⟩
  | merged existing w' context eventTime hmem hopen hkey hw hcontext htime hlen =>
    have hkept : (mergedIncident now input eventTime w' context existing).deliveries =
        existing.deliveries := preserve_deliveries hincoming hcontext
    rcases hrow r' hr' with ⟨hmem', hne⟩ | ⟨hself, hdeliveries⟩
    · rcases mem_updateWhere_cases hmem' with ⟨hmem', -⟩ | ⟨r, -, -, heq⟩
      · exact Or.inl ⟨r', hmem', SameRecords.refl r'⟩
      · exact absurd (congrArg Incident.id heq) hne
    · exact Or.inl ⟨existing, hmem, hself, hdeliveries.trans hkept⟩

/-! ### Lifecycle calls -/

theorem RecoveryRow.sameRecords {covered : IncidentObject → Bool} {a : LifecycleArgs}
    {r r' : Incident} (h : RecoveryRow now covered a r r') : SameRecords r r' := by
  rcases h with ⟨-, context, hcontext, rfl⟩ | ⟨-, rfl⟩
  · refine ⟨recoveredIncident_id _ _ _ _, ?_⟩
    rw [Incident.deliveries, recoveredIncident_context, lifecycleContext_deliveries hcontext]
  · exact SameRecords.refl _

theorem recoverAll_keeps {covered : IncidentObject → Bool} {a : LifecycleArgs}
    {writes : List LifecycleWriteResult} (ht : (t.map Incident.id).Nodup)
    (h : recoverAll now covered a t = .ok (t', writes)) : KeepsRecords t t' :=
  keepsRecords_of_rows ((recoverAll_rows ht h).imp fun _ _ hrow => hrow.sameRecords)

theorem ack_keeps {id : UUID} {operator : String} {result : Option LifecycleWriteResult}
    (ht : (t.map Incident.id).Nodup) (h : ackOpenIncident now id operator t = .ok (t', result)) :
    KeepsRecords t t' := by
  rcases ackOpenIncident_rows ht h with rfl | ⟨c, context, hc, -, -, hcontext, rfl⟩
  · exact keepsRecords_refl _
  · exact keepsRecords_setRow hc ⟨rfl, lifecycleContext_deliveries hcontext⟩

theorem close_keeps {id : UUID} {operator reason : String} {result : Option LifecycleWriteResult}
    (ht : (t.map Incident.id).Nodup)
    (h : closeOpenIncident now id operator reason t = .ok (t', result)) : KeepsRecords t t' := by
  rcases closeOpenIncident_rows ht h with rfl | ⟨c, context, hc, -, -, hcontext, rfl⟩
  · exact keepsRecords_refl _
  · exact keepsRecords_setRow hc ⟨rfl, lifecycleContext_deliveries hcontext⟩

theorem ExpiryRow.sameRecords {r r' : Incident} (h : ExpiryRow now r r') : SameRecords r r' := by
  rcases h with ⟨-, context, hcontext, rfl⟩ | rfl
  · exact ⟨rfl, lifecycleContext_deliveries hcontext⟩
  · exact SameRecords.refl _

/-- **No other call drops or alters a record.** -/
theorem step_keeps {op : Op} {o : Answer} (ht : (t.map Incident.id).Nodup) (hop : op.Silent)
    (h : step op t = .ok (t', o)) : KeepsRecords t t' := by
  cases op with
  | recordProblem now id input => exact hop.elim
  | applyProblem now id configHash event decision =>
    obtain ⟨result, hresult, -⟩ := answer_eq_ok.mp h
    exact applyProblem_keeps ht hresult
  | hostRecovery now a =>
    obtain ⟨writes, hwrites, -⟩ := answer_eq_ok.mp h
    rw [resolveHostRecovery_eq ht] at hwrites
    exact recoverAll_keeps ht hwrites
  | serviceRecovery now a service =>
    obtain ⟨writes, hwrites, -⟩ := answer_eq_ok.mp h
    rw [resolveServiceRecovery_eq ht] at hwrites
    exact recoverAll_keeps ht hwrites
  | ack now id operator =>
    obtain ⟨result, hresult, -⟩ := answer_eq_ok.mp h
    exact ack_keeps ht hresult
  | close now id operator reason =>
    obtain ⟨result, hresult, -⟩ := answer_eq_ok.mp h
    exact close_keeps ht hresult
  | expire now locked limit =>
    obtain ⟨result, hresult, -⟩ := answer_eq_ok.mp h
    exact keepsRecords_of_rows
      ((expireStaleIncidents_rows ht hresult).imp fun _ _ hrow => hrow.sameRecords)
  | recordNotification now id pluginName result => exact hop.elim

end

/-! ### What a decision plans -/

/-- A decision that plans deliveries crosses its incident for the first time, and names at most 20
plugins. -/
theorem applyProblem_plans {now : Timestamptz} {id : UUID} {configHash : Option String}
    {event : NormalizedEvent} {decision : RuleMatch} {t t' : List Incident}
    {result : IncidentAggregationResult} (ht : (t.map Incident.id).Nodup)
    (h : applyProblem now id configHash event decision t = .ok (t', result))
    (hplanned : result.notificationIntent = .dispatchPlanned) :
    (decision.val.actions.length ≤ 20 ∧ ∀ n ∈ decision.val.actions, Bounded n) ∧
      (∃ r ∈ t', r.id = result.incidentId ∧ r.thresholdCrossed = true) ∧
      ∀ r ∈ t, r.id = result.incidentId → r.thresholdCrossed = false := by
  obtain ⟨p, -, heffect, hintent⟩ := applyProblem_effect ht h
  obtain ⟨-, hfirst⟩ := hintent.mp hplanned
  constructor
  · obtain ⟨-, input, t₁, w, threshold, final, -, -, -, hfinal, -⟩ := applyProblem_eq_ok h
    obtain ⟨deliveries, -, hfinal⟩ := bind_eq_ok.mp hfinal
    rw [liftError_eq_ok, modelValidate_eq_ok] at hfinal
    have hactions := (ContextFields.errors_eq_nil.mp final.valid).actionNames
    rwa [hfinal] at hactions
  · obtain ⟨r, hr, hid⟩ := heffect.row_exists
    rcases heffect.row_cases hr with
      ⟨-, hne⟩ | ⟨-, ⟨hfresh, hout⟩ | ⟨old, update, hold, hmerged, hout⟩⟩
    · exact absurd hid hne
    · rw [hout] at hfirst
      refine ⟨⟨r, hr, hid, hfirst⟩, fun x hx hxid => ?_⟩
      exact absurd (hxid.trans (hid.symm.trans hfresh.id_eq)) (hfresh.id_free x hx)
    · rw [hout] at hfirst
      have hcrossed : (!old.thresholdCrossed &&
        (old.thresholdCrossed || update.state.val.crossed)) = true := hfirst
      rw [Bool.and_eq_true, Bool.not_eq_true'] at hcrossed
      refine ⟨⟨r, hr, hid, hmerged.thresholdCrossed.trans hcrossed.2⟩, fun x hx hxid => ?_⟩
      have hsame : x.id = old.id := hxid.trans (hid.symm.trans hmerged.id_eq)
      rw [eq_of_key ht hx hold hsame]
      exact hcrossed.1

/-- What is due is planned once, for crossed incidents, with room for every record. -/
structure World.Planned (w : World) : Prop where
  crossed : ∀ d ∈ w.due, ∃ r ∈ w.database.incidents, r.id = d.1 ∧ r.thresholdCrossed = true
  bounded : ∀ d ∈ w.due, Bounded d.2
  once : w.due.Nodup
  few : ∀ id, (w.due.filter fun d => decide (d.1 = id)).length ≤ 20

theorem step_crossed {op : Op} {t t' : List Incident} {o : Answer} (ht : (t.map Incident.id).Nodup)
    (h : step op t = .ok (t', o)) {r : Incident} (hr : r ∈ t) (hcrossed : r.thresholdCrossed = true) :
    ∃ r' ∈ t', r'.id = r.id ∧ r'.thresholdCrossed = true := by
  rcases step_effect ht h with hrows | ⟨p, x, -, -, rfl⟩
  · obtain ⟨r', hr', hchange⟩ := exists_of_forall₂_left hrows hr
    exact ⟨r', hr', hchange.id_eq, hchange.thresholdCrossed hcrossed⟩
  · exact ⟨r, List.mem_append_left _ hr, rfl, hcrossed⟩

section

variable {w w' : World} {a : Activity} {o : Unit}

theorem World.Stored.ids (h : w.Stored) : (w.database.incidents.map Incident.id).Nodup := by
  obtain ⟨ops, -, htable⟩ := h
  rw [htable]
  exact ids_nodup ops

theorem World.Stored.limits (h : w.Stored) {r : Incident} (hr : r ∈ w.database.incidents) :
    RowLimits r := by
  obtain ⟨ops, -, htable⟩ := h
  rw [htable] at hr
  exact rowLimits hr

/-- Only a commit plans deliveries. -/
theorem serve_due (h : serve a w = .ok (w', o)) : w'.due = w.due ∨
    ∃ call k, a = .ingress call ∧ call.commit w.database = some k ∧
      w' = ⟨k.after, w.due ++ k.effect.planned⟩ := by
  cases a with
  | ingress call =>
    obtain ⟨k, hcommit, rfl⟩ := serve_ingress h
    exact Or.inr ⟨call, k, rfl, hcommit, rfl⟩
  | complete now completion =>
    obtain ⟨-, ⟨-, rfl⟩ | ⟨result, t, found, -, -, rfl⟩⟩ := serve_complete h
    · exact Or.inl rfl
    · exact Or.inl rfl
  | _ =>
    obtain ⟨t, result, -, rfl⟩ := World.write_eq_ok h
    exact Or.inl rfl

theorem serve_crossed (hids : (w.database.incidents.map Incident.id).Nodup)
    (h : serve a w = .ok (w', o)) {r : Incident} (hr : r ∈ w.database.incidents)
    (hcrossed : r.thresholdCrossed = true) :
    ∃ r' ∈ w'.database.incidents, r'.id = r.id ∧ r'.thresholdCrossed = true := by
  rcases serve_op h with hsame | ⟨op, answer, -, -, hstep⟩
  · exact ⟨r, hsame ▸ hr, rfl, hcrossed⟩
  · exact step_crossed hids hstep hr hcrossed

theorem applyEvent_problem {p : Icinga2DecisionProcessor} {req : IngressRequest} {e : AcceptedEvent}
    {t t' : List Incident} {result : IncidentAggregationResult} {decision : RuleMatch}
    (h : p.applyEvent req e t = .ok (t', .problem result decision)) :
    applyProblem req.now req.incidentId p.configHash e.event decision t = .ok (t', result) := by
  unfold Icinga2DecisionProcessor.applyEvent at h
  split at h
  · obtain ⟨⟨t'', result'⟩, happly, h⟩ := bind_eq_ok.mp h
    cases h
    exact happly
  · obtain ⟨_, -, h⟩ := bind_eq_ok.mp h
    cases h
  · cases h

/-- What a commit plans: nothing, or deliveries of one incident that had none. -/
theorem Effect.planned_cases {p : Icinga2DecisionProcessor} {req : IngressRequest}
    {e : AcceptedEvent} {t t' : List Incident} {effect : Effect} (ht : (t.map Incident.id).Nodup)
    (h : p.applyEvent req e t = .ok (t', effect)) : effect.planned = [] ∨
      ∃ (id : UUID) (plugins : List String),
        effect.planned = plugins.map (fun n => (id, n)) ∧ plugins.Nodup ∧ plugins.length ≤ 20 ∧
        (∀ n ∈ plugins, Bounded n) ∧
        (∃ r ∈ t', r.id = id ∧ r.thresholdCrossed = true) ∧
        ∀ r ∈ t, r.id = id → r.thresholdCrossed = false := by
  cases effect with
  | problem result decision =>
    by_cases hplanned : result.notificationIntent = .dispatchPlanned
    · obtain ⟨⟨hlength, hbounded⟩, hafter, hbefore⟩ :=
        applyProblem_plans ht (applyEvent_problem h) hplanned
      refine Or.inr ⟨result.incidentId, sortedSet id decision.val.actions, if_pos hplanned,
        (sortedSet_strict Function.injective_id).nodup, ?_, ?_, hafter, hbefore⟩
      · calc (sortedSet id decision.val.actions).length
            = decision.val.actions.dedup.length := List.length_insertionSort _ _
          _ ≤ decision.val.actions.length := (List.dedup_sublist _).length_le
          _ ≤ 20 := hlength
      · exact fun n hn => hbounded n (mem_sortedSet.mp hn)
    · exact Or.inl (if_neg hplanned)
  | recovery result => exact Or.inl rfl
  | noop => exact Or.inl rfl

theorem World.Planned.step (hids : (w.database.incidents.map Incident.id).Nodup) (hw : w.Planned)
    (h : serve a w = .ok (w', o)) : w'.Planned := by
  have hcrossed : ∀ d ∈ w.due, ∃ r ∈ w'.database.incidents, r.id = d.1 ∧
      r.thresholdCrossed = true := by
    intro d hd
    obtain ⟨r, hr, hid, hcrossed⟩ := hw.crossed d hd
    obtain ⟨r', hr', hid', hcrossed'⟩ := serve_crossed hids h hr hcrossed
    exact ⟨r', hr', hid'.trans hid, hcrossed'⟩
  rcases serve_due h with hdue | ⟨call, k, rfl, hcommit, rfl⟩
  · rw [← hdue] at hcrossed
    exact ⟨hcrossed, hdue ▸ hw.bounded, hdue ▸ hw.once, hdue ▸ hw.few⟩
  · obtain ⟨decision, -, -, hcommitted, -⟩ := call.commit_eq_some hcommit
    rcases Effect.planned_cases hids hcommitted.applied with
      hnone | ⟨id, plugins, hplanned, hnodup, hlength, hbounded, ⟨r, hr, hid, hafter⟩, hbefore⟩
    · rw [hnone, List.append_nil]
      exact ⟨hcrossed, hw.bounded, hw.once, hw.few⟩
    · -- the incident has nothing due yet, for it has not crossed before
      have hfresh : ∀ d ∈ w.due, d.1 ≠ id := by
        intro d hd hdid
        obtain ⟨x, hx, hxid, hxcrossed⟩ := hw.crossed d hd
        cases (hbefore x hx (hxid.trans hdid)).symm.trans hxcrossed
      rw [hplanned]
      refine ⟨List.forall_mem_append.mpr ⟨hcrossed, ?_⟩, List.forall_mem_append.mpr ⟨hw.bounded, ?_⟩,
        List.nodup_append'.mpr ⟨hw.once, ?_, ?_⟩, fun id' => ?_⟩
      · intro d hd
        obtain ⟨n, -, rfl⟩ := List.mem_map.mp hd
        exact ⟨r, hr, hid, hafter⟩
      · intro d hd
        obtain ⟨n, hn, rfl⟩ := List.mem_map.mp hd
        exact hbounded n hn
      · exact hnodup.map fun _ _ heq => (Prod.mk.inj heq).2
      · intro d hd hd'
        obtain ⟨n, -, rfl⟩ := List.mem_map.mp hd'
        exact hfresh _ hd rfl
      · rw [List.filter_append, List.length_append]
        by_cases hsame : id = id'
        · have hold : (w.due.filter fun d => decide (d.1 = id')) = [] :=
            List.filter_eq_nil_iff.mpr fun d hd heq =>
              hfresh d hd ((of_decide_eq_true heq).trans hsame.symm)
          rw [hold, List.length_nil, Nat.zero_add]
          exact (List.length_filter_le _ _).trans (by rwa [List.length_map])
        · have hnew : ((plugins.map fun n => (id, n)).filter fun d => decide (d.1 = id')) = [] := by
            refine List.filter_eq_nil_iff.mpr fun d hd heq => hsame ?_
            obtain ⟨n, -, rfl⟩ := List.mem_map.mp hd
            exact of_decide_eq_true heq
          rw [hnew, List.length_nil, Nat.add_zero]
          exact hw.few id'

end

theorem worldAfter_planned (acts : List Activity) : (worldAfter acts).Planned := by
  have hstart : World.Planned ⟨⟨[], []⟩, []⟩ := ⟨nofun, nofun, List.nodup_nil, fun _ => Nat.zero_le _⟩
  refine service_induction (R := fun _ w => w.Planned) hstart ?_ acts
  intro before a w' o hw h
  exact hw.step (worldAfter_stored before).ids h

/-! ### The records against the history -/

/-- The transaction records a result for the plugin. -/
def RecordsFor (id : UUID) (pluginName : String) (c : Activity × Unit) : Prop :=
  ∃ now completion result, c.1 = .complete now completion ∧ completion.target = (id, pluginName) ∧
    completion.recorded = some result

/-- The transaction records this result, its message made safe. -/
def Records (id : UUID) (record : NotificationDeliveryRecord) (c : Activity × Unit) : Prop :=
  ∃ now completion result, c.1 = .complete now completion ∧
    completion.target = (id, record.pluginName.val) ∧ completion.recorded = some result ∧
    record.result = safeDeliveryResult result

theorem Records.for {id : UUID} {record : NotificationDeliveryRecord} {c : Activity × Unit}
    (h : Records id record c) : RecordsFor id record.pluginName.val c := by
  obtain ⟨now, completion, result, hactivity, htarget, hrecorded, -⟩ := h
  exact ⟨now, completion, result, hactivity, htarget, hrecorded⟩

/-- The record is the latest one of its plugin. -/
def Latest (l : List (Activity × Unit)) (id : UUID) (record : NotificationDeliveryRecord) : Prop :=
  HeldAfter (Records id record) (RecordsFor id record.pluginName.val) l

theorem Latest.exists {l : List (Activity × Unit)} {id : UUID} {record : NotificationDeliveryRecord}
    (h : Latest l id record) : ∃ c ∈ l, RecordsFor id record.pluginName.val c := by
  obtain ⟨before, c, after, rfl, hrecords, -⟩ := h
  exact ⟨c, List.mem_append_right _ List.mem_cons_self, hrecords.for⟩

/-- What the rows hold of a history. -/
structure Ledger (w : World) (l : List (Activity × Unit)) : Prop where
  targets : ∀ c ∈ l, ∀ id pluginName, RecordsFor id pluginName c → (id, pluginName) ∈ w.due
  sorted : ∀ r ∈ w.database.incidents,
    Strict (fun record : NotificationDeliveryRecord => record.pluginName.val) r.deliveries
  latest : ∀ r ∈ w.database.incidents, ∀ record, record ∈ r.deliveries ↔ Latest l r.id record

theorem Strict.names_nodup {records : List NotificationDeliveryRecord}
    (h : Strict (fun record : NotificationDeliveryRecord => record.pluginName.val) records) :
    (records.map fun record => record.pluginName).Nodup :=
  List.pairwise_map.mpr (h.imp fun hlt heq => hlt.ne (congrArg Subtype.val heq))

section

variable {w w' : World} {l : List (Activity × Unit)} {now : Timestamptz}

/-- Every record of a row is for a delivery that is due. -/
theorem Ledger.due (h : Ledger w l) {r : Incident} (hr : r ∈ w.database.incidents)
    {record : NotificationDeliveryRecord} (hrecord : record ∈ r.deliveries) :
    (r.id, record.pluginName.val) ∈ w.due := by
  obtain ⟨c, hc, hfor⟩ := ((h.latest r hr record).mp hrecord).exists
  exact h.targets c hc _ _ hfor

/-- There is room for the record of a due delivery. -/
theorem Ledger.room (h : Ledger w l) (hw : w.Planned) {r : Incident}
    (hr : r ∈ w.database.incidents) {name : BoundedString} (hdue : (r.id, name.val) ∈ w.due)
    (result : NotificationResult) : deliveryErrors (recordsWith r.deliveries ⟨name, result⟩) = [] := by
  have hold := Strict.names_nodup (h.sorted r hr)
  have hstrict : Strict (fun record : NotificationDeliveryRecord => record.pluginName.val)
      (recordsWith r.deliveries ⟨name, result⟩) := recordsWith_strict
  have hnew := Strict.names_nodup hstrict
  refine deliveryErrors_eq_nil.mpr ⟨?_, hnew⟩
  -- the plugins of the records are among those that are due for the incident
  have hsub : (recordsWith r.deliveries ⟨name, result⟩).map (fun record =>
      (r.id, record.pluginName.val)) ⊆ w.due.filter fun d => decide (d.1 = r.id) := by
    intro d hd
    obtain ⟨record, hrecord, rfl⟩ := List.mem_map.mp hd
    refine List.mem_filter.mpr ⟨?_, decide_eq_true rfl⟩
    rcases (mem_recordsWith hold).mp hrecord with rfl | ⟨hrecord, -⟩
    · exact hdue
    · exact h.due hr hrecord
  have hpairs : ((recordsWith r.deliveries ⟨name, result⟩).map fun record =>
      (r.id, record.pluginName.val)).Nodup := by
    refine List.pairwise_map.mpr ((List.pairwise_map.mp hnew).imp fun hne heq => hne ?_)
    exact Subtype.ext (Prod.mk.inj heq).2
  have hlength := (hpairs.subperm hsub).length_le
  rw [List.length_map] at hlength
  exact hlength.trans (hw.few r.id)

/-- A recording with room for it. -/
theorem recordNotificationResult_row (now : Timestamptz) {t : List Incident} (ht : (t.map Incident.id).Nodup)
    {r : Incident} (hr : r ∈ t) (hcontext : r.decisionContext.Valid) (name : BoundedString)
    (result : NotificationResult) (hroom : deliveryErrors
      (recordsWith r.deliveries ⟨name, safeDeliveryResult result⟩) = []) :
    ∃ context, recordNotificationResult now r.id name.val result t =
        .ok (setRow Incident.id (notifiedIncident now result.success context r) t, true) ∧
      context.fill.notificationDeliveryResults =
        recordsWith r.deliveries ⟨name, safeDeliveryResult result⟩ := by
  have hfilter : t.filter (fun x => decide (x.id = r.id)) = [r] := by
    have := filter_key ht hr (g := fun _ => true) rfl
    simpa only [Bool.and_true] using this
  obtain ⟨context, hok, hrecords⟩ : ∃ context,
      validatedNotificationContext r.decisionContext name.val result = .ok context ∧
        context.fill.notificationDeliveryResults =
          recordsWith r.deliveries ⟨name, safeDeliveryResult result⟩ := by
    rw [validatedNotificationContext_eq hcontext]
    exact ⟨_, normalizeContext_eq_ok.mpr ⟨hcontext.withDeliveries hroom, rfl⟩, rfl⟩
  refine ⟨context, ?_, hrecords⟩
  unfold recordNotificationResult
  rw [hfilter]
  dsimp only
  rw [hok, ok_bind, ← updateWhere_id ht hr (notifiedIncident now result.success context) rfl]
  rfl

/-- A due delivery is recorded, whatever its result: no bound is in the way. -/
theorem Ledger.records (now : Timestamptz) (h : Ledger w l) (hstored : w.Stored) (hw : w.Planned) {id : UUID}
    {pluginName : String} (hdue : (id, pluginName) ∈ w.due) (result : NotificationResult) :
    ∃ r ∈ w.database.incidents, r.id = id ∧ ∃ (name : BoundedString) (context : ContextData),
      name.val = pluginName ∧
      recordNotificationResult now id pluginName result w.database.incidents =
        .ok (setRow Incident.id (notifiedIncident now result.success context r)
          w.database.incidents, true) ∧
      context.fill.notificationDeliveryResults =
        recordsWith r.deliveries ⟨name, safeDeliveryResult result⟩ := by
  obtain ⟨r, hr, rfl, -⟩ := hw.crossed _ hdue
  obtain ⟨name, rfl⟩ : ∃ name : BoundedString, name.val = pluginName :=
    ⟨⟨pluginName, hw.bounded _ hdue⟩, rfl⟩
  have hroom := h.room hw hr hdue (safeDeliveryResult result)
  obtain ⟨context, hok, hrecords⟩ := recordNotificationResult_row now hstored.ids hr
    (hstored.limits hr).context name result hroom
  exact ⟨r, hr, rfl, _, context, rfl, hok, hrecords⟩

/-- A step that records nothing changes no record. -/
theorem Ledger.silent (h : Ledger w l) (hw : w.Planned) {c : Activity × Unit}
    (hkeeps : KeepsRecords w.database.incidents w'.database.incidents)
    (hdue : ∀ d ∈ w.due, d ∈ w'.due) (hnone : ∀ id pluginName, ¬RecordsFor id pluginName c) :
    Ledger w' (l ++ [c]) := by
  have hlatest : ∀ id record, Latest (l ++ [c]) id record ↔ Latest l id record := by
    intro id record
    rw [Latest, heldAfter_concat, or_iff_right fun hrecords => hnone _ _ hrecords.for,
      and_iff_left (hnone _ _)]
    rfl
  constructor
  · intro d hd id pluginName hfor
    rcases List.mem_append.mp hd with hd | hd
    · exact hdue _ (h.targets d hd id pluginName hfor)
    · rw [List.mem_singleton.mp hd] at hfor
      exact absurd hfor (hnone id pluginName)
  · intro r' hr'
    rcases hkeeps r' hr' with ⟨r, hr, hkept⟩ | ⟨hnil, -⟩
    · rw [hkept.deliveries]
      exact h.sorted r hr
    · rw [hnil]
      exact List.Pairwise.nil
  · intro r' hr' record
    rw [hlatest]
    rcases hkeeps r' hr' with ⟨r, hr, hkept⟩ | ⟨hnil, hnew⟩
    · rw [hkept.deliveries, hkept.id]
      exact h.latest r hr record
    · -- nothing was recorded for an incident that was not there
      rw [hnil]
      refine iff_of_false List.not_mem_nil fun hheld => ?_
      obtain ⟨d, hd, hfor⟩ := hheld.exists
      obtain ⟨r, hr, hid, -⟩ := hw.crossed _ (h.targets d hd _ _ hfor)
      exact hnew r hr hid

/-- A recording replaces the record of its plugin. -/
theorem Ledger.record (h : Ledger w l)
    {completion : Completion} {result : NotificationResult} {r : Incident} {name : BoundedString}
    {context : ContextData} (hr : r ∈ w.database.incidents)
    (htarget : completion.target = (r.id, name.val)) (hdue : completion.target ∈ w.due)
    (hrecorded : completion.recorded = some result) {success : Bool}
    (hrecords : context.fill.notificationDeliveryResults =
      recordsWith r.deliveries ⟨name, safeDeliveryResult result⟩) :
    Ledger (w.withIncidents (setRow Incident.id (notifiedIncident now success context r)
      w.database.incidents)) (l ++ [(.complete now completion, ())]) := by
  have hfor : ∀ id pluginName, RecordsFor id pluginName (.complete now completion, ()) ↔
      (id, pluginName) = (r.id, name.val) := by
    intro id pluginName
    rw [← htarget]
    constructor
    · rintro ⟨_, _, _, hactivity, heq, -⟩
      cases hactivity
      exact heq.symm
    · intro heq
      exact ⟨now, completion, result, rfl, heq.symm, hrecorded⟩
  have hown : ∀ id record, Records id record (.complete now completion, ()) ↔
      (id, record.pluginName.val) = (r.id, name.val) ∧
        record.result = safeDeliveryResult result := by
    intro id record
    rw [← hfor]
    constructor
    · rintro ⟨_, _, _, hactivity, heq, hsome, hresult⟩
      cases hactivity
      cases hrecorded.symm.trans hsome
      exact ⟨⟨now, completion, result, rfl, heq, hrecorded⟩, hresult⟩
    · rintro ⟨⟨_, _, _, hactivity, heq, -⟩, hresult⟩
      cases hactivity
      exact ⟨now, completion, result, rfl, heq, hrecorded, hresult⟩
  have hrow : ∀ r' ∈ setRow Incident.id (notifiedIncident now success context r)
      w.database.incidents, (r' ∈ w.database.incidents ∧ r'.id ≠ r.id) ∨
        (r'.id = r.id ∧ r'.deliveries = recordsWith r.deliveries ⟨name, safeDeliveryResult result⟩) := by
    intro r' hr'
    rcases mem_updateWhere_cases hr' with ⟨hmem, hne⟩ | ⟨_, -, -, rfl⟩
    · exact Or.inl ⟨hmem, of_decide_eq_false hne⟩
    · exact Or.inr ⟨rfl, hrecords⟩
  constructor
  · intro d hd id pluginName hd'
    rcases List.mem_append.mp hd with hd | hd
    · exact h.targets d hd id pluginName hd'
    · rw [List.mem_singleton.mp hd, hfor, ← htarget] at hd'
      rw [hd']
      exact hdue
  · intro r' hr'
    rcases hrow r' hr' with ⟨hmem, -⟩ | ⟨-, heq⟩
    · exact h.sorted r' hmem
    · rw [heq]
      exact recordsWith_strict
  · intro r' hr' record
    rw [Latest, heldAfter_concat, hown, hfor]
    rcases hrow r' hr' with ⟨hmem, hne⟩ | ⟨hid, heq⟩
    · have hother : ∀ pluginName : String, ¬(r'.id, pluginName) = (r.id, name.val) :=
        fun _ heq => hne (Prod.mk.inj heq).1
      rw [or_iff_right fun hself => hother _ hself.1, and_iff_left (hother _)]
      exact h.latest r' hmem record
    · rw [hid, heq, mem_recordsWith (Strict.names_nodup (h.sorted r hr)), h.latest r hr record,
        Prod.mk.injEq, eq_self, true_and]
      refine or_congr ⟨?_, ?_⟩ (and_congr_right fun _ => not_congr ?_)
      · rintro rfl
        exact ⟨rfl, rfl⟩
      · rintro ⟨hname, hresult⟩
        obtain ⟨pluginName, result'⟩ := record
        obtain rfl : pluginName = name := Subtype.ext hname
        obtain rfl : result' = safeDeliveryResult result := hresult
        rfl
      · exact Subtype.ext_iff

theorem serve_due_mono {a : Activity} {o : Unit} (h : serve a w = .ok (w', o)) :
    ∀ d ∈ w.due, d ∈ w'.due := by
  rcases serve_due h with hdue | ⟨call, k, -, -, rfl⟩
  · rw [hdue]
    exact fun _ hd => hd
  · exact fun d hd => List.mem_append_left _ hd

/-- A transaction deletes no incident. -/
theorem serve_carries {a : Activity} {o : Unit} (hids : (w.database.incidents.map Incident.id).Nodup)
    (h : serve a w = .ok (w', o)) :
    ∀ r ∈ w.database.incidents, ∃ r' ∈ w'.database.incidents, r'.id = r.id := by
  rcases serve_op h with hsame | ⟨op, answer, -, -, hstep⟩
  · rw [hsame]
    exact fun r hr => ⟨r, hr, rfl⟩
  · exact step_keeps_rows hids hstep

theorem serve_keeps {a : Activity} {o : Unit} (hids : (w.database.incidents.map Incident.id).Nodup)
    (hsilent : ∀ now completion, a ≠ .complete now completion) (h : serve a w = .ok (w', o)) :
    KeepsRecords w.database.incidents w'.database.incidents := by
  rcases serve_op h with hsame | ⟨op, answer, -, hop | ⟨now, completion, ha⟩, hstep⟩
  · rw [hsame]
    exact keepsRecords_refl _
  · exact step_keeps hids hop hstep
  · exact absurd ha (hsilent now completion)

theorem Ledger.step {a : Activity} {o : Unit} (h : Ledger w l) (hstored : w.Stored)
    (hw : w.Planned) (hserve : serve a w = .ok (w', o)) : Ledger w' (l ++ [(a, o)]) := by
  have hother : (∀ now completion, a ≠ .complete now completion) → Ledger w' (l ++ [(a, o)]) := by
    intro hsilent
    refine h.silent hw (serve_keeps hstored.ids hsilent hserve) (serve_due_mono hserve) ?_
    rintro id pluginName ⟨now, completion, result, ha, -⟩
    exact hsilent now completion ha
  cases a with
  | complete now completion =>
    obtain ⟨hdue, ⟨hnone, rfl⟩ | ⟨result, t, found, hrecorded, hrecord, rfl⟩⟩ :=
      serve_complete hserve
    · refine h.silent hw (keepsRecords_refl _) (fun _ hd => hd) ?_
      rintro id pluginName ⟨_, _, result, hactivity, -, hsome⟩
      cases hactivity
      cases hnone.symm.trans hsome
    · have hdue' : (completion.target.1, completion.target.2) ∈ w.due := hdue
      obtain ⟨r, hr, hid, name, context, hname, hok, hrecords⟩ :=
        h.records now hstored hw hdue' result
      cases hrecord.symm.trans hok
      exact h.record hr (Prod.ext hid.symm hname.symm) hdue hrecorded hrecords
  | ingress call => exact hother fun _ _ h => by cases h
  | acknowledge now id request => exact hother fun _ _ h => by cases h
  | close now id request => exact hother fun _ _ h => by cases h
  | expire now locked limit => exact hother fun _ _ h => by cases h

end

theorem worldAfter_ledger (acts : List Activity) :
    Ledger (worldAfter acts) (transactions acts) := by
  have hstart : Ledger ⟨⟨[], []⟩, []⟩ [] :=
    ⟨List.forall_mem_nil _, List.forall_mem_nil _, List.forall_mem_nil _⟩
  refine service_induction (R := fun l w => Ledger w l) hstart ?_ acts
  intro before a w' o hledger h
  exact hledger.step (worldAfter_stored before) (worldAfter_planned before) h

theorem safeDeliveryResult_safe (result : NotificationResult) :
    (safeDeliveryResult result).message.val ∈ safeNotificationMessages := by
  unfold safeDeliveryResult
  split_ifs with h
  · exact h
  · exact (by decide : "notification result redacted" ∈ safeNotificationMessages)

/-- **Delivery records.**  After any run: the records of an incident are, in the order of the
plugins, the latest of each plugin that has recorded one, with a safe message; every other
transaction keeps them; a delivery is due once, and at most 20 for an incident; and recording one
that is due never fails. -/
theorem delivery_records (acts : List Activity) :
    (∀ r ∈ (worldAfter acts).database.incidents,
      Strict (fun record : NotificationDeliveryRecord => record.pluginName.val) r.deliveries ∧
      (∀ record, record ∈ r.deliveries ↔ Latest (transactions acts) r.id record) ∧
      ∀ record ∈ r.deliveries, record.result.message.val ∈ safeNotificationMessages) ∧
    (∀ a w', serve a (worldAfter acts) = .ok (w', ()) →
      (∀ now completion, a ≠ .complete now completion) →
      (∀ r ∈ (worldAfter acts).database.incidents, ∃ r' ∈ w'.database.incidents, SameRecords r r') ∧
        KeepsRecords (worldAfter acts).database.incidents w'.database.incidents) ∧
    (worldAfter acts).due.Nodup ∧
    (∀ id, ((worldAfter acts).due.filter fun d => decide (d.1 = id)).length ≤ 20) ∧
    ∀ id pluginName, (id, pluginName) ∈ (worldAfter acts).due → ∀ now result, ∃ t,
      recordNotificationResult now id pluginName result (worldAfter acts).database.incidents =
        .ok (t, true) := by
  have hstored := worldAfter_stored acts
  have hplanned := worldAfter_planned acts
  have hledger := worldAfter_ledger acts
  refine ⟨fun r hr => ⟨hledger.sorted r hr, hledger.latest r hr, fun record hrecord => ?_⟩,
    fun a w' h hsilent => ?_, hplanned.once, hplanned.few, ?_⟩
  · obtain ⟨before, c, after, -, ⟨_, _, result, -, -, -, hresult⟩, -⟩ :=
      (hledger.latest r hr record).mp hrecord
    rw [hresult]
    exact safeDeliveryResult_safe result
  · have hkeeps := serve_keeps hstored.ids hsilent h
    refine ⟨fun r hr => ?_, hkeeps⟩
    obtain ⟨r', hr', hid⟩ := serve_carries hstored.ids h r hr
    rcases hkeeps r' hr' with ⟨old, hold, hkept⟩ | ⟨-, hnew⟩
    · rw [eq_of_key hstored.ids hr hold (hid.symm.trans hkept.id)]
      exact ⟨r', hr', hkept⟩
    · exact absurd hid.symm (hnew r hr)
  · intro id pluginName hdue now result
    obtain ⟨r, -, -, name, context, -, hok, -⟩ :=
      hledger.records now hstored hplanned hdue result
    exact ⟨_, hok⟩

/-- Two problems that cross the threshold, then two results for the one plugin. -/
def sampleActivities : List Activity :=
  [.ingress sampleCall,
   .ingress ⟨{ sampleProcessor with sha256 := fun _ => HexDigest.ofNat 5 },
    { sampleIngressRequest with now := sampleTime 2, incidentId := 7, eventId := 5 }⟩,
   .complete (sampleTime 3) (.terminal 3 "mail" pluginFailed),
   .complete (sampleTime 4) (.terminal 3 "mail" missingIncident)]

example : ((worldAfter sampleActivities).database.incidents.flatMap fun r =>
    r.deliveries.map fun record => (record.pluginName.val, record.result.message.val)) =
      [("mail", "notification result redacted")] := by decide +kernel

end Correlia
