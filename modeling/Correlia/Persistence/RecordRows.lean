import Correlia.Persistence.Incidents

/-!
# Persistence.RecordRows — what recording a problem or a delivery does row by row

A recorded problem inserts a row that depends on the input alone, or rewrites the one open row of
its key.
-/

namespace Correlia

open Lib

/-! ### Contexts -/

theorem normalizeContext_valid {d d' : ContextData} (h : normalizeContext d = .ok d') :
    d'.Valid := by
  obtain ⟨hv, rfl⟩ := normalizeContext_eq_ok.mp h
  exact hv

theorem decisionContextDump_valid (i : IncidentUpsertInput) : (decisionContextDump i).Valid := by
  unfold decisionContextDump
  cases i.decisionContext with
  | none => exact ContextData.fill_empty_errors
  | some c =>
    show (ite _ _ _ : ContextData).Valid
    split_ifs with h
    · -- the dropped key has the value of its default
      have hfill : ContextData.fill { c.val.dump with notificationDeliveryResults := none } = c.val := by
        show { c.val with notificationDeliveryResults := [] } = c.val
        rw [← h]
      rw [ContextData.Valid, hfill]
      exact c.valid
    · exact c.valid

theorem preserveNotificationDeliveryResults_valid {existing incoming d : ContextData}
    (hin : incoming.Valid) (h : preserveNotificationDeliveryResults existing incoming = .ok d) :
    d.Valid := by
  unfold preserveNotificationDeliveryResults at h
  cases hr : existing.notificationDeliveryResults with
  | none =>
    rw [hr] at h
    cases h
    exact hin
  | some records =>
    rw [hr] at h
    exact normalizeContext_valid h

theorem lifecycleContext_valid {r : Incident} {a : LifecycleArgs} {d : ContextData}
    (h : lifecycleContext r a = .ok d) : d.Valid := normalizeContext_valid h

/-! ### Recording a problem -/

/-- Records that passed their checks pass them in another valid context. -/
theorem preserveNotificationDeliveryResults_ok {existing incoming : ContextData}
    (hexisting : existing.Valid) (hincoming : incoming.Valid) :
    ∃ d, preserveNotificationDeliveryResults existing incoming = .ok d := by
  unfold preserveNotificationDeliveryResults
  cases hrecords : existing.notificationDeliveryResults with
  | none => exact ⟨incoming, rfl⟩
  | some records =>
    refine ⟨_, normalizeContext_eq_ok.mpr ⟨?_, rfl⟩⟩
    have hdeliveries := (ContextFields.errors_eq_nil.mp hexisting).deliveries
    have hfill : existing.fill.notificationDeliveryResults = records :=
      congrArg (fun d => d.getD []) hrecords
    rw [hfill] at hdeliveries
    exact ContextFields.errors_eq_nil.mpr
      { ContextFields.errors_eq_nil.mp hincoming with deliveries := hdeliveries }

/-- What a completed `record_problem_incident` has done. -/
inductive Recorded (now : Timestamptz) (id : UUID) (i : IncidentUpsertInput) (t : List Incident) :
    List Incident → IncidentAggregationWriteResult → Prop
  | inserted (state : IncidentWindowState) (eventTime : Timestamptz)
      (hstate : initialWindowState i = .ok state)
      (htime : i.eventTime.toTimestamptz = some eventTime)
      (hlen : state.val.activeObjects.length ≤ jsonbArrayMax)
      (hkey : ∀ r ∈ t, ¬(r.status = .«open» ∧ r.key = i.key)) (hid : ∀ r ∈ t, r.id ≠ id) :
      Recorded now id i t (t ++ [freshIncident now id i eventTime state])
        (insertedResult (freshIncident now id i eventTime state))
  | merged (existing : Incident) (w : WindowUpdate) (context : ContextData)
      (eventTime : Timestamptz) (hmem : existing ∈ t) (hopen : existing.status = .«open»)
      (hkey : existing.key = i.key) (hw : nextWindowState existing i = .ok w)
      (hcontext : preserveNotificationDeliveryResults existing.decisionContext
        (decisionContextDump i) = .ok context)
      (htime : i.eventTime.toTimestamptz = some eventTime)
      (hlen : w.state.val.activeObjects.length ≤ jsonbArrayMax) :
      Recorded now id i t
        (setRow Incident.id (mergedIncident now i eventTime w context existing) t)
        (updatedResult existing (mergedIncident now i eventTime w context existing) w)

theorem insertProblemIncident_eq_ok {now : Timestamptz} {id : UUID} {i : IncidentUpsertInput}
    {t t' : List Incident} {o : Option Incident}
    (h : insertProblemIncident now id i t = .ok (t', o)) :
    (t' = t ∧ o = none ∧ ∃ r ∈ t, r.isOpenFor i.key = true) ∨
      ∃ state eventTime, initialWindowState i = .ok state ∧
        i.eventTime.toTimestamptz = some eventTime ∧
        state.val.activeObjects.length ≤ jsonbArrayMax ∧
        (∀ r ∈ t, ¬(r.status = .«open» ∧ r.key = i.key)) ∧ (∀ r ∈ t, r.id ≠ id) ∧
        t' = t ++ [freshIncident now id i eventTime state] ∧
        o = some (freshIncident now id i eventTime state) := by
  obtain ⟨state, hstate, h₁⟩ := bind_eq_ok.mp h
  obtain ⟨eventTime, htime, h₂⟩ := bind_eq_ok.mp h₁
  obtain ⟨state', hparam, h₃⟩ := bind_eq_ok.mp h₂
  obtain ⟨hlen, hst⟩ := windowStateParam_eq_ok.mp hparam
  subst hst
  rw [orThrow_eq_ok] at htime
  by_cases hopen : t.any (Incident.isOpenFor i.key) = true
  · rw [if_pos hopen] at h₃
    cases h₃
    exact Or.inl ⟨rfl, rfl, List.any_eq_true.mp hopen⟩
  · rw [if_neg hopen] at h₃
    by_cases hid : (t.any fun r => decide (r.id = id)) = true
    · rw [if_pos hid] at h₃
      cases h₃
    · rw [if_neg hid] at h₃
      cases h₃
      refine Or.inr ⟨state, eventTime, hstate, htime, hlen, fun r hr hk => hopen ?_,
        fun r hr hk => hid ?_, rfl, rfl⟩
      · exact List.any_eq_true.mpr ⟨r, hr, Incident.isOpenFor_iff.mpr hk⟩
      · exact List.any_eq_true.mpr ⟨r, hr, decide_eq_true hk⟩

theorem mergeProblem_eq_ok {now : Timestamptz} {i : IncidentUpsertInput} {t t' : List Incident}
    {existing : Incident} {w : IncidentAggregationWriteResult} (ht : (t.map Incident.id).Nodup)
    (hmem : existing ∈ t) (h : mergeProblem now i existing t = .ok (t', w)) :
    ∃ w' context eventTime, nextWindowState existing i = .ok w' ∧
      preserveNotificationDeliveryResults existing.decisionContext (decisionContextDump i) =
        .ok context ∧
      i.eventTime.toTimestamptz = some eventTime ∧
      w'.state.val.activeObjects.length ≤ jsonbArrayMax ∧
      t' = setRow Incident.id (mergedIncident now i eventTime w' context existing) t ∧
      w = updatedResult existing (mergedIncident now i eventTime w' context existing) w' := by
  unfold mergeProblem at h
  obtain ⟨w', hw, h⟩ := bind_eq_ok.mp h
  obtain ⟨context, hcontext, h⟩ := bind_eq_ok.mp h
  obtain ⟨eventTime, htime, h⟩ := bind_eq_ok.mp h
  obtain ⟨_, hparam, h⟩ := bind_eq_ok.mp h
  obtain ⟨hlen, -⟩ := windowStateParam_eq_ok.mp hparam
  rw [orThrow_eq_ok] at htime
  by_cases hcount : int4End ≤ existing.eventCount + (if w'.counted then 1 else 0)
  · rw [if_pos hcount] at h
    cases h
  · rw [if_neg hcount, updateOne_id ht hmem _ rfl] at h
    cases h
    exact ⟨w', context, eventTime, hw, hcontext, htime, hlen, rfl, rfl⟩

/-- On a table without an OPEN row of its key a problem is inserted. -/
theorem recordProblemIncident_inserts {now : Timestamptz} {id : UUID} {i : IncidentUpsertInput}
    {t : List Incident} {state : IncidentWindowState} {eventTime : Timestamptz}
    (hstate : initialWindowState i = .ok state) (htime : i.eventTime.toTimestamptz = some eventTime)
    (hlen : state.val.activeObjects.length ≤ jsonbArrayMax)
    (hkey : ∀ r ∈ t, ¬(r.status = .«open» ∧ r.key = i.key)) (hid : ∀ r ∈ t, r.id ≠ id) :
    recordProblemIncident now id i t = .ok (t ++ [freshIncident now id i eventTime state],
      insertedResult (freshIncident now id i eventTime state)) := by
  have hopen : ¬t.any (Incident.isOpenFor i.key) = true := by
    rw [List.any_eq_true]
    rintro ⟨r, hr, ho⟩
    exact hkey r hr (Incident.isOpenFor_iff.mp ho)
  have hfree : ¬t.any (fun r => decide (r.id = id)) = true := by
    rw [List.any_eq_true]
    rintro ⟨r, hr, heq⟩
    exact hid r hr (of_decide_eq_true heq)
  unfold recordProblemIncident insertProblemIncident
  rw [hstate, ok_bind, orThrow_eq_ok.mpr htime, ok_bind, windowStateParam_eq_ok.mpr ⟨hlen, rfl⟩,
    ok_bind, if_neg hopen, if_neg hfree]
  rfl

/-- With one OPEN row of its key a problem is merged into that. -/
theorem recordProblemIncident_merges {now : Timestamptz} {id : UUID} {i : IncidentUpsertInput}
    {t : List Incident} {existing : Incident} {state : IncidentWindowState}
    {eventTime : Timestamptz} (hstate : initialWindowState i = .ok state)
    (htime : i.eventTime.toTimestamptz = some eventTime)
    (hlen : state.val.activeObjects.length ≤ jsonbArrayMax)
    (hone : t.filter (Incident.isOpenFor i.key) = [existing]) :
    recordProblemIncident now id i t = mergeProblem now i existing t := by
  have hany : t.any (Incident.isOpenFor i.key) = true := by
    have hmem : existing ∈ t.filter (Incident.isOpenFor i.key) := by
      rw [hone]
      exact List.mem_singleton_self _
    exact List.any_eq_true.mpr ⟨existing, List.mem_filter.mp hmem⟩
  have hinsert : insertProblemIncident now id i t = .ok (t, none) := by
    unfold insertProblemIncident
    rw [hstate, ok_bind, orThrow_eq_ok.mpr htime, ok_bind,
      windowStateParam_eq_ok.mpr ⟨hlen, rfl⟩, ok_bind, if_pos hany]
    rfl
  rw [recordProblemIncident, hinsert, ok_bind]
  show (one (t.filter (Incident.isOpenFor i.key)) >>= _) = _
  rw [one_eq_ok.mpr hone, ok_bind]

/-- A merge goes through where its window, its context and its columns can be written. -/
theorem mergeProblem_ok {now : Timestamptz} {i : IncidentUpsertInput} {t : List Incident}
    {existing : Incident} {w : WindowUpdate} {context : ContextData} {eventTime : Timestamptz}
    (ht : (t.map Incident.id).Nodup) (hmem : existing ∈ t)
    (hw : nextWindowState existing i = .ok w)
    (hcontext : preserveNotificationDeliveryResults existing.decisionContext
      (decisionContextDump i) = .ok context)
    (htime : i.eventTime.toTimestamptz = some eventTime)
    (hlen : w.state.val.activeObjects.length ≤ jsonbArrayMax)
    (hcount : existing.eventCount + (if w.counted then 1 else 0) < int4End) :
    mergeProblem now i existing t =
      .ok (setRow Incident.id (mergedIncident now i eventTime w context existing) t,
        updatedResult existing (mergedIncident now i eventTime w context existing) w) := by
  unfold mergeProblem
  rw [hw, ok_bind, hcontext, ok_bind, orThrow_eq_ok.mpr htime, ok_bind,
    windowStateParam_eq_ok.mpr ⟨hlen, rfl⟩, ok_bind, if_neg (not_le.mpr hcount),
    updateOne_id ht hmem _ rfl]
  exact ok_bind

theorem recordProblemIncident_eq_ok {now : Timestamptz} {id : UUID} {i : IncidentUpsertInput}
    {t t' : List Incident} {w : IncidentAggregationWriteResult} (ht : (t.map Incident.id).Nodup)
    (h : recordProblemIncident now id i t = .ok (t', w)) : Recorded now id i t t' w := by
  unfold recordProblemIncident at h
  obtain ⟨⟨t₁, o⟩, hins, h⟩ := bind_eq_ok.mp h
  rcases insertProblemIncident_eq_ok hins with
    ⟨rfl, rfl, -⟩ | ⟨state, eventTime, hstate, htime, hlen, hkey, hid, rfl, rfl⟩
  · obtain ⟨existing, hone, h⟩ := bind_eq_ok.mp h
    have hmem : existing ∈ t₁.filter (Incident.isOpenFor i.key) := by
      rw [one_eq_ok.mp hone]
      exact List.mem_singleton_self _
    obtain ⟨hmem, hex⟩ := List.mem_filter.mp hmem
    obtain ⟨hopen, hkey⟩ := Incident.isOpenFor_iff.mp hex
    obtain ⟨w', context, eventTime, hw, hcontext, htime, hlen, rfl, rfl⟩ :=
      mergeProblem_eq_ok ht hmem h
    exact Recorded.merged existing w' context eventTime hmem hopen hkey hw hcontext htime hlen
  · cases h
    exact Recorded.inserted state eventTime hstate htime hlen hkey hid

/-! ### Recording a delivery -/

/-- The context of a recorded delivery: the old one with its defaults, and other deliveries. -/
theorem validatedNotificationContext_eq_ok {context d : ContextData} {pluginName : String}
    {result : NotificationResult}
    (h : validatedNotificationContext context pluginName result = .ok d) :
    d.Valid ∧ ∃ records, d.fill = { context.fill with notificationDeliveryResults := records } := by
  unfold validatedNotificationContext at h
  obtain ⟨existing, hex, h⟩ := bind_eq_ok.mp h
  obtain ⟨record, -, h⟩ := bind_eq_ok.mp h
  refine ⟨normalizeContext_valid h, ?_⟩
  obtain ⟨-, rfl⟩ := normalizeContext_eq_ok.mp h
  rw [liftError_eq_ok, DecisionContext.modelValidate, modelValidate_eq_ok] at hex
  exact ⟨_, by rw [ContextFields.fill_dump, ← hex]; rfl⟩

/-- The values `record_notification_result` writes. -/
def notifiedIncident (now : Timestamptz) (success : Bool) (context : ContextData) (r : Incident) :
    Incident :=
  { r with
    decisionContext := context
    updatedAt := now
    notifiedAt := if success then some now else r.notifiedAt }

theorem recordNotificationResult_eq_ok {now : Timestamptz} {id : UUID} {pluginName : String}
    {result : NotificationResult} {t t' : List Incident} {found : Bool}
    (ht : (t.map Incident.id).Nodup)
    (h : recordNotificationResult now id pluginName result t = .ok (t', found)) :
    (t' = t ∧ found = false) ∨
      ∃ c ∈ t, c.id = id ∧ found = true ∧ ∃ context,
        validatedNotificationContext c.decisionContext pluginName result = .ok context ∧
        t' = setRow Incident.id (notifiedIncident now result.success context c) t := by
  unfold recordNotificationResult at h
  split at h
  · cases h
    exact Or.inl ⟨rfl, rfl⟩
  · rename_i c hc
    have hmem : c ∈ t.filter fun r => decide (r.id = id) := by
      rw [hc]
      exact List.mem_singleton_self c
    obtain ⟨hct, hid⟩ := List.mem_filter.mp hmem
    have hid : c.id = id := of_decide_eq_true hid
    subst hid
    obtain ⟨context, hcontext, h⟩ := bind_eq_ok.mp h
    cases h
    refine Or.inr ⟨c, hct, rfl, rfl, context, hcontext, ?_⟩
    exact updateWhere_id ht hct (notifiedIncident now result.success context) rfl
  · cases h

end Correlia
