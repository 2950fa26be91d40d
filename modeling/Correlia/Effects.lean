import Correlia.Persistence.LifecycleRows
import Correlia.Persistence.RecordRows
import Correlia.Store

/-!
# Effects — everything a committed call can do to the table

`step_effect`: a committed call either changes each row in one of six ways (`RowChange`) or appends
one fresh row (`Fresh`).  Every invariant of the table is derived from it.  `step_problem` says the
same of a recorded problem together with the outcome it reports.
-/

namespace Correlia

open Lib

/-! ### Problem calls -/

/-- A call of `record_problem_incident`, direct or through `apply_problem`. -/
structure ProblemCall where
  now : Timestamptz
  id : UUID
  input : IncidentUpsertInput

/-- The problem a call records, if any. -/
def Op.problem : Op → Option ProblemCall
  | .recordProblem now id input => some ⟨now, id, input⟩
  | .applyProblem now id configHash event decision =>
    if event.val.eventType = .problem then
      match problemInput configHash event decision with
      | .ok input => some ⟨now, id, input⟩
      | .error _ => none
    else none
  | _ => none

/-- What `record_problem_incident` reports of a problem. -/
structure ProblemOutcome where
  incidentId : UUID
  replay : Bool
  insideWindow : Bool
  counted : Bool
  thresholdCount : ℕ
  countedCount : ℕ
  windowCrossed : Bool
  thresholdCrossed : Bool
  firstThresholdTransition : Bool
deriving DecidableEq

def IncidentAggregationWriteResult.outcome (w : IncidentAggregationWriteResult) :
    ProblemOutcome where
  incidentId := w.incident.id
  replay := w.replay
  insideWindow := w.insideWindow
  counted := w.counted
  thresholdCount := w.thresholdCount
  countedCount := w.countedCount
  windowCrossed := w.windowCrossed
  thresholdCrossed := w.thresholdCrossed
  firstThresholdTransition := w.firstThresholdTransition

def IncidentAggregationResult.outcome (r : IncidentAggregationResult) : ProblemOutcome where
  incidentId := r.incidentId
  replay := r.replay
  insideWindow := r.insideWindow
  counted := r.counted
  thresholdCount := r.thresholdDecision.val.threshold
  countedCount := r.countedCount
  windowCrossed := r.thresholdDecision.val.crossed
  thresholdCrossed := r.thresholdCrossed
  firstThresholdTransition := r.firstThresholdTransition

def Answer.outcome : Answer → Option ProblemOutcome
  | .recorded w => some w.outcome
  | .applied r => some r.outcome
  | _ => none

/-- The call recorded a problem on this incident. -/
def onIncident (id : UUID) (c : Op × Answer) : Bool :=
  c.2.outcome.any fun out => decide (out.incidentId = id)

theorem onIncident_iff {id : UUID} {op : Op} {o : Answer} {out : ProblemOutcome}
    (ho : o.outcome = some out) : onIncident id (op, o) = true ↔ out.incidentId = id := by
  simp [onIncident, ho]

theorem onIncident_of_none {id : UUID} {op : Op} {o : Answer} (ho : o.outcome = none) :
    onIncident id (op, o) = false := by
  simp [onIncident, ho]

/-- An `apply_problem` call that answers with a planned dispatch. -/
def Answer.dispatchPlanned : Answer → Bool
  | .applied r => decide (r.notificationIntent = .dispatchPlanned)
  | _ => false

/-- The delivery records an input brings along. -/
def IncidentUpsertInput.deliveries (i : IncidentUpsertInput) : List NotificationDeliveryRecord :=
  match i.decisionContext with
  | none => []
  | some c => c.val.notificationDeliveryResults

theorem decisionContextDump_deliveries (i : IncidentUpsertInput) :
    (decisionContextDump i).fill.notificationDeliveryResults = i.deliveries := by
  unfold decisionContextDump IncidentUpsertInput.deliveries
  cases i.decisionContext with
  | none => rfl
  | some c =>
    show (ite _ _ _ : ContextData).fill.notificationDeliveryResults = _
    split_ifs with h
    · exact h.symm
    · rfl

/-- A row the call appends: what it holds comes from the input alone. -/
structure Fresh (p : ProblemCall) (t : List Incident) (r : Incident) : Prop where
  made : ∃ eventTime state context, initialWindowState p.input = .ok state ∧
    p.input.eventTime.toTimestamptz = some eventTime ∧
    r = { freshIncident p.now p.id p.input eventTime state with decisionContext := context }
  objects_le : r.windowState.val.activeObjects.length ≤ jsonbArrayMax
  context_valid : r.decisionContext.Valid
  deliveries : r.decisionContext.fill.notificationDeliveryResults = p.input.deliveries
  key_free : ∀ r' ∈ t, ¬(r'.status = .«open» ∧ r'.key = p.input.key)
  id_free : ∀ r' ∈ t, r'.id ≠ p.id

/-- The open row `r'` a problem is merged into, as the update leaves it. -/
inductive Merged (p : ProblemCall) : Incident → WindowUpdate → Incident → Prop
  | intro (r : Incident) (w : WindowUpdate) (eventTime : Timestamptz) (context : ContextData)
      (hopen : r.status = .«open») (hkey : r.key = p.input.key)
      (hw : nextWindowState r p.input = .ok w)
      (htime : p.input.eventTime.toTimestamptz = some eventTime)
      (hlen : w.state.val.activeObjects.length ≤ jsonbArrayMax) (hcontext : context.Valid) :
      Merged p r w (mergedIncident p.now p.input eventTime w context r)

theorem Fresh.id_eq {p : ProblemCall} {t : List Incident} {r : Incident} (h : Fresh p t r) :
    r.id = p.id := by
  obtain ⟨_, _, _, _, _, rfl⟩ := h.made
  rfl

theorem Merged.id_eq {p : ProblemCall} {r r' : Incident} {w : WindowUpdate} (h : Merged p r w r') :
    r'.id = r.id := by
  cases h
  rfl

theorem Merged.thresholdCrossed {p : ProblemCall} {r r' : Incident} {w : WindowUpdate}
    (h : Merged p r w r') :
    r'.thresholdCrossed = (r.thresholdCrossed || w.state.val.crossed) := by
  cases h
  rfl

/-- What a recorded problem does to the table, with its outcome. -/
inductive ProblemEffect (p : ProblemCall) (t : List Incident) :
    List Incident → ProblemOutcome → Prop
  | inserted (r : Incident) (h : Fresh p t r) : ProblemEffect p t (t ++ [r]) (insertedResult r).outcome
  | merged (r : Incident) (w : WindowUpdate) (r' : Incident) (hmem : r ∈ t) (h : Merged p r w r') :
      ProblemEffect p t (setRow Incident.id r' t) (updatedResult r r' w).outcome

/-- The rows after a recorded problem: each is an old one, or the row of the answer. -/
theorem ProblemEffect.row_cases {p : ProblemCall} {t t' : List Incident} {out : ProblemOutcome}
    (h : ProblemEffect p t t' out) {x : Incident} (hx : x ∈ t') :
    (x ∈ t ∧ x.id ≠ out.incidentId) ∨ (x.id = out.incidentId ∧
      ((Fresh p t x ∧ out = (insertedResult x).outcome) ∨
        ∃ r w, r ∈ t ∧ Merged p r w x ∧ out = (updatedResult r x w).outcome)) := by
  cases h with
  | inserted r hfresh =>
    rcases List.mem_append.mp hx with hx | hx
    · exact Or.inl ⟨hx, fun hid => hfresh.id_free x hx (hid.trans hfresh.id_eq)⟩
    · rw [List.mem_singleton.mp hx]
      exact Or.inr ⟨rfl, Or.inl ⟨hfresh, rfl⟩⟩
  | merged r w r' hmem hm =>
    obtain ⟨y, hy, rfl⟩ := List.mem_map.mp hx
    by_cases hyr : y.id = r'.id
    · rw [if_pos (decide_eq_true hyr)]
      exact Or.inr ⟨rfl, Or.inr ⟨r, w, hmem, hm, rfl⟩⟩
    · rw [if_neg (by simpa using hyr)]
      exact Or.inl ⟨hy, hyr⟩

/-- The row a problem was recorded on. -/
theorem ProblemEffect.row_exists {p : ProblemCall} {t t' : List Incident} {out : ProblemOutcome}
    (h : ProblemEffect p t t' out) : ∃ x ∈ t', x.id = out.incidentId := by
  cases h with
  | inserted r hfresh => exact ⟨r, by simp, rfl⟩
  | merged r w r' hmem hm =>
    refine ⟨r', List.mem_map.mpr ⟨r, hmem, ?_⟩, rfl⟩
    exact if_pos (decide_eq_true hm.id_eq.symm)

theorem recordProblemIncident_effect {p : ProblemCall} {t t' : List Incident}
    {w : IncidentAggregationWriteResult} (ht : (t.map Incident.id).Nodup)
    (h : recordProblemIncident p.now p.id p.input t = .ok (t', w)) :
    ProblemEffect p t t' w.outcome := by
  cases recordProblemIncident_eq_ok ht h with
  | inserted state eventTime hstate htime hlen hkey hid =>
    refine ProblemEffect.inserted _ ⟨⟨eventTime, state, _, hstate, htime, rfl⟩, hlen, ?_, ?_, hkey,
      hid⟩
    · exact decisionContextDump_valid p.input
    · exact decisionContextDump_deliveries p.input
  | merged existing w' context eventTime hmem hopen hkey hw hcontext htime hlen =>
    refine ProblemEffect.merged existing w' _ hmem
      (Merged.intro existing w' eventTime context hopen hkey hw htime hlen ?_)
    exact preserveNotificationDeliveryResults_valid (decisionContextDump_valid p.input) hcontext

/-- The second write of `apply_problem` puts another valid context into the same row. -/
theorem ProblemEffect.recontext {p : ProblemCall} {t t' : List Incident}
    {w : IncidentAggregationWriteResult} (ht : (t.map Incident.id).Nodup)
    (h : recordProblemIncident p.now p.id p.input t = .ok (t', w)) {context : ContextData}
    (hvalid : context.Valid)
    (hdeliv : w.incident.decisionContext.fill.notificationDeliveryResults =
      context.fill.notificationDeliveryResults) :
    ProblemEffect p t (updateWhere (fun r => decide (r.id = w.incident.id))
      (fun r => { r with decisionContext := context }) t') w.outcome := by
  cases recordProblemIncident_eq_ok ht h with
  | inserted state eventTime hstate htime hlen hkey hid =>
    set r := freshIncident p.now p.id p.input eventTime state with hr
    have hup : updateWhere (fun r' => decide (r'.id = (insertedResult r).incident.id))
        (fun r => { r with decisionContext := context }) (t ++ [r]) =
        t ++ [{ r with decisionContext := context }] := by
      rw [updateWhere, List.map_append]
      refine congrArg₂ (· ++ ·) ?_ ?_
      · refine (List.map_congr_left fun r' hr' => ?_).trans (List.map_id t)
        rw [if_neg]
        · rfl
        · exact fun he => hid r' hr' (of_decide_eq_true he)
      · simp [insertedResult]
    rw [hup]
    refine ProblemEffect.inserted { r with decisionContext := context }
      ⟨⟨eventTime, state, context, hstate, htime, rfl⟩, hlen, hvalid, ?_, hkey, hid⟩
    exact hdeliv.symm.trans (decisionContextDump_deliveries p.input)
  | merged existing w' context' eventTime hmem hopen hkey hw hcontext htime hlen =>
    set r' := mergedIncident p.now p.input eventTime w' context' existing with hr'
    have hup : updateWhere (fun r => decide (r.id = (updatedResult existing r' w').incident.id))
        (fun r => { r with decisionContext := context }) (setRow Incident.id r' t) =
        setRow Incident.id { r' with decisionContext := context } t := by
      rw [updateWhere, setRow, setRow, updateWhere, updateWhere, List.map_map]
      refine List.map_congr_left fun r _ => ?_
      by_cases hid : r.id = r'.id
      · simp [hid, updatedResult]
      · simp [hid, updatedResult]
    rw [hup]
    exact ProblemEffect.merged existing w' { r' with decisionContext := context } hmem
      (Merged.intro existing w' eventTime context hopen hkey hw htime hlen hvalid)

/-! ### `apply_problem` -/

theorem noDispatchReason_eq_none {w : IncidentAggregationWriteResult} :
    noDispatchReason w = none ↔ w.replay = false ∧ w.firstThresholdTransition = true := by
  unfold noDispatchReason
  cases w.replay <;> cases w.firstThresholdTransition <;> cases w.thresholdCrossed <;> simp

/-- The final context keeps the delivery records of the row it replaces. -/
theorem decisionContext_deliveries {configHash : Option String} {event : NormalizedEvent}
    {decision : RuleMatch} {w : IncidentAggregationWriteResult} {reason : Option NoDispatchReason}
    {c : DecisionContext} (h : decisionContext configHash event decision (some w) reason = .ok c) :
    c.val.notificationDeliveryResults =
      w.incident.decisionContext.fill.notificationDeliveryResults := by
  obtain ⟨deliveries, hdel, h₁⟩ := bind_eq_ok.mp h
  obtain ⟨c', hc', h₂⟩ := bind_eq_ok.mp hdel
  rw [liftError_eq_ok, DecisionContext.modelValidate, modelValidate_eq_ok] at hc'
  cases h₂
  rw [liftError_eq_ok, modelValidate_eq_ok] at h₁
  rw [h₁, hc']
  rfl

/-- What a completed `apply_problem` has computed on its way. -/
theorem applyProblem_eq_ok {now : Timestamptz} {id : UUID} {configHash : Option String}
    {event : NormalizedEvent} {decision : RuleMatch} {t t' : List Incident}
    {r : IncidentAggregationResult}
    (h : applyProblem now id configHash event decision t = .ok (t', r)) :
    event.val.eventType = .problem ∧ ∃ input t₁ w threshold final,
      problemInput configHash event decision = .ok input ∧
      recordProblemIncident now id input t = .ok (t₁, w) ∧
      thresholdDecision event decision w = .ok threshold ∧
      decisionContext configHash event decision (some w) (noDispatchReason w) = .ok final ∧
      t' = updateWhere (fun r => decide (r.id = w.incident.id))
        (fun r => { r with decisionContext := final.val.dump }) t₁ ∧
      r = { incidentId := w.incident.id, effect := w.effect, status := w.incident.status,
            replay := w.replay, insideWindow := w.insideWindow, counted := w.counted,
            countedCount := w.countedCount, thresholdDecision := threshold,
            thresholdCrossed := w.thresholdCrossed,
            firstThresholdTransition := w.firstThresholdTransition,
            notificationIntent :=
              if noDispatchReason w = none then .dispatchPlanned else .noDispatch,
            noDispatchReason := noDispatchReason w } := by
  unfold applyProblem at h
  by_cases hev : event.val.eventType = .problem
  · rw [if_neg (not_not_intro hev)] at h
    obtain ⟨input, hinput, h₁⟩ := bind_eq_ok.mp h
    obtain ⟨⟨t₁, w⟩, hrec, h₂⟩ := bind_eq_ok.mp h₁
    obtain ⟨threshold, hthr, h₃⟩ := bind_eq_ok.mp h₂
    obtain ⟨final, hfinal, h₄⟩ := bind_eq_ok.mp h₃
    cases h₄
    exact ⟨hev, input, t₁, w, threshold, final, hinput, hrec, hthr, hfinal, rfl, rfl⟩
  · rw [if_pos hev] at h
    cases h

theorem applyProblem_effect {now : Timestamptz} {id : UUID} {configHash : Option String}
    {event : NormalizedEvent} {decision : RuleMatch} {t t' : List Incident}
    {r : IncidentAggregationResult} (ht : (t.map Incident.id).Nodup)
    (h : applyProblem now id configHash event decision t = .ok (t', r)) :
    ∃ p, (Op.applyProblem now id configHash event decision).problem = some p ∧
      ProblemEffect p t t' r.outcome ∧
      (r.notificationIntent = .dispatchPlanned ↔
        r.outcome.replay = false ∧ r.outcome.firstThresholdTransition = true) := by
  obtain ⟨hev, input, t₁, w, threshold, final, hinput, hrec, hthr, hfinal, rfl, rfl⟩ :=
    applyProblem_eq_ok h
  rw [thresholdDecision, liftError_eq_ok, modelValidate_eq_ok] at hthr
  have hp : (Op.applyProblem now id configHash event decision).problem = some ⟨now, id, input⟩ := by
    simp only [Op.problem, if_pos hev, hinput]
  refine ⟨⟨now, id, input⟩, hp, ?_, ?_⟩
  · have hvalid : final.val.dump.Valid := final.valid
    have heff := ProblemEffect.recontext (p := ⟨now, id, input⟩) ht hrec hvalid
      (decisionContext_deliveries hfinal).symm
    have hout : w.outcome =
        { incidentId := w.incident.id, replay := w.replay, insideWindow := w.insideWindow,
          counted := w.counted, thresholdCount := threshold.val.threshold,
          countedCount := w.countedCount, windowCrossed := threshold.val.crossed,
          thresholdCrossed := w.thresholdCrossed,
          firstThresholdTransition := w.firstThresholdTransition } := by
      rw [hthr]
      rfl
    rw [hout] at heff
    exact heff
  · show (if noDispatchReason w = none then _ else _) = _ ↔
      w.replay = false ∧ w.firstThresholdTransition = true
    rw [← noDispatchReason_eq_none]
    split_ifs with hn <;> simp [hn]

/-- The problem of an `apply_problem` call is the upsert input of its event and decision. -/
theorem applyProblem_problem {now : Timestamptz} {id : UUID} {configHash : Option String}
    {event : NormalizedEvent} {decision : RuleMatch} {p : ProblemCall}
    (h : (Op.applyProblem now id configHash event decision).problem = some p) :
    p.now = now ∧ p.id = id ∧ ∃ context, ∃ hpass : (upsertArgs event decision context).Passes,
      p.input = (upsertArgs event decision context).accept hpass := by
  unfold Op.problem at h
  by_cases hev : event.val.eventType = .problem
  · simp only [if_pos hev] at h
    cases hin : problemInput configHash event decision with
    | error e =>
      rw [hin] at h
      cases h
    | ok i =>
      rw [hin] at h
      cases h
      obtain ⟨context, -, hpost⟩ := bind_eq_ok.mp hin
      rw [liftError_eq_ok, UpsertArgs.postInit_eq_ok] at hpost
      exact ⟨rfl, rfl, context, hpost⟩
  · simp only [if_neg hev] at h
    cases h

/-- **A recorded problem**: the effect on the table and the outcome that is answered. -/
theorem step_problem {op : Op} {p : ProblemCall} {t t' : List Incident} {o : Answer}
    (ht : (t.map Incident.id).Nodup) (hop : op.problem = some p) (h : step op t = .ok (t', o)) :
    ∃ out, o.outcome = some out ∧ ProblemEffect p t t' out := by
  cases op with
  | recordProblem now id input =>
    obtain ⟨w, hw, rfl⟩ := answer_eq_ok.mp h
    cases hop
    exact ⟨w.outcome, rfl, recordProblemIncident_effect (p := ⟨now, id, input⟩) ht hw⟩
  | applyProblem now id configHash event decision =>
    obtain ⟨r, hr, rfl⟩ := answer_eq_ok.mp h
    obtain ⟨p', hp', heff, -⟩ := applyProblem_effect ht hr
    cases hop.symm.trans hp'
    exact ⟨r.outcome, rfl, heff⟩
  | _ => cases hop

/-! ### All calls -/

/-- The objects a recovery covers, if the call is one. -/
def Op.recovery : Op → Option (Timestamptz × (IncidentObject → Bool))
  | .hostRecovery now a => some (now, coversHost a.host)
  | .serviceRecovery now a service => some (now, coversService a.host service)
  | _ => none

/-- What a committed call does to one row. -/
inductive RowChange (op : Op) : Incident → Incident → Prop
  | same (r : Incident) : RowChange op r r
  | merged {p : ProblemCall} {r r' : Incident} {w : WindowUpdate} (hop : op.problem = some p)
      (h : Merged p r w r') : RowChange op r r'
  | recovered {now : Timestamptz} {covered : IncidentObject → Bool} {context : ContextData}
      {r : Incident} (hop : op.recovery = some (now, covered)) (hopen : r.status = .«open»)
      (htouch : touches covered r = true) (hcontext : context.Valid) :
      RowChange op r (recoveredIncident now covered context r)
  | acknowledged {now : Timestamptz} {operator : String} {context : ContextData} {r : Incident}
      (hop : op = .ack now r.id operator) (hopen : r.status = .«open») (hcontext : context.Valid) :
      RowChange op r (acknowledgedIncident now operator context r)
  | closed {now : Timestamptz} {context : ContextData} {r : Incident}
      (hop : (∃ operator reason, op = .close now r.id operator reason) ∨
        ∃ locked n, op = .expire now locked n)
      (hopen : r.status = .«open») (hcontext : context.Valid) :
      RowChange op r (closedIncident now .closed context r)
  | notified {now : Timestamptz} {pluginName : String} {result : NotificationResult}
      {context : ContextData} {r : Incident} {records : List NotificationDeliveryRecord}
      (hop : op = .recordNotification now r.id pluginName result) (hcontext : context.Valid)
      (hfill : context.fill =
        { r.decisionContext.fill with notificationDeliveryResults := records }) :
      RowChange op r (notifiedIncident now result.success context r)

theorem RowChange.id_eq {op : Op} {r r' : Incident} (h : RowChange op r r') : r'.id = r.id := by
  cases h with
  | recovered => exact recoveredIncident_id _ _ _ _
  | merged _ h => exact h.id_eq
  | _ => rfl

/-- A table with one row changed. -/
theorem setRow_rows {op : Op} {t : List Incident} (ht : (t.map Incident.id).Nodup)
    {r r' : Incident} (hr : r ∈ t) (h : RowChange op r r') :
    List.Forall₂ (RowChange op) t (setRow Incident.id r' t) := by
  refine updateWhere_forall₂ t fun x hx => ?_
  by_cases hid : x.id = r'.id
  · obtain rfl := eq_of_key ht hx hr (hid.trans h.id_eq)
    rw [if_pos (decide_eq_true hid)]
    exact h
  · rw [if_neg (by simpa using hid)]
    exact RowChange.same x

theorem rows_same (op : Op) (t : List Incident) : List.Forall₂ (RowChange op) t t :=
  List.forall₂_same.mpr fun r _ => RowChange.same r

theorem recoverAll_change {op : Op} {now : Timestamptz} {covered : IncidentObject → Bool}
    {a : LifecycleArgs} {t t' : List Incident} {res : List LifecycleWriteResult}
    (ht : (t.map Incident.id).Nodup) (hop : op.recovery = some (now, covered))
    (h : recoverAll now covered a t = .ok (t', res)) : List.Forall₂ (RowChange op) t t' := by
  refine (recoverAll_rows ht h).imp fun r r' hr => ?_
  rcases hr with ⟨⟨hopen, htouch⟩, context, hctx, rfl⟩ | ⟨-, rfl⟩
  · exact RowChange.recovered hop hopen htouch (lifecycleContext_valid hctx)
  · exact RowChange.same r'

/-- **Every committed call**: rows change in the six ways, or one fresh row is appended. -/
theorem step_effect {op : Op} {t t' : List Incident} {o : Answer}
    (ht : (t.map Incident.id).Nodup) (h : step op t = .ok (t', o)) :
    List.Forall₂ (RowChange op) t t' ∨
      ∃ p r, op.problem = some p ∧ Fresh p t r ∧ t' = t ++ [r] := by
  have hproblem : ∀ p out, op.problem = some p → ProblemEffect p t t' out →
      List.Forall₂ (RowChange op) t t' ∨
        ∃ p r, op.problem = some p ∧ Fresh p t r ∧ t' = t ++ [r] := by
    intro p out hop heff
    cases heff with
    | inserted r hfresh => exact Or.inr ⟨p, r, hop, hfresh, rfl⟩
    | merged r w r' hmem hmerged =>
      exact Or.inl (setRow_rows ht hmem (RowChange.merged hop hmerged))
  cases op with
  | recordProblem now id input =>
    obtain ⟨out, -, heff⟩ := step_problem ht rfl h
    exact hproblem _ out rfl heff
  | applyProblem now id configHash event decision =>
    obtain ⟨r, hr, rfl⟩ := answer_eq_ok.mp h
    obtain ⟨p, hp, heff, -⟩ := applyProblem_effect ht hr
    exact hproblem p _ hp heff
  | hostRecovery now a =>
    obtain ⟨res, hres, rfl⟩ := answer_eq_ok.mp h
    rw [resolveHostRecovery_eq ht] at hres
    exact Or.inl (recoverAll_change ht rfl hres)
  | serviceRecovery now a service =>
    obtain ⟨res, hres, rfl⟩ := answer_eq_ok.mp h
    rw [resolveServiceRecovery_eq ht] at hres
    exact Or.inl (recoverAll_change ht rfl hres)
  | ack now id operator =>
    obtain ⟨res, hres, rfl⟩ := answer_eq_ok.mp h
    left
    rcases ackOpenIncident_rows ht hres with rfl | ⟨c, context, hc, rfl, ho, hctx, rfl⟩
    · exact rows_same _ _
    · exact setRow_rows ht hc (RowChange.acknowledged rfl ho (lifecycleContext_valid hctx))
  | close now id operator reason =>
    obtain ⟨res, hres, rfl⟩ := answer_eq_ok.mp h
    left
    rcases closeOpenIncident_rows ht hres with rfl | ⟨c, context, hc, rfl, ho, hctx, rfl⟩
    · exact rows_same _ _
    · exact setRow_rows ht hc (RowChange.closed (Or.inl ⟨operator, reason, rfl⟩) ho
        (lifecycleContext_valid hctx))
  | expire now locked limit =>
    obtain ⟨res, hres, rfl⟩ := answer_eq_ok.mp h
    refine Or.inl ((expireStaleIncidents_rows ht hres).imp fun r r' hr => ?_)
    rcases hr with ⟨⟨hopen, -⟩, context, hctx, rfl⟩ | rfl
    · exact RowChange.closed (Or.inr ⟨locked, limit, rfl⟩) hopen (lifecycleContext_valid hctx)
    · exact RowChange.same r'
  | recordNotification now id pluginName result =>
    obtain ⟨found, hres, rfl⟩ := answer_eq_ok.mp h
    left
    rcases recordNotificationResult_eq_ok ht hres with
      ⟨rfl, -⟩ | ⟨c, hc, rfl, -, context, hctx, rfl⟩
    · exact rows_same _ _
    · obtain ⟨hvalid, records, hfill⟩ := validatedNotificationContext_eq_ok hctx
      exact setRow_rows ht hc (RowChange.notified rfl hvalid hfill)

/-! ### What only problems change -/

/-- The columns and counting fields that only a recorded problem writes. -/
structure SameCounting (r r' : Incident) : Prop where
  id : r'.id = r.id
  key : r'.key = r.key
  severity : r'.severity = r.severity
  summary : r'.summary = r.summary
  eventCount : r'.eventCount = r.eventCount
  thresholdCrossed : r'.thresholdCrossed = r.thresholdCrossed
  startTime : r'.startTime = r.startTime
  lastUpdateTime : r'.lastUpdateTime = r.lastUpdateTime
  window : ∃ objs, r'.window = { r.window with activeObjects := objs }

theorem SameCounting.refl (r : Incident) : SameCounting r r :=
  ⟨rfl, rfl, rfl, rfl, rfl, rfl, rfl, rfl, r.windowState.val.activeObjects, rfl⟩

theorem SameCounting.recovered (now : Timestamptz) (covered : IncidentObject → Bool)
    (context : ContextData) (r : Incident) :
    SameCounting r (recoveredIncident now covered context r) := by
  unfold recoveredIncident
  split_ifs with h
  all_goals exact ⟨rfl, rfl, rfl, rfl, rfl, rfl, rfl, rfl, _,
    windowStateWithActiveObjects_instants r _⟩

/-- Any other call leaves them as they are. -/
theorem RowChange.sameCounting {op : Op} {r r' : Incident} (hop : op.problem = none)
    (h : RowChange op r r') : SameCounting r r' := by
  cases h with
  | same => exact SameCounting.refl r
  | merged hp => exact absurd (hop.symm.trans hp) (by simp)
  | recovered => exact SameCounting.recovered _ _ _ r
  | acknowledged => exact ⟨rfl, rfl, rfl, rfl, rfl, rfl, rfl, rfl, _, rfl⟩
  | closed => exact ⟨rfl, rfl, rfl, rfl, rfl, rfl, rfl, rfl, _, rfl⟩
  | notified => exact ⟨rfl, rfl, rfl, rfl, rfl, rfl, rfl, rfl, _, rfl⟩

/-- A call that records no problem changes rows only, and reports no outcome. -/
theorem step_no_problem {op : Op} {t t' : List Incident} {o : Answer}
    (ht : (t.map Incident.id).Nodup) (hop : op.problem = none) (h : step op t = .ok (t', o)) :
    List.Forall₂ (RowChange op) t t' ∧ o.outcome = none ∧ o.dispatchPlanned = false := by
  refine ⟨?_, ?_⟩
  · rcases step_effect ht h with hrows | ⟨p, r, hp, -⟩
    · exact hrows
    · exact absurd (hop.symm.trans hp) (by simp)
  · cases op with
    | recordProblem now id input => cases hop
    | applyProblem now id configHash event decision =>
      obtain ⟨r, hr, rfl⟩ := answer_eq_ok.mp h
      obtain ⟨p, hp, -⟩ := applyProblem_effect ht hr
      exact absurd (hop.symm.trans hp) (by simp)
    | _ =>
      obtain ⟨a, -, rfl⟩ := answer_eq_ok.mp h
      exact ⟨rfl, rfl⟩

/-! ### Rules for runs -/

theorem step_ids_nodup {op : Op} {t t' : List Incident} {o : Answer}
    (ht : (t.map Incident.id).Nodup) (h : step op t = .ok (t', o)) :
    (t'.map Incident.id).Nodup := by
  rcases step_effect ht h with hrows | ⟨p, r, -, hfresh, rfl⟩
  · rw [map_key_of_forall₂ (fun _ _ hr => hr.id_eq) hrows]
    exact ht
  · rw [List.map_append, List.map_singleton]
    refine List.nodup_append'.mpr ⟨ht, List.nodup_singleton _, ?_⟩
    rw [List.disjoint_singleton]
    intro hin
    obtain ⟨r', hr', hid⟩ := List.mem_map.mp hin
    exact hfresh.id_free r' hr' (hid.trans hfresh.id_eq)

/-- A call deletes no row. -/
theorem step_keeps_rows {op : Op} {t t' : List Incident} {o : Answer}
    (ht : (t.map Incident.id).Nodup) (h : step op t = .ok (t', o)) :
    ∀ r ∈ t, ∃ r' ∈ t', r'.id = r.id := by
  intro r hr
  rcases step_effect ht h with hrows | ⟨p, x, -, -, rfl⟩
  · obtain ⟨r', hr', hchg⟩ := exists_of_forall₂_left hrows hr
    exact ⟨r', hr', hchg.id_eq⟩
  · exact ⟨r, List.mem_append_left _ hr, rfl⟩

/-- No id occurs twice in a reachable table. -/
theorem ids_nodup (ops : List Op) : ((tableAfter ops).map Incident.id).Nodup :=
  run_invariant (P := fun t => (t.map Incident.id).Nodup) List.nodup_nil
    (fun _ _ _ _ ht h => step_ids_nodup ht h) ops

/-- Run induction on the store: the history so far against the table. -/
theorem history_induction {R : List (Op × Answer) → List Incident → Prop} (h0 : R [] [])
    (hstep : ∀ ops op t' o, R (history ops) (tableAfter ops) →
      step op (tableAfter ops) = .ok (t', o) → R (history ops ++ [(op, o)]) t') (ops : List Op) :
    R (history ops) (tableAfter ops) := run_induction h0 hstep ops

/-- **Row invariants**: what a fresh row has and every change keeps, every row has. -/
theorem row_invariant {P : Incident → Prop} (hfresh : ∀ p t r, Fresh p t r → P r)
    (hchange : ∀ op r r', P r → RowChange op r r' → P r') (ops : List Op) :
    ∀ r ∈ tableAfter ops, P r := by
  refine history_induction (R := fun _ t => ∀ r ∈ t, P r) (by simp) ?_ ops
  intro before op t' o hall h
  rcases step_effect (ids_nodup before) h with hrows | ⟨p, r, -, hr, rfl⟩
  · intro r' hr'
    obtain ⟨r, hr, hchg⟩ := exists_of_forall₂_right hrows hr'
    exact hchange op r r' (hall r hr) hchg
  · intro r' hr'
    rcases List.mem_append.mp hr' with hr' | hr'
    · exact hall r' hr'
    · rw [List.mem_singleton.mp hr']
      exact hfresh p _ r hr

/-- Every row of the first table is in the second one, related to what it was. -/
def Carried (Q : Incident → Incident → Prop) (t t' : List Incident) : Prop :=
  (t.map Incident.id).Nodup →
    (t'.map Incident.id).Nodup ∧ ∀ r ∈ t, ∃ r' ∈ t', r'.id = r.id ∧ Q r r'

theorem Carried.step {Q : Incident → Incident → Prop}
    (hchange : ∀ op a r r', Q a r → RowChange op r r' → Q a r') {t₀ t t' : List Incident} {op : Op}
    {o : Answer} (hR : Carried Q t₀ t) (h : step op t = .ok (t', o)) : Carried Q t₀ t' := by
  intro ht₀
  obtain ⟨ht, hall⟩ := hR ht₀
  refine ⟨step_ids_nodup ht h, fun r hr => ?_⟩
  obtain ⟨r₁, hr₁, hid, hQ⟩ := hall r hr
  rcases step_effect ht h with hrows | ⟨p, x, -, -, rfl⟩
  · obtain ⟨r₂, hr₂, hchg⟩ := exists_of_forall₂_left hrows hr₁
    exact ⟨r₂, hr₂, hchg.id_eq.trans hid, hchange op r r₁ r₂ hQ hchg⟩
  · exact ⟨r₁, List.mem_append_left _ hr₁, hid, hQ⟩

/-- **Rows over time**: a row of a table is in every later table, related to what it was by
whatever relation all changes keep. -/
theorem row_between {Q : Incident → Incident → Prop} (hrefl : ∀ r, Q r r)
    (hchange : ∀ op a r r', Q a r → RowChange op r r' → Q a r') (ops more : List Op) :
    ∀ r ∈ tableAfter ops, ∃ r' ∈ tableAfter (ops ++ more), r'.id = r.id ∧ Q r r' := by
  have hcarried : Carried Q (tableAfter ops) (tableAfter (ops ++ more)) :=
    run_between (R := Carried Q) (fun t ht => ⟨ht, fun r hr => ⟨r, hr, rfl, hrefl r⟩⟩)
      (fun _ _ _ _ _ hR h => hR.step hchange h) ops more
  exact (hcarried (ids_nodup ops)).2

end Correlia
