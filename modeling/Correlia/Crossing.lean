import Correlia.Invariant

/-!
# Crossing — the threshold is crossed once, and one dispatch is planned

A row's `threshold_crossed` counts the first-transition answers given for it.  While the threshold
does not change, a first transition is a counted event: an uncrossed row holds fewer fingerprints
than its threshold, and only a counted event adds one.  So the replay test that comes first in
`_no_dispatch_reason` never hides a first transition.
-/

namespace Correlia

open Lib

/-- The calls that answered `first_threshold_transition = true` for this incident. -/
def firstTransitions (id : UUID) (l : List (Op × Answer)) : List (Op × Answer) :=
  l.filter fun c => c.2.outcome.any fun out =>
    decide (out.incidentId = id) && out.firstThresholdTransition

/-- The `apply_problem` calls that answered `dispatch_planned` for this incident. -/
def plannedDispatches (id : UUID) (l : List (Op × Answer)) : List (Op × Answer) :=
  l.filter fun c => onIncident id c && c.2.dispatchPlanned

/-- An `apply_problem` call under this trigger threshold and duration; its capacity is fixed. -/
def AppliedUnder (threshold duration : ℤ) (op : Op) : Prop :=
  ∃ now id configHash event decision, op = .applyProblem now id configHash event decision ∧
    decision.val.window.val.triggerThreshold = threshold ∧
    decision.val.window.val.durationSeconds = duration

theorem firstTransitions_concat_some {id : UUID} {l : List (Op × Answer)} {op : Op} {o : Answer}
    {out : ProblemOutcome} (ho : o.outcome = some out) :
    (firstTransitions id (l ++ [(op, o)])).length = (firstTransitions id l).length +
      if out.incidentId = id ∧ out.firstThresholdTransition = true then 1 else 0 := by
  unfold firstTransitions
  rw [List.filter_append, List.length_append]
  refine congrArg _ ?_
  by_cases h : out.incidentId = id ∧ out.firstThresholdTransition = true
  · simp [ho, h.1, h.2]
  · rw [if_neg h]
    simpa [ho] using h

theorem firstTransitions_concat_none {id : UUID} {l : List (Op × Answer)} {op : Op} {o : Answer}
    (ho : o.outcome = none) : firstTransitions id (l ++ [(op, o)]) = firstTransitions id l := by
  simp [firstTransitions, ho]

/-! ### One first transition for a crossed row -/

/-- The first transitions of an incident against its row. -/
structure TransitionCount (id : UUID) (l : List (Op × Answer)) (t : List Incident) : Prop where
  row : ∀ c ∈ l, onIncident id c = true → ∃ r ∈ t, r.id = id
  count : ∀ r ∈ t, r.id = id →
    (firstTransitions id l).length = if r.thresholdCrossed then 1 else 0

theorem TransitionCount.none_of_no_row {id : UUID} {l : List (Op × Answer)} {t : List Incident}
    (h : TransitionCount id l t) (hno : ∀ r ∈ t, r.id ≠ id) : firstTransitions id l = [] := by
  refine List.filter_eq_nil_iff.mpr fun c hc hf => ?_
  cases ho : c.2.outcome with
  | none =>
    rw [ho] at hf
    cases hf
  | some out =>
    rw [ho, Option.any_some, Bool.and_eq_true, decide_eq_true_eq] at hf
    have hon : onIncident id c = true := (onIncident_iff ho).mpr hf.1
    obtain ⟨r, hr, hid⟩ := h.row c hc hon
    exact hno r hr hid

theorem transitionCount (id : UUID) (ops : List Op) :
    TransitionCount id (history ops) (tableAfter ops) := by
  refine history_induction (R := TransitionCount id) ⟨by simp, by simp⟩ ?_ ops
  intro before op t' o ih h
  have ht := ids_nodup before
  have hold : ∀ c ∈ history before, onIncident id c = true → ∃ r ∈ t', r.id = id := by
    intro c hc hon
    obtain ⟨r, hr, hid⟩ := ih.row c hc hon
    obtain ⟨r', hr', hid'⟩ := step_keeps_rows ht h r hr
    exact ⟨r', hr', hid'.trans hid⟩
  cases hop : op.problem with
  | none =>
    obtain ⟨hrows, ho, -⟩ := step_no_problem ht hop h
    constructor
    · intro c hc hon
      rcases List.mem_append.mp hc with hc | hc
      · exact hold c hc hon
      · rw [List.mem_singleton.mp hc, onIncident_of_none ho] at hon
        cases hon
    · intro r' hr' hid
      obtain ⟨r, hr, hchg⟩ := exists_of_forall₂_right hrows hr'
      rw [firstTransitions_concat_none ho, (hchg.sameCounting hop).thresholdCrossed]
      exact ih.count r hr (hchg.id_eq ▸ hid)
  | some p =>
    obtain ⟨out, ho, heff⟩ := step_problem ht hop h
    constructor
    · intro c hc hon
      rcases List.mem_append.mp hc with hc | hc
      · exact hold c hc hon
      · rw [List.mem_singleton.mp hc, onIncident_iff ho] at hon
        obtain ⟨x, hx, hid⟩ := heff.row_exists
        exact ⟨x, hx, hid.trans hon⟩
    · intro x hx hid
      rw [firstTransitions_concat_some ho]
      rcases heff.row_cases hx with ⟨hx, hne⟩ | ⟨hout, ⟨hfresh, rfl⟩ | ⟨r, w, hr, hm, rfl⟩⟩
      · rw [if_neg fun hh => hne (hid.trans hh.1.symm), Nat.add_zero]
        exact ih.count x hx hid
      · -- a fresh row has no calls behind it
        have hnone := ih.none_of_no_row fun r hr hrid =>
          hfresh.id_free r hr (hrid.trans (hid.symm.trans hfresh.id_eq))
        rw [hnone, List.length_nil, Nat.zero_add]
        simp [hid, IncidentAggregationWriteResult.outcome, insertedResult]
      · rw [ih.count r hr (hm.id_eq.symm.trans hid), hm.thresholdCrossed]
        simp only [IncidentAggregationWriteResult.outcome, updatedResult, hid, true_and]
        cases r.thresholdCrossed <;> cases w.state.val.crossed <;> simp

/-! ### One planned dispatch under constant parameters -/

/-- On an uncrossed row a problem crosses the threshold only by being counted. -/
theorem Merged.counted_of_first {p : ProblemCall} {r r' : Incident} {w : WindowUpdate}
    (hr : RowInvariant r) (h : Merged p r w r')
    (hsame : r.windowState.val.thresholdCount = p.input.thresholdCount)
    (hfirst : (updatedResult r r' w).outcome.firstThresholdTransition = true) :
    w.replay = false ∧ w.insideWindow = true := by
  cases h with
  | intro eventTime context hopen hkey hw htime hlen hcontext =>
  have hnext := nextWindowState_eq_ok hw
  have hfirst : (!r.thresholdCrossed && (r.thresholdCrossed || w.state.val.crossed)) = true := hfirst
  have hnot : r.thresholdCrossed = false := by
    cases hc : r.thresholdCrossed with
    | false => rfl
    | true => simp [hc] at hfirst
  have hcross : w.state.val.crossed = true := by simpa [hnot] using hfirst
  have hlt : r.windowState.val.countedCount < r.windowState.val.thresholdCount := by
    by_contra hge
    exact absurd (hr.crossed (not_lt.mp hge)) (by simp [hnot])
  have hge : w.state.val.thresholdCount ≤ w.state.val.countedCount := of_decide_eq_true hcross
  rw [hnext.thresholdCount, hnext.countedCount, ← Dict.size_map (f := Datetime.instant),
    hnext.timestamps] at hge
  have hgrow := hge.trans size_nextCounted_le
  have hsize := hr.counted_eq
  rw [← Incident.window_size] at hsize
  -- the count was below the threshold, so the event itself must have been counted
  have hcounted : isCounted (nextWindowStart r p.input) (nextWindowEnd r p.input)
      p.input.fingerprint p.input.eventTime.instant
      r.window.countedFingerprintTimestamps = true := by
    by_contra hno
    rw [if_neg hno] at hgrow
    omega
  obtain ⟨hin, hnew⟩ := isCounted_iff.mp hcounted
  exact ⟨hnext.replay.trans hnew, hnext.insideWindow.trans (decide_eq_true hin.1)⟩

/-- What the calls on an incident answer while its rule's threshold stays the same. -/
structure UniformCalls (id : UUID) (threshold : ℤ) (l : List (Op × Answer)) (t : List Incident) :
    Prop where
  threshold : ∀ r ∈ t, r.id = id → r.windowState.val.thresholdCount = threshold.toNat
  first : ∀ c ∈ l, ∀ out, c.2.outcome = some out → out.incidentId = id →
    (out.firstThresholdTransition = true → out.replay = false ∧ out.insideWindow = true) ∧
    c.2.dispatchPlanned = out.firstThresholdTransition

theorem uniformCalls (id : UUID) (threshold duration : ℤ) (ops : List Op) :
    (∀ c ∈ history ops, onIncident id c = true → AppliedUnder threshold duration c.1) →
      UniformCalls id threshold (history ops) (tableAfter ops) := by
  refine history_induction
    (R := fun l t => (∀ c ∈ l, onIncident id c = true → AppliedUnder threshold duration c.1) →
      UniformCalls id threshold l t) (fun _ => ⟨by simp, by simp⟩) ?_ ops
  intro before op t' o ih h huni
  have ih := ih fun c hc => huni c (List.mem_append_left _ hc)
  have ht := ids_nodup before
  cases hop : op.problem with
  | none =>
    obtain ⟨hrows, ho, -⟩ := step_no_problem ht hop h
    constructor
    · intro r' hr' hid
      obtain ⟨r, hr, hchg⟩ := exists_of_forall₂_right hrows hr'
      obtain ⟨objs, hwin⟩ := (hchg.sameCounting hop).window
      have hthreshold : r'.windowState.val.thresholdCount = r.windowState.val.thresholdCount :=
        (congrArg WindowFields.thresholdCount hwin :)
      rw [hthreshold]
      exact ih.threshold r hr (hchg.id_eq ▸ hid)
    · intro c hc out hout hid
      rcases List.mem_append.mp hc with hc | hc
      · exact ih.first c hc out hout hid
      · rw [List.mem_singleton.mp hc, ho] at hout
        cases hout
  | some p =>
    obtain ⟨out, ho, heff⟩ := step_problem ht hop h
    -- a call on this incident is an `apply_problem` call under the rule
    have hcall : out.incidentId = id → p.input.thresholdCount = threshold.toNat ∧
        (o.dispatchPlanned = true ↔ out.replay = false ∧ out.firstThresholdTransition = true) := by
      intro hid
      obtain ⟨now, id', configHash, event, decision, rfl, hthr, -⟩ :=
        huni (op, o) (by simp) ((onIncident_iff ho).mpr hid)
      obtain ⟨-, -, context, hpass, hin⟩ := applyProblem_problem hop
      obtain ⟨res, hres, rfl⟩ := answer_eq_ok.mp h
      obtain ⟨-, -, -, hplan⟩ := applyProblem_effect ht hres
      cases ho
      refine ⟨by rw [hin, ← hthr]; rfl, ?_⟩
      rw [← hplan]
      exact decide_eq_true_iff
    have hthreshold : ∀ x ∈ t', x.id = id →
        x.windowState.val.thresholdCount = threshold.toNat := by
      intro x hx hid
      by_cases hon : x.id = out.incidentId
      · exact (heff.underRule hx hon).1.thresholdCount.trans (hcall (hon.symm.trans hid)).1
      · rcases heff.row_cases hx with ⟨hx, -⟩ | ⟨hon', -⟩
        · exact ih.threshold x hx hid
        · exact absurd hon' hon
    -- and its first transition is a counted event
    have hfirst : out.incidentId = id → out.firstThresholdTransition = true →
        out.replay = false ∧ out.insideWindow = true := by
      intro hid hf
      obtain ⟨x, hx, hxid⟩ := heff.row_exists
      rcases heff.row_cases hx with ⟨-, hne⟩ | ⟨-, ⟨-, rfl⟩ | ⟨r, w, hr, hm, rfl⟩⟩
      · exact absurd hxid hne
      · exact ⟨rfl, rfl⟩
      · have hrid : r.id = id := hm.id_eq.symm.trans hid
        refine hm.counted_of_first (invariant_of_mem hr) ?_ hf
        rw [ih.threshold r hr hrid, (hcall hid).1]
    refine ⟨hthreshold, fun c hc out' hout hid => ?_⟩
    rcases List.mem_append.mp hc with hc | hc
    · exact ih.first c hc out' hout hid
    · rw [List.mem_singleton.mp hc] at hout ⊢
      cases ho.symm.trans hout
      refine ⟨hfirst hid, ?_⟩
      rw [Bool.eq_iff_iff, (hcall hid).2]
      exact ⟨fun hh => hh.2, fun hh => ⟨(hfirst hid hh).1, hh⟩⟩

/-- A crossed row stays crossed. -/
theorem RowChange.thresholdCrossed {op : Op} {r r' : Incident} (h : RowChange op r r')
    (hr : r.thresholdCrossed = true) : r'.thresholdCrossed = true := by
  cases h with
  | same => exact hr
  | merged _ hm =>
    rw [hm.thresholdCrossed, hr, Bool.true_or]
  | recovered => exact (SameCounting.recovered _ _ _ r).thresholdCrossed.trans hr
  | acknowledged => exact hr
  | closed => exact hr
  | notified => exact hr

/-- **One crossing, one dispatch.**  For every incident and every run: its `threshold_crossed` never
goes back to false; at most one call on it answers a first transition; and when its problems were
all applied under one threshold and duration, it is crossed exactly when one call on it planned a
dispatch, which is the first-transition call, no replay and not outside the window. -/
theorem crossing_once (id : UUID) (ops : List Op) :
    (∀ more, ∀ r ∈ tableAfter ops, r.id = id → r.thresholdCrossed = true →
      ∃ r' ∈ tableAfter (ops ++ more), r'.id = id ∧ r'.thresholdCrossed = true ∧
        ∀ x ∈ tableAfter (ops ++ more), x.id = id → x = r') ∧
    (firstTransitions id (history ops)).length ≤ 1 ∧
    ∀ threshold duration,
      (∀ c ∈ history ops, onIncident id c = true → AppliedUnder threshold duration c.1) →
      ∀ r ∈ tableAfter ops, r.id = id →
        (r.thresholdCrossed = true ↔ (plannedDispatches id (history ops)).length = 1) ∧
        ∀ c ∈ plannedDispatches id (history ops), ∀ out, c.2.outcome = some out →
          out.firstThresholdTransition = true ∧ out.replay = false ∧ out.insideWindow = true := by
  have hcount := transitionCount id ops
  refine ⟨?_, ?_, ?_⟩
  · intro more r hr hid hc
    obtain ⟨r', hr', hid', hkeep⟩ := row_between
      (Q := fun a b => a.thresholdCrossed = true → b.thresholdCrossed = true)
      (fun _ h => h) (fun _ _ _ _ hQ hchg h => hchg.thresholdCrossed (hQ h)) ops more r hr
    refine ⟨r', hr', hid'.trans hid, hkeep hc, fun x hx hxid => ?_⟩
    exact eq_of_key (ids_nodup (ops ++ more)) hx hr' (hxid.trans (hid'.trans hid).symm)
  · by_cases hrow : ∃ r ∈ tableAfter ops, r.id = id
    · obtain ⟨r, hr, hid⟩ := hrow
      rw [hcount.count r hr hid]
      split_ifs <;> omega
    · rw [hcount.none_of_no_row fun r hr hid => hrow ⟨r, hr, hid⟩]
      exact Nat.zero_le 1
  · intro threshold duration huni r hr hid
    have hcalls := uniformCalls id threshold duration ops huni
    have hsame : plannedDispatches id (history ops) = firstTransitions id (history ops) := by
      refine List.filter_congr fun c hc => ?_
      cases ho : c.2.outcome with
      | none => simp [onIncident, ho]
      | some out =>
        by_cases hon : out.incidentId = id
        · simp [onIncident, ho, hon, (hcalls.first c hc out ho hon).2]
        · simp [onIncident, ho, hon]
    rw [hsame]
    refine ⟨?_, fun c hc out ho => ?_⟩
    · rw [hcount.count r hr hid]
      cases r.thresholdCrossed <;> simp
    · obtain ⟨hcl, hf⟩ := List.mem_filter.mp hc
      rw [ho, Option.any_some, Bool.and_eq_true, decide_eq_true_eq] at hf
      exact ⟨hf.2, (hcalls.first c hcl out ho hf.1).1 hf.2⟩

/-! ### A run to look at -/

/-- A matched problem of the sample rule: threshold 2 within 60 seconds. -/
def sampleApply (fingerprint : String) (n : ℕ) : List Op :=
  let event : EventData :=
    { fingerprint, sourceId := "icinga", host := "db1", service := some "disk",
      severity := .critical, eventType := .problem, timestamp := (sampleTime n).toDatetime,
      tags := ⟨[], List.nodup_nil⟩, message := "disk full", ipAddress := none }
  let window : RuleWindow := ⟨⟨60, ["host"], 2⟩, by decide⟩
  let decision : MatchDecision :=
    { ruleName := "disk", priority := 1, matchedRules := ["disk"], groupKey := "host=db1",
      window, summary := "disk full on db1", actions := ["smtp"] }
  match modelValidate EventData.errors event, modelValidate MatchDecision.errors decision with
  | .ok event, .ok decision =>
    [.applyProblem (sampleTime n) (Fin.ofNat _ n) none event decision]
  | _, _ => []

theorem sampleApply_appliedUnder {fingerprint : String} {n : ℕ} {op : Op}
    (h : op ∈ sampleApply fingerprint n) : AppliedUnder 2 60 op := by
  unfold sampleApply at h
  simp only at h
  split at h
  · rename_i event decision _ hdecision
    have hwin : decision.val.window.val = ⟨60, ["host"], 2⟩ := by
      rw [modelValidate_eq_ok] at hdecision
      rw [hdecision]
    exact ⟨_, _, _, event, decision, List.mem_singleton.mp h, by rw [hwin], by rw [hwin]⟩
  · simp at h

/-- A problem, its replay, a second fingerprint that crosses, and a third one. -/
def sampleApplied : List Op :=
  sampleApply "cpu" 0 ++ sampleApply "cpu" 1 ++ sampleApply "mem" 5 ++ sampleApply "net" 7

theorem sampleApplied_row : 0 < (tableAfter sampleApplied).length := by decide

theorem crossing_once_sampleApplied :
    (plannedDispatches 0 (history sampleApplied)).length = 1 := by
  have huni : ∀ c ∈ history sampleApplied, onIncident 0 c = true → AppliedUnder 2 60 c.1 := by
    intro c hc _
    have hop := mem_of_mem_log hc
    simp only [sampleApplied, List.mem_append] at hop
    rcases hop with ((hop | hop) | hop) | hop <;> exact sampleApply_appliedUnder hop
  have hid : ((tableAfter sampleApplied).get ⟨0, sampleApplied_row⟩).id = 0 := by decide
  have hcrossed :
      ((tableAfter sampleApplied).get ⟨0, sampleApplied_row⟩).thresholdCrossed = true := by decide
  have hrow := (crossing_once 0 sampleApplied).2.2 2 60 huni _ (List.get_mem _ _) hid
  exact hrow.1.mp hcrossed

end Correlia
