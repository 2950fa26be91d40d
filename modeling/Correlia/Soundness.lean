import Correlia.Lifetimes

/-!
# Soundness — a crossed window is a set of real events

Every retained entry of an incident is the fingerprint and timestamp of a problem applied to that
incident (`RetainedApplied`), and what is counted lies in the window; so a crossing is witnessed by
as many applied events as its threshold.  All of this as long as no offset with seconds has put a
timestamp where its event was not.
-/

namespace Correlia

open Lib

/-- The fingerprint and timestamp of a problem. -/
def ProblemCall.event (p : ProblemCall) : String × Instant :=
  (p.input.fingerprint, p.input.eventTime.instant)

/-- The events of the problems applied to an incident. -/
def appliedEvents (id : UUID) (l : List (Op × Answer)) : List (String × Instant) :=
  (l.filter (onIncident id)).filterMap fun c => c.1.problem.map ProblemCall.event

/-- `count` applied events with distinct fingerprints in the `window` seconds up to `windowEnd`. -/
def Witnessed (l : List (Op × Answer)) (id : UUID) (count window : ℕ) (windowEnd : Instant) : Prop :=
  ∃ events : List (String × Instant), events.length = count ∧ (events.map Prod.fst).Nodup ∧
    ∀ e ∈ events, e ∈ appliedEvents id l ∧ windowEnd - seconds window ≤ e.2 ∧ e.2 ≤ windowEnd

/-- No more is witnessed than was applied in the window. -/
theorem Witnessed.count_le {l : List (Op × Answer)} {id : UUID} {count window : ℕ}
    {windowEnd : Instant} (h : Witnessed l id count window windowEnd) :
    count ≤ ((appliedEvents id l).filter fun e =>
      decide (windowEnd - seconds window ≤ e.2 ∧ e.2 ≤ windowEnd)).length := by
  obtain ⟨events, rfl, hnodup, hall⟩ := h
  refine (hnodup.of_map.subperm fun e he => ?_).length_le
  obtain ⟨happlied, hin⟩ := hall e he
  exact List.mem_filter.mpr ⟨happlied, decide_eq_true hin⟩

theorem appliedEvents_append (id : UUID) (l l' : List (Op × Answer)) :
    appliedEvents id (l ++ l') = appliedEvents id l ++ appliedEvents id l' := by
  simp [appliedEvents]

theorem appliedEvents_mono {id : UUID} {l l' : List (Op × Answer)} {e : String × Instant}
    (h : e ∈ appliedEvents id l) : e ∈ appliedEvents id (l ++ l') := by
  rw [appliedEvents_append]
  exact List.mem_append_left _ h

theorem event_mem_appliedEvents {id : UUID} {l : List (Op × Answer)} {op : Op} {o : Answer}
    {p : ProblemCall} {out : ProblemOutcome} (hop : op.problem = some p)
    (ho : o.outcome = some out) (hid : out.incidentId = id) :
    p.event ∈ appliedEvents id (l ++ [(op, o)]) := by
  rw [appliedEvents_append]
  refine List.mem_append_right _ (List.mem_filterMap.mpr ⟨(op, o), ?_, by rw [hop]; rfl⟩)
  exact List.mem_filter.mpr ⟨List.mem_singleton_self _, (onIncident_iff ho).mpr hid⟩

/-- Every retained entry is an applied event of the row's incident. -/
def RetainedApplied (l : List (Op × Answer)) (t : List Incident) : Prop :=
  ∀ r ∈ t, WholeOffsets r.id l → ∀ e ∈ r.window.countedFingerprintTimestamps.entries,
    e ∈ appliedEvents r.id l

/-- The retained entries of a reachable row are applied events. -/
theorem retainedApplied (ops : List Op) : RetainedApplied (history ops) (tableAfter ops) := by
  refine history_induction (R := RetainedApplied) (by simp [RetainedApplied]) ?_ ops
  intro before op t' o ih h x hx hwhole e he
  have ht := ids_nodup before
  cases hop : op.problem with
  | none =>
    obtain ⟨hrows, -, -⟩ := step_no_problem ht hop h
    obtain ⟨r, hr, hchg⟩ := exists_of_forall₂_right hrows hx
    obtain ⟨objs, hwin⟩ := (hchg.sameCounting hop).window
    rw [hwin] at he
    rw [hchg.id_eq]
    exact appliedEvents_mono (ih r hr (hchg.id_eq ▸ hwhole.of_append) e he)
  | some p =>
    obtain ⟨out, ho, heff⟩ := step_problem ht hop h
    rcases heff.row_cases hx with ⟨hx, -⟩ | ⟨hid, ⟨hfresh, -⟩ | ⟨r, w, hr, hm, -⟩⟩
    · exact appliedEvents_mono (ih x hx hwhole.of_append e he)
    · have hlast := (hid ▸ hwhole).last hop ho
      rw [hfresh.window.2, Datetime.dump_instant hlast] at he
      rcases Dict.mem_insert.mp he with rfl | ⟨he, -⟩
      · exact event_mem_appliedEvents hop ho hid.symm
      · simp [Dict.empty] at he
    · have hlast := (hid ▸ hwhole).last hop ho
      rw [(hm.window hlast).2.2] at he
      rcases (mem_nextCounted he).1 with he | rfl
      · rw [hm.id_eq]
        exact appliedEvents_mono (ih r hr (hm.id_eq ▸ hwhole.of_append) e he)
      · exact event_mem_appliedEvents hop ho hid.symm

/-- A row whose count reaches a number is witnessed by as many events. -/
theorem witnessed_of_count {ops : List Op} {r : Incident} (hr : r ∈ tableAfter ops)
    (hwhole : WholeOffsets r.id (history ops)) (hcross : r.windowState.val.crossed = true) :
    Witnessed (history ops) r.id r.windowState.val.thresholdCount r.windowState.val.windowSeconds
      r.lastUpdateTime.val := by
  have hinv := invariant_of_mem hr
  have hwin := windowInvariant_of_mem ops r hr hwhole
  have hle : r.windowState.val.thresholdCount ≤ r.window.countedFingerprintTimestamps.size := by
    rw [r.window_size, ← hinv.counted_eq]
    exact of_decide_eq_true hcross
  set d := r.window.countedFingerprintTimestamps with hd
  refine ⟨d.entries.take r.windowState.val.thresholdCount, List.length_take_of_le hle, ?_, ?_⟩
  · exact d.keys_nodup.sublist ((List.take_sublist _ _).map _)
  · intro e he
    have he := List.mem_of_mem_take he
    have hin := hwin.inside e he
    rw [hinv.started_eq, hwin.ended_eq] at hin
    exact ⟨retainedApplied ops r hr hwhole e he, hin⟩

/-- The row of a call that answers `window_crossed = true`. -/
theorem witnessed_of_call {ops : List Op} {op : Op} {p : ProblemCall} {t' : List Incident}
    {o : Answer} {out : ProblemOutcome} (hop : op.problem = some p)
    (h : step op (tableAfter ops) = .ok (t', o)) (ho : o.outcome = some out)
    (hcross : out.windowCrossed = true)
    (hwhole : WholeOffsets out.incidentId (history (ops ++ [op]))) :
    ∃ r ∈ tableAfter (ops ++ [op]), r.id = out.incidentId ∧
      Witnessed (history (ops ++ [op])) r.id p.input.thresholdCount p.input.windowSeconds
        r.lastUpdateTime.val := by
  have hrun : tableAfter (ops ++ [op]) = t' := (run_concat_ok h).1
  obtain ⟨out', ho', heff⟩ := step_problem (ids_nodup ops) hop h
  cases ho.symm.trans ho'
  obtain ⟨r, hr, hid⟩ := heff.row_exists
  obtain ⟨hrule, hwc⟩ := heff.underRule hr hid
  rw [← hrun] at hr
  have hw := witnessed_of_count hr (hid ▸ hwhole) (hwc ▸ hcross)
  rw [hrule.thresholdCount, hrule.windowSeconds] at hw
  exact ⟨r, hr, hid, hw⟩

/-- A call of the run that first crossed an incident's threshold. -/
def CrossedDuring (ops : List Op) (id : UUID) : Prop :=
  ∃ before op after p, ops = before ++ op :: after ∧ op.problem = some p ∧
    ∃ r ∈ tableAfter (before ++ [op]), r.id = id ∧
      Witnessed (history (before ++ [op])) id p.input.thresholdCount p.input.windowSeconds
        r.lastUpdateTime.val

theorem CrossedDuring.concat {ops : List Op} {id : UUID} (h : CrossedDuring ops id) (op : Op) :
    CrossedDuring (ops ++ [op]) id := by
  obtain ⟨before, op', after, p, rfl, hp, hw⟩ := h
  exact ⟨before, op', after ++ [op], p, by simp, hp, hw⟩

/-- A stored crossing marker goes back to a call that crossed. -/
theorem crossedDuring_of_marker (ops : List Op) :
    ∀ r ∈ tableAfter ops, r.thresholdCrossed = true → WholeOffsets r.id (history ops) →
      CrossedDuring ops r.id := by
  induction ops using List.reverseRecOn with
  | nil => simp [tableAfter]
  | append_singleton ops op ih =>
    intro x hx hcross hwhole
    cases h : step op (tableAfter ops) with
    | error e =>
      have hrun : tableAfter (ops ++ [op]) = tableAfter ops := (run_concat_error h).1
      have hlog : history (ops ++ [op]) = history ops := (run_concat_error h).2
      rw [hrun] at hx
      rw [hlog] at hwhole
      exact (ih x hx hcross hwhole).concat op
    | ok res =>
      obtain ⟨t', o⟩ := res
      have hrun : tableAfter (ops ++ [op]) = t' := (run_concat_ok h).1
      have hlog : history (ops ++ [op]) = history ops ++ [(op, o)] := (run_concat_ok h).2
      have hbefore : WholeOffsets x.id (history ops) := (hlog ▸ hwhole).of_append
      have ht := ids_nodup ops
      cases hop : op.problem with
      | none =>
        obtain ⟨hrows, -, -⟩ := step_no_problem ht hop h
        obtain ⟨r, hr, hchg⟩ := exists_of_forall₂_right hrows (hrun ▸ hx)
        rw [hchg.id_eq]
        exact (ih r hr ((hchg.sameCounting hop).thresholdCrossed ▸ hcross)
          (hchg.id_eq ▸ hbefore)).concat op
      | some p =>
        obtain ⟨out, ho, heff⟩ := step_problem ht hop h
        -- a row not crossed before is crossed by this very call
        have hnow : x.id = out.incidentId → out.windowCrossed = true →
            CrossedDuring (ops ++ [op]) x.id := by
          intro hid hwc
          obtain ⟨r, hr, hrid, hw⟩ := witnessed_of_call hop h ho hwc (hid ▸ hwhole)
          have hrx : r.id = x.id := hrid.trans hid.symm
          exact ⟨ops, op, [], p, rfl, hop, r, hr, hrx, hrx ▸ hw⟩
        rcases heff.row_cases (hrun ▸ hx) with
          ⟨hx, -⟩ | ⟨hid, ⟨hfresh, rfl⟩ | ⟨r, w, hr, hm, rfl⟩⟩
        · exact (ih x hx hcross hbefore).concat op
        · refine hnow hid ?_
          show x.windowState.val.crossed = true
          obtain ⟨_, state, _, hstate, _, rfl⟩ := hfresh.made
          obtain ⟨_, _, _, _, hval⟩ := initialWindowState_eq_ok hstate
          have hcross : decide (p.input.thresholdCount ≤ state.val.countedCount) = true := hcross
          show decide (state.val.thresholdCount ≤ state.val.countedCount) = true
          rw [hval] at hcross ⊢
          exact hcross
        · cases hrc : r.thresholdCrossed with
          | true =>
            rw [hm.id_eq]
            exact (ih r hr hrc (hm.id_eq ▸ hbefore)).concat op
          | false =>
            refine hnow hid ?_
            show w.state.val.crossed = true
            rwa [hm.thresholdCrossed, hrc, Bool.false_or] at hcross

/-- **Threshold soundness.**  In every run, as long as no problem recorded on the incident has a
UTC offset with seconds: a problem call that answers `window_crossed = true` under a threshold and a
window is witnessed by that many applied events of its incident, with distinct fingerprints, in the
window that ends at the incident's last update; and a stored crossing marker was witnessed so at an
earlier point of the run. -/
theorem crossing_sound (ops : List Op) :
    (∀ op p t' o out, op.problem = some p → step op (tableAfter ops) = .ok (t', o) →
      o.outcome = some out → out.windowCrossed = true →
      WholeOffsets out.incidentId (history (ops ++ [op])) →
      ∃ r ∈ tableAfter (ops ++ [op]), r.id = out.incidentId ∧
        Witnessed (history (ops ++ [op])) r.id p.input.thresholdCount p.input.windowSeconds
          r.lastUpdateTime.val) ∧
    ∀ r ∈ tableAfter ops, r.thresholdCrossed = true → WholeOffsets r.id (history ops) →
      CrossedDuring ops r.id :=
  ⟨fun _ _ _ _ _ hop h ho hcross hwhole => witnessed_of_call hop h ho hcross hwhole,
    crossedDuring_of_marker ops⟩

/-- The crossing of the sample run. -/
theorem crossing_sound_sampleRun : ∃ r ∈ tableAfter sampleRun, CrossedDuring sampleRun r.id := by
  have hcross : ((tableAfter sampleRun).get ⟨0, sampleRun_row⟩).thresholdCrossed = true := by decide
  exact ⟨_, List.get_mem _ _, (crossing_sound sampleRun).2 _ (List.get_mem _ _) hcross
    (sampleRun_wholeOffsets _)⟩

/-- Two events 35 seconds apart, 5 seconds by their local times. -/
def earlyRun : List Op := halfMinuteProblem "cpu" 0 2 10 ++ sampleProblem "mem" 5 2 10

/-- The second call counts two in a window of ten seconds that holds one. -/
theorem crossing_sound_halfMinute :
    (∃ c, (history earlyRun).getLast? = some c ∧
      ∃ out, c.2.outcome = some out ∧ out.windowCrossed = true) ∧
    ∀ r ∈ tableAfter earlyRun, ¬Witnessed (history earlyRun) r.id 2 10 r.lastUpdateTime.val := by
  have hcall : (((history earlyRun).getLast?.bind fun c => c.2.outcome).any
      fun out => out.windowCrossed) = true := by decide
  have hfew : ∀ r ∈ tableAfter earlyRun, ((appliedEvents r.id (history earlyRun)).filter fun e =>
      decide (r.lastUpdateTime.val - seconds 10 ≤ e.2 ∧ e.2 ≤ r.lastUpdateTime.val)).length < 2 := by
    decide
  refine ⟨?_, fun r hr hw => absurd hw.count_le (not_le.mpr (hfew r hr))⟩
  obtain ⟨out, hout, hcross⟩ := Option.any_eq_true _ _ |>.mp hcall
  obtain ⟨c, hc, ho⟩ := Option.bind_eq_some_iff.mp hout
  exact ⟨c, hc, out, ho, hcross⟩

end Correlia
