import Correlia.Soundness

/-!
# Completeness — a full window crosses the threshold

A replay of a retained fingerprint does not renew its timestamp, so a fingerprint leaves the window
with the event that was counted, whatever came after.  Up to that, nothing is missed: an uncrossed
row holds every first sighting that is still inside its window (`Complete`), since a map with less
than its threshold has evicted nothing.
-/

namespace Correlia

open Lib

/-- The call was not answered as a replay of a retained fingerprint. -/
def isSighting (c : Op × Answer) : Bool := c.2.outcome.any fun out => !out.replay

/-- The calls that were not answered as replays. -/
def sightings (l : List (Op × Answer)) : List (Op × Answer) := l.filter isSighting

/-- Every problem recorded on the incident had this threshold and window. -/
def SameRule (id : UUID) (threshold window : ℕ) (l : List (Op × Answer)) : Prop :=
  ∀ c ∈ l, onIncident id c = true → ∀ p, c.1.problem = some p →
    p.input.thresholdCount = threshold ∧ p.input.windowSeconds = window

theorem SameRule.of_append {id : UUID} {threshold window : ℕ} {l l' : List (Op × Answer)}
    (h : SameRule id threshold window (l ++ l')) : SameRule id threshold window l :=
  fun c hc => h c (List.mem_append_left _ hc)

theorem sightings_concat_none {l : List (Op × Answer)} {op : Op} {o : Answer}
    (ho : o.outcome = none) : sightings (l ++ [(op, o)]) = sightings l := by
  simp [sightings, isSighting, ho]

/-- The sightings on an incident after a call: the earlier ones, and the call when it is one. -/
theorem mem_sightings_concat {id : UUID} {l : List (Op × Answer)} {op : Op} {o : Answer}
    {p : ProblemCall} {out : ProblemOutcome} {e : String × Instant} (hop : op.problem = some p)
    (ho : o.outcome = some out) :
    e ∈ appliedEvents id (sightings (l ++ [(op, o)])) ↔
      e ∈ appliedEvents id (sightings l) ∨
        (out.incidentId = id ∧ out.replay = false ∧ e = p.event) := by
  rw [sightings, List.filter_append, appliedEvents_append, List.mem_append]
  refine or_congr_right ?_
  by_cases hid : out.incidentId = id
  · by_cases hrep : out.replay = false
    · simp [appliedEvents, isSighting, onIncident, ho, hop, hid, hrep]
    · simp [appliedEvents, isSighting, ho, hrep]
  · by_cases hrep : out.replay = false
    · simp [appliedEvents, isSighting, onIncident, ho, hid, hrep]
    · simp [appliedEvents, isSighting, ho, hrep]

/-- An uncrossed row retains every sighting that is inside its window. -/
structure Complete (id : UUID) (threshold window : ℕ) (l : List (Op × Answer)) (r : Incident) :
    Prop where
  thresholdCount : r.windowState.val.thresholdCount = threshold
  windowSeconds : r.windowState.val.windowSeconds = window
  retained : r.thresholdCrossed = false → ∀ e ∈ appliedEvents id (sightings l),
    r.window.windowStartedAt ≤ e.2 → e ∈ r.window.countedFingerprintTimestamps.entries

/-- The merge of a problem that leaves its row uncrossed. -/
theorem Merged.complete {p : ProblemCall} {r r' : Incident} {w : WindowUpdate} {id : UUID}
    {threshold window : ℕ} {l : List (Op × Answer)} (hr : RowInvariant r) (hrwin : WindowInvariant r)
    (ih : Complete id threshold window l r) (h : Merged p r w r')
    (hwindow : p.input.windowSeconds = window) (hwhole : p.input.eventTime.WholeMinutes)
    (hnot : r'.thresholdCrossed = false) {e : String × Instant}
    (he : e ∈ appliedEvents id (sightings l) ∨ (w.replay = false ∧ e = p.event))
    (hin : r'.window.windowStartedAt ≤ e.2) :
    e ∈ r'.window.countedFingerprintTimestamps.entries := by
  obtain ⟨hstarted, -, htimes⟩ := h.window hwhole
  rw [h.thresholdCrossed, Bool.or_eq_false_iff] at hnot
  obtain ⟨hrnot, hwnot⟩ := hnot
  rw [hstarted] at hin
  rw [htimes]
  cases h with
  | intro eventTime context hopen hkey hw htime hlen hcontext =>
  have hnext := nextWindowState_eq_ok hw
  -- below the threshold there is room, so nothing is evicted
  have hroom : (nextCounted (nextWindowStart r p.input) (nextWindowEnd r p.input)
      p.input.fingerprint p.input.eventTime.instant p.input.maxWindowFingerprints
      r.window.countedFingerprintTimestamps).size < p.input.maxWindowFingerprints := by
    have hlt : ¬w.state.val.thresholdCount ≤ w.state.val.countedCount := of_decide_eq_false hwnot
    have hle := p.input.threshold_le
    rw [hnext.thresholdCount, hnext.countedCount] at hlt
    rw [← hnext.timestamps, Dict.size_map]
    omega
  rw [mem_nextCounted_of_size_lt hroom]
  rcases he with he | ⟨hrep, rfl⟩
  · -- the window only moves forward
    have hend : r.window.windowEndedAt ≤ nextWindowEnd r p.input :=
      hrwin.ended_eq.trans_le (le_max_left _ _)
    have hmono : r.window.windowStartedAt ≤ nextWindowStart r p.input := by
      rw [hr.started_eq, ih.windowSeconds, nextWindowStart, hwindow]
      exact sub_le_sub_right hend _
    have hold := ih.retained hrnot e he (hmono.trans hin)
    exact Or.inl ⟨hold, hin, (hrwin.inside e hold).2.trans hend⟩
  · refine Or.inr ⟨isCounted_iff.mpr ⟨⟨hin, le_max_right _ _⟩, ?_⟩, rfl⟩
    exact hnext.replay.symm.trans hrep

theorem complete (threshold window : ℕ) (ops : List Op) :
    ∀ r ∈ tableAfter ops, SameRule r.id threshold window (history ops) →
      WholeOffsets r.id (history ops) → Complete r.id threshold window (history ops) r := by
  refine history_induction
    (R := fun l t => ∀ r ∈ t, SameRule r.id threshold window l → WholeOffsets r.id l →
      Complete r.id threshold window l r) (by simp) ?_ ops
  intro before op t' o ih h x hx huni hwhole
  have ht := ids_nodup before
  cases hop : op.problem with
  | none =>
    obtain ⟨hrows, ho, -⟩ := step_no_problem ht hop h
    obtain ⟨r, hr, hchg⟩ := exists_of_forall₂_right hrows hx
    have hsame := hchg.sameCounting hop
    obtain ⟨objs, hwin⟩ := hsame.window
    have hold := ih r hr (hchg.id_eq ▸ huni.of_append) (hchg.id_eq ▸ hwhole.of_append)
    refine ⟨?_, ?_, ?_⟩
    · exact (congrArg WindowFields.thresholdCount hwin :).trans hold.thresholdCount
    · exact (congrArg WindowFields.windowSeconds hwin :).trans hold.windowSeconds
    · rw [hwin, hsame.thresholdCrossed, sightings_concat_none ho, hchg.id_eq]
      exact hold.retained
  | some p =>
    obtain ⟨out, ho, heff⟩ := step_problem ht hop h
    rcases heff.row_cases hx with ⟨hx, hne⟩ | ⟨hid, hcases⟩
    · have hold := ih x hx huni.of_append hwhole.of_append
      refine ⟨hold.thresholdCount, hold.windowSeconds, fun hnot e he => ?_⟩
      rw [mem_sightings_concat hop ho] at he
      exact hold.retained hnot e (he.resolve_right fun hh => hne hh.1.symm)
    · have hon : onIncident x.id (op, o) = true := (onIncident_iff ho).mpr hid.symm
      obtain ⟨hthr, hwindow⟩ := huni (op, o) (by simp) hon p hop
      have hlast := (hid ▸ hwhole).last hop ho
      obtain ⟨hrule, -⟩ := heff.underRule hx hid
      refine ⟨hrule.thresholdCount.trans hthr, hrule.windowSeconds.trans hwindow, ?_⟩
      intro hnot e he hin
      rw [mem_sightings_concat hop ho] at he
      rcases hcases with ⟨hfresh, rfl⟩ | ⟨r, w, hr, hm, rfl⟩
      · -- nothing was applied to a fresh row before
        have hnone : e ∉ appliedEvents x.id (sightings (history before)) := by
          intro hin'
          obtain ⟨c, hc, -⟩ := List.mem_filterMap.mp hin'
          obtain ⟨hc, hon'⟩ := List.mem_filter.mp hc
          obtain ⟨r, hr, hrid⟩ :=
            (transitionCount x.id before).row c (List.mem_filter.mp hc).1 hon'
          exact hfresh.id_free r hr (hrid.trans hfresh.id_eq)
        rw [(he.resolve_left hnone).2.2, hfresh.window.2, Datetime.dump_instant hlast]
        exact List.mem_singleton_self _
      · have he' : e ∈ appliedEvents r.id (sightings (history before)) ∨
            (w.replay = false ∧ e = p.event) := by
          rw [← hm.id_eq]
          exact he.imp_right fun hh => hh.2
        have hrwhole : WholeOffsets r.id (history before) := hm.id_eq ▸ hwhole.of_append
        exact hm.complete (invariant_of_mem hr) (windowInvariant_of_mem before r hr hrwhole)
          (ih r hr (hm.id_eq ▸ huni.of_append) hrwhole) hwindow hlast hnot he' hin

/-- **Window completeness.**  While the problems on an incident come with one threshold and one
window, and with UTC offsets of whole minutes: once the events applied to it, replays of retained
fingerprints aside, include as many distinct fingerprints as the threshold in the window that ends
at its last update, it is crossed. -/
theorem window_complete (ops : List Op) (threshold window : ℕ) (r : Incident)
    (hr : r ∈ tableAfter ops) (hrule : SameRule r.id threshold window (history ops))
    (hwhole : WholeOffsets r.id (history ops))
    (hfull : Witnessed (sightings (history ops)) r.id threshold window r.lastUpdateTime.val) :
    r.thresholdCrossed = true := by
  obtain ⟨events, hlen, hnodup, hall⟩ := hfull
  have hinv := invariant_of_mem hr
  have hrwin := windowInvariant_of_mem ops r hr hwhole
  have hcomplete := complete threshold window ops r hr hrule hwhole
  by_contra hnot
  rw [Bool.not_eq_true] at hnot
  set d := r.window.countedFingerprintTimestamps with hd
  have hsub : events ⊆ d.entries := by
    intro e he
    obtain ⟨happ, hstart, -⟩ := hall e he
    refine hcomplete.retained hnot e happ ?_
    rw [hinv.started_eq, hrwin.ended_eq, hcomplete.windowSeconds]
    exact hstart
  have hle : events.length ≤ d.size := (hnodup.of_map.subperm hsub).length_le
  have hcross := hinv.crossed (by
    rw [hcomplete.thresholdCount, hinv.counted_eq, ← r.window_size, ← hlen]
    exact hle)
  rw [hnot] at hcross
  cases hcross

/-! ### Runs to look at -/

theorem sampleProblem_rule {fingerprint : String} {n : ℕ} {threshold window : ℤ} {op : Op}
    {p : ProblemCall} (hop : op ∈ sampleProblem fingerprint n threshold window)
    (hp : op.problem = some p) :
    p.input.thresholdCount = threshold.toNat ∧ p.input.windowSeconds = window.toNat := by
  obtain ⟨hpass, hin⟩ := sampleProblem_input hop hp
  rw [hin]
  exact ⟨rfl, rfl⟩

theorem sampleRun_rule (id : UUID) : SameRule id 2 60 (history sampleRun) := by
  intro c hc _ p hp
  have hop := mem_of_mem_log hc
  simp only [sampleRun, List.mem_append] at hop
  rcases hop with (hop | hop) | hop
  · exact sampleProblem_rule hop hp
  · exact sampleProblem_rule hop hp
  · rw [List.mem_singleton.mp hop] at hp
    cases hp

theorem window_complete_sampleRun :
    ((tableAfter sampleRun).get ⟨0, sampleRun_row⟩).thresholdCrossed = true := by
  refine window_complete sampleRun 2 60 _ (List.get_mem _ _) (sampleRun_rule _)
    (sampleRun_wholeOffsets _)
    ⟨[("cpu", (sampleTime 0).val), ("mem", (sampleTime 5).val)], rfl, by decide, ?_⟩
  decide

/-- A problem, its replay while it is retained, and another one when only the replay is recent. -/
def lateReplayRun : List Op :=
  sampleProblem "cpu" 0 2 10 ++ sampleProblem "cpu" 8 2 10 ++ sampleProblem "mem" 12 2 10

theorem lateReplayRun_row : 0 < (tableAfter lateReplayRun).length := by decide

theorem lateReplayRun_rule (id : UUID) : SameRule id 2 10 (history lateReplayRun) := by
  intro c hc _ p hp
  have hop := mem_of_mem_log hc
  simp only [lateReplayRun, List.mem_append] at hop
  rcases hop with (hop | hop) | hop
  all_goals exact sampleProblem_rule hop hp

/-- With replays among the events the window can be full and the row uncrossed. -/
theorem window_incomplete : ¬∀ (ops : List Op) (threshold window : ℕ) (r : Incident),
    r ∈ tableAfter ops → r.status = .«open» → SameRule r.id threshold window (history ops) →
    Witnessed (history ops) r.id threshold window r.lastUpdateTime.val →
    r.thresholdCrossed = true := by
  intro hclaim
  have hrow := hclaim lateReplayRun 2 10 _ (List.get_mem _ ⟨0, lateReplayRun_row⟩) (by decide)
    (lateReplayRun_rule _)
    ⟨[("cpu", (sampleTime 8).val), ("mem", (sampleTime 12).val)], rfl, by decide, by decide⟩
  have hnot :
      ((tableAfter lateReplayRun).get ⟨0, lateReplayRun_row⟩).thresholdCrossed = false := by decide
  rw [hnot] at hrow
  cases hrow

end Correlia
