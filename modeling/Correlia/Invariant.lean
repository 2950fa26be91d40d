import Correlia.Effects
import Correlia.Persistence.Window

/-!
# Invariant — what every row of the incidents table satisfies

`RowInvariant` ties the derived columns and the derived fields of the window state to the data they
are derived from.  An insert establishes it, every other write keeps it (`RowChange.invariant`), so
every row of every reachable table has it.
-/

namespace Correlia

open Lib

structure RowInvariant (r : Incident) : Prop where
  counted_eq : r.windowState.val.countedCount =
    r.windowState.val.countedFingerprintTimestamps.size
  counted_le_max : r.windowState.val.countedCount ≤ r.windowState.val.maxSize
  max_le : r.windowState.val.maxSize ≤ 100
  threshold_le_max : r.windowState.val.thresholdCount ≤ r.windowState.val.maxSize
  started_eq : r.window.windowStartedAt =
    r.window.windowEndedAt - seconds r.windowState.val.windowSeconds
  counted_le_events : r.windowState.val.countedCount ≤ r.eventCount
  start_le : r.startTime ≤ r.lastUpdateTime
  crossed : r.windowState.val.thresholdCount ≤ r.windowState.val.countedCount →
    r.thresholdCrossed = true
  objects_sorted : Strict IncidentObject.sortKey r.windowState.val.activeObjects
  objects_open : r.status = .«open» → r.windowState.val.activeObjects ≠ []
  hosts_eq : r.affectedHosts =
    (sortedSet id (r.windowState.val.activeObjects.map fun o => o.val.host)).take 100
  services_eq : r.affectedServices =
    (sortedSet id (r.windowState.val.activeObjects.filterMap fun o => o.val.service)).take 100

/-! ### Inserting -/

/-- The times of a new incident's window, as they are read back. -/
theorem Fresh.window {p : ProblemCall} {t : List Incident} {r : Incident} (h : Fresh p t r) :
    r.window.windowEndedAt = p.input.eventTime.dump.instant ∧
    r.window.countedFingerprintTimestamps =
      Dict.empty.insert p.input.fingerprint p.input.eventTime.dump.instant := by
  obtain ⟨eventTime, state, context, hstate, htime, rfl⟩ := h.made
  obtain ⟨objs, start, hobjs, hstart, hval⟩ := initialWindowState_eq_ok hstate
  show (state.val.map Datetime.dump).windowEndedAt.instant = _ ∧
    ((state.val.map Datetime.dump).map Timestamp.instant).countedFingerprintTimestamps = _
  rw [hval]
  refine ⟨rfl, ?_⟩
  show ((Dict.empty.insert p.input.fingerprint p.input.eventTime).map Datetime.dump).map
    Timestamp.instant = _
  rw [Dict.map_map, Dict.map_insert]
  rfl

theorem Fresh.invariant {p : ProblemCall} {t : List Incident} {r : Incident} (h : Fresh p t r) :
    RowInvariant r := by
  obtain ⟨eventTime, state, context, hstate, htime, rfl⟩ := h.made
  obtain ⟨objs, start, hobjs, hstart, hval⟩ := initialWindowState_eq_ok hstate
  have hmax := p.input.max_le
  have hthr := p.input.threshold_le
  have hpos := p.input.thresholdCount_pos
  simp only [maxWindowFingerprints] at hmax
  constructor
  · show state.val.countedCount = (state.val.countedFingerprintTimestamps.map Datetime.dump).size
    rw [Dict.size_map, hval]
    rfl
  · show state.val.countedCount ≤ state.val.maxSize
    rw [hval]
    dsimp only
    omega
  · show state.val.maxSize ≤ 100
    rw [hval]
    exact hmax
  · show state.val.thresholdCount ≤ state.val.maxSize
    rw [hval]
    exact hthr
  · show state.val.windowStartedAt.dump.instant =
      state.val.windowEndedAt.dump.instant - seconds state.val.windowSeconds
    rw [hval]
    exact Datetime.dump_subSeconds hstart
  · show state.val.countedCount ≤ 1
    rw [hval]
  · exact le_refl _
  · intro hc
    have hc : state.val.thresholdCount ≤ state.val.countedCount := hc
    show decide (p.input.thresholdCount ≤ state.val.countedCount) = true
    rw [hval] at hc ⊢
    exact decide_eq_true hc
  · show Strict _ state.val.activeObjects
    rw [hval]
    exact activeObjectsFromInput_strict hobjs
  · intro _
    show state.val.activeObjects ≠ []
    rw [hval]
    exact activeObjectsFromInput_ne_nil hobjs
  · rfl
  · rfl

/-! ### Merging -/

theorem Merged.invariant {p : ProblemCall} {r r' : Incident} {w : WindowUpdate}
    (hr : RowInvariant r) (h : Merged p r w r') : RowInvariant r' := by
  cases h with
  | intro eventTime context hopen hkey hw htime hlen hcontext =>
  have hnext := nextWindowState_eq_ok hw
  obtain ⟨objs, hobjs, hactive⟩ := hnext.objects
  have hsize : w.state.val.countedFingerprintTimestamps.size =
      (nextCounted (nextWindowStart r p.input) (nextWindowEnd r p.input) p.input.fingerprint
        p.input.eventTime.instant p.input.maxWindowFingerprints
        r.window.countedFingerprintTimestamps).size := by
    rw [← hnext.timestamps, Dict.size_map]
  constructor
  · show w.state.val.countedCount = (w.state.val.countedFingerprintTimestamps.map Datetime.dump).size
    rw [Dict.size_map, hnext.countedCount]
  · show w.state.val.countedCount ≤ w.state.val.maxSize
    rw [hnext.countedCount, hsize, hnext.maxSize]
    exact size_nextCounted_le_max
  · show w.state.val.maxSize ≤ 100
    rw [hnext.maxSize]
    exact p.input.max_le
  · show w.state.val.thresholdCount ≤ w.state.val.maxSize
    rw [hnext.maxSize, hnext.thresholdCount]
    exact p.input.threshold_le
  · show w.state.val.windowStartedAt.dump.instant =
      w.state.val.windowEndedAt.dump.instant - seconds w.state.val.windowSeconds
    rw [hnext.endedAt, hnext.windowSeconds]
    exact Datetime.dump_subSeconds hnext.startedAt
  · -- the map grows by the counted event only, and so does the event count
    show w.state.val.countedCount ≤ r.eventCount + if w.counted then 1 else 0
    rw [hnext.countedCount, hsize, hnext.counted]
    refine size_nextCounted_le.trans ?_
    have := hr.counted_eq
    have := hr.counted_le_events
    have := r.window_size
    omega
  · exact hr.start_le.trans (le_max_left _ _)
  · intro hc
    show (r.thresholdCrossed || w.state.val.crossed) = true
    have hcr : w.state.val.crossed = true := decide_eq_true hc
    rw [hcr, Bool.or_true]
  · show Strict _ w.state.val.activeObjects
    rw [hactive]
    exact sortedSet_strict IncidentObject.sortKey_injective
  · intro _
    show w.state.val.activeObjects ≠ []
    rw [hactive, Ne, sortedSet_eq_nil, List.append_eq_nil_iff]
    exact fun hnil => activeObjectsFromInput_ne_nil hobjs hnil.2
  · rfl
  · rfl

/-! ### The other writes -/

/-- Replacing the active objects, with the affected sets recomputed. -/
theorem RowInvariant.withObjects {r r' : Incident} (hr : RowInvariant r)
    {objs : List IncidentObject} (hobjs : Strict IncidentObject.sortKey objs)
    (hopen : r'.status = .«open» → objs ≠ [])
    (hwindow : r'.window = { r.window with activeObjects := objs })
    (hlast : r'.lastUpdateTime = r.lastUpdateTime) (hstart : r'.startTime = r.startTime)
    (hevents : r'.eventCount = r.eventCount) (hcrossed : r'.thresholdCrossed = r.thresholdCrossed)
    (haffected : (r'.affectedHosts, r'.affectedServices) = affectedSetsFromObjects objs) :
    RowInvariant r' := by
  obtain ⟨hhosts, hservices⟩ := Prod.mk.inj haffected
  have hcount : r'.windowState.val.countedCount = r.windowState.val.countedCount :=
    (congrArg WindowFields.countedCount hwindow :)
  have hmax : r'.windowState.val.maxSize = r.windowState.val.maxSize :=
    (congrArg WindowFields.maxSize hwindow :)
  have hthreshold : r'.windowState.val.thresholdCount = r.windowState.val.thresholdCount :=
    (congrArg WindowFields.thresholdCount hwindow :)
  have hseconds : r'.windowState.val.windowSeconds = r.windowState.val.windowSeconds :=
    (congrArg WindowFields.windowSeconds hwindow :)
  have hactive : r'.windowState.val.activeObjects = objs :=
    (congrArg WindowFields.activeObjects hwindow :)
  constructor
  · rw [hcount, ← r'.window_size, hwindow]
    exact hr.counted_eq.trans r.window_size.symm
  · rw [hcount, hmax]
    exact hr.counted_le_max
  · rw [hmax]
    exact hr.max_le
  · rw [hthreshold, hmax]
    exact hr.threshold_le_max
  · rw [hwindow, hseconds]
    exact hr.started_eq
  · rw [hcount, hevents]
    exact hr.counted_le_events
  · rw [hstart, hlast]
    exact hr.start_le
  · rw [hthreshold, hcount, hcrossed]
    exact hr.crossed
  · rw [hactive]
    exact hobjs
  · rw [hactive]
    exact hopen
  · rw [hactive]
    exact hhosts
  · rw [hactive]
    exact hservices

theorem remainingObjects_strict {covered : IncidentObject → Bool} {r : Incident}
    (h : Strict IncidentObject.sortKey r.windowState.val.activeObjects) :
    Strict IncidentObject.sortKey (remainingObjects covered r) := h.sublist List.filter_sublist

/-- A recovery leaves the remaining objects, which are in order already. -/
theorem recoveredIncident_window {now : Timestamptz} {covered : IncidentObject → Bool}
    {context : ContextData} {r : Incident}
    (h : Strict IncidentObject.sortKey r.windowState.val.activeObjects) :
    (recoveredIncident now covered context r).window =
      { r.window with activeObjects := remainingObjects covered r } := by
  unfold recoveredIncident
  split_ifs with hrem
  · rw [hrem]
    exact windowStateWithActiveObjects_instants r []
  · refine (windowStateWithActiveObjects_instants r _).trans ?_
    rw [sortBy_of_strict (remainingObjects_strict h)]

theorem RowInvariant.recovered {r : Incident} (hr : RowInvariant r) (now : Timestamptz)
    (covered : IncidentObject → Bool) (context : ContextData) :
    RowInvariant (recoveredIncident now covered context r) := by
  refine hr.withObjects (remainingObjects_strict hr.objects_sorted) ?_
    (recoveredIncident_window hr.objects_sorted) ?_ ?_ ?_ ?_ ?_
  · intro hopen hrem
    rw [recoveredIncident, if_pos hrem] at hopen
    cases hopen
  all_goals
    unfold recoveredIncident
    split_ifs with hrem
  all_goals first | rfl | (rw [hrem]; rfl)

theorem RowChange.invariant {op : Op} {r r' : Incident} (hr : RowInvariant r)
    (h : RowChange op r r') : RowInvariant r' := by
  cases h with
  | same => exact hr
  | merged _ h => exact h.invariant hr
  | recovered => exact hr.recovered _ _ _
  | acknowledged => exact { hr with }
  | closed => exact { hr with objects_open := fun h => by cases h }
  | notified => exact { hr with }

theorem invariant_of_mem {ops : List Op} {r : Incident} (hr : r ∈ tableAfter ops) :
    RowInvariant r :=
  row_invariant (fun _ _ _ h => h.invariant) (fun _ _ _ hr h => h.invariant hr) ops r hr

/-- The rule parameters of a row are those of the problem recorded last. -/
structure UnderRule (p : ProblemCall) (r : Incident) : Prop where
  thresholdCount : r.windowState.val.thresholdCount = p.input.thresholdCount
  windowSeconds : r.windowState.val.windowSeconds = p.input.windowSeconds

theorem Fresh.underRule {p : ProblemCall} {t : List Incident} {r : Incident} (h : Fresh p t r) :
    UnderRule p r := by
  obtain ⟨_, state, _, hstate, _, rfl⟩ := h.made
  obtain ⟨_, _, _, _, hval⟩ := initialWindowState_eq_ok hstate
  constructor
  · exact congrArg WindowFields.thresholdCount hval
  · exact congrArg WindowFields.windowSeconds hval

theorem Merged.underRule {p : ProblemCall} {r r' : Incident} {w : WindowUpdate}
    (h : Merged p r w r') : UnderRule p r' := by
  cases h with
  | intro _ _ _ _ hw =>
    exact ⟨(nextWindowState_eq_ok hw).thresholdCount, (nextWindowState_eq_ok hw).windowSeconds⟩

/-- The row a problem was recorded on, by its answer. -/
theorem ProblemEffect.underRule {p : ProblemCall} {t t' : List Incident} {out : ProblemOutcome}
    (h : ProblemEffect p t t' out) {x : Incident} (hx : x ∈ t') (hid : x.id = out.incidentId) :
    UnderRule p x ∧ out.windowCrossed = x.windowState.val.crossed := by
  rcases h.row_cases hx with ⟨-, hne⟩ | ⟨-, ⟨hfresh, rfl⟩ | ⟨r, w, -, hm, rfl⟩⟩
  · exact absurd hid hne
  · exact ⟨hfresh.underRule, rfl⟩
  · refine ⟨hm.underRule, ?_⟩
    cases hm
    rfl

/-! ### The window against the last update -/

/-- Every problem recorded on the incident has a UTC offset of whole minutes. -/
def WholeOffsets (id : UUID) (l : List (Op × Answer)) : Prop :=
  ∀ c ∈ l, onIncident id c = true → ∀ p, c.1.problem = some p → p.input.eventTime.WholeMinutes

theorem WholeOffsets.of_append {id : UUID} {l l' : List (Op × Answer)}
    (h : WholeOffsets id (l ++ l')) : WholeOffsets id l :=
  fun c hc => h c (List.mem_append_left _ hc)

theorem WholeOffsets.last {l : List (Op × Answer)} {op : Op} {o : Answer} {p : ProblemCall}
    {out : ProblemOutcome} (h : WholeOffsets out.incidentId (l ++ [(op, o)]))
    (hop : op.problem = some p) (ho : o.outcome = some out) : p.input.eventTime.WholeMinutes :=
  h (op, o) (by simp) ((onIncident_iff ho).mpr rfl) p hop

/-- The window ends at the last update, and what is retained lies in it. -/
structure WindowInvariant (r : Incident) : Prop where
  ended_eq : r.window.windowEndedAt = r.lastUpdateTime.val
  inside : ∀ e ∈ r.window.countedFingerprintTimestamps.entries,
    r.window.windowStartedAt ≤ e.2 ∧ e.2 ≤ r.window.windowEndedAt

theorem Fresh.windowInvariant {p : ProblemCall} {t : List Incident} {r : Incident}
    (h : Fresh p t r) (hwhole : p.input.eventTime.WholeMinutes) : WindowInvariant r := by
  have hinv := h.invariant
  obtain ⟨hended, htimes⟩ := h.window
  rw [Datetime.dump_instant hwhole] at hended htimes
  obtain ⟨eventTime, state, context, -, htime, rfl⟩ := h.made
  refine ⟨hended.trans (Datetime.toTimestamptz_eq_some.mp htime), fun e he => ?_⟩
  rw [htimes] at he
  rw [hinv.started_eq, hended]
  rcases Dict.mem_insert.mp he with rfl | ⟨he, -⟩
  · exact ⟨sub_le_self _ (seconds_nonneg _), le_refl _⟩
  · simp [Dict.empty] at he

/-- The bounds and the entries of a merged row's window. -/
theorem Merged.window {p : ProblemCall} {r r' : Incident} {w : WindowUpdate} (h : Merged p r w r')
    (hwhole : p.input.eventTime.WholeMinutes) :
    r'.window.windowStartedAt = nextWindowStart r p.input ∧
    r'.window.windowEndedAt = nextWindowEnd r p.input ∧
    r'.window.countedFingerprintTimestamps =
      nextCounted (nextWindowStart r p.input) (nextWindowEnd r p.input) p.input.fingerprint
        p.input.eventTime.instant p.input.maxWindowFingerprints
        r.window.countedFingerprintTimestamps := by
  cases h with
  | intro eventTime context hopen hkey hw htime hlen hcontext =>
  have hnext := nextWindowState_eq_ok hw
  have hend := nextWindowEndDatetime_instant r p.input
  show (w.state.dump.val.map Timestamp.instant).windowStartedAt = _ ∧
    (w.state.dump.val.map Timestamp.instant).windowEndedAt = _ ∧
    (w.state.dump.val.map Timestamp.instant).countedFingerprintTimestamps = _
  rw [hnext.dump_instants hwhole]
  refine ⟨?_, ?_, hnext.timestamps⟩
  · show w.state.val.windowStartedAt.instant = _
    rw [Datetime.subSeconds_instant hnext.startedAt, hend, nextWindowStart]
  · show w.state.val.windowEndedAt.instant = _
    rw [hnext.endedAt, hend]

theorem Merged.windowInvariant {p : ProblemCall} {r r' : Incident} {w : WindowUpdate}
    (h : Merged p r w r') (hwhole : p.input.eventTime.WholeMinutes) : WindowInvariant r' := by
  obtain ⟨hstart, hend, htimes⟩ := h.window hwhole
  refine ⟨hend.trans ?_, fun e he => ?_⟩
  · cases h with
    | intro eventTime context hopen hkey hw htime =>
      show max r.lastUpdateTime.val p.input.eventTime.instant = (max r.lastUpdateTime eventTime).val
      rw [Datetime.toTimestamptz_eq_some.mp htime]
      exact (Subtype.mono_coe _).map_max.symm
  · rw [htimes] at he
    rw [hstart, hend]
    exact (mem_nextCounted he).2

theorem windowInvariant_of_mem (ops : List Op) : ∀ r ∈ tableAfter ops,
    WholeOffsets r.id (history ops) → WindowInvariant r := by
  refine history_induction
    (R := fun l t => ∀ r ∈ t, WholeOffsets r.id l → WindowInvariant r) (by simp) ?_ ops
  intro before op t' o ih h x hx hwhole
  have ht := ids_nodup before
  cases hop : op.problem with
  | none =>
    obtain ⟨hrows, -, -⟩ := step_no_problem ht hop h
    obtain ⟨r, hr, hchg⟩ := exists_of_forall₂_right hrows hx
    have hsame := hchg.sameCounting hop
    obtain ⟨objs, hwin⟩ := hsame.window
    have hr := ih r hr (hchg.id_eq ▸ hwhole.of_append)
    refine ⟨?_, ?_⟩
    · rw [hwin, hsame.lastUpdateTime]
      exact hr.ended_eq
    · rw [hwin]
      exact hr.inside
  | some p =>
    obtain ⟨out, ho, heff⟩ := step_problem ht hop h
    rcases heff.row_cases hx with ⟨hx, -⟩ | ⟨hid, ⟨hfresh, -⟩ | ⟨r, w, -, hm, -⟩⟩
    · exact ih x hx hwhole.of_append
    · exact hfresh.windowInvariant ((hid ▸ hwhole).last hop ho)
    · exact hm.windowInvariant ((hid ▸ hwhole).last hop ho)

/-- **Store invariant**: in every table reachable from the empty one by any sequence of calls,
every row satisfies `RowInvariant`, and `WindowInvariant` if every problem recorded on it has a UTC
offset of whole minutes. -/
theorem store_invariant (ops : List Op) : ∀ r ∈ tableAfter ops, RowInvariant r ∧
    (WholeOffsets r.id (history ops) → WindowInvariant r) :=
  fun r hr => ⟨invariant_of_mem hr, windowInvariant_of_mem ops r hr⟩

/-! ### A run to look at -/

/-- Noon of 1 January 2026, and `n` seconds. -/
def sampleTime (n : ℕ) : Timestamptz :=
  ⟨seconds (63902865600 + min n 1000), seconds_nonneg _, by
    have hn : (63902865600 + min n 1000) * usPerSecond < datetimeEnd := by
      unfold datetimeEnd usPerDay usPerSecond
      omega
    exact Int.ofNat_lt.mpr hn⟩

/-- A problem of one rule and group, counted to `threshold` within `window` seconds. -/
def sampleArgs (fingerprint : String) (n : ℕ) (threshold window : ℤ) : UpsertArgs where
  ruleName := "disk"
  groupKey := "host=db1"
  severity := .warning
  eventTime := (sampleTime n).toDatetime
  summary := "disk full on db1"
  affectedHosts := ["db1"]
  affectedServices := ["disk"]
  fingerprint := some fingerprint
  thresholdCount := threshold
  windowSeconds := window

/-- The problem recorded as soon as it happens, under row id `n` if it opens an incident. -/
def sampleProblem (fingerprint : String) (n : ℕ) (threshold window : ℤ) : List Op :=
  (sampleArgs fingerprint n threshold window).postInit.toOption.toList.map
    fun i => .recordProblem (sampleTime n) (Fin.ofNat _ n) i

/-- A problem, another one, and a recovery of the host. -/
def sampleRun : List Op :=
  sampleProblem "cpu" 0 2 60 ++ sampleProblem "mem" 5 2 60 ++
    [.hostRecovery (sampleTime 9) ⟨"db1", (sampleTime 9).toDatetime, "up", "icinga"⟩]

example : (tableAfter sampleRun).map (fun r => (r.status, r.eventCount, r.thresholdCrossed)) =
    [(.resolved, 2, true)] := by decide

theorem sampleProblem_input {fingerprint : String} {n : ℕ} {threshold window : ℤ} {op : Op}
    {p : ProblemCall} (hop : op ∈ sampleProblem fingerprint n threshold window)
    (hp : op.problem = some p) :
    ∃ h, p.input = (sampleArgs fingerprint n threshold window).accept h := by
  obtain ⟨i, hi, rfl⟩ := List.mem_map.mp hop
  cases hpost : (sampleArgs fingerprint n threshold window).postInit with
  | error e =>
    rw [hpost] at hi
    cases hi
  | ok i' =>
    rw [hpost] at hi
    cases List.mem_singleton.mp hi
    cases hp
    exact UpsertArgs.postInit_eq_ok.mp hpost

theorem sampleProblem_wholeMinutes {fingerprint : String} {n : ℕ} {threshold window : ℤ} {op : Op}
    {p : ProblemCall} (hop : op ∈ sampleProblem fingerprint n threshold window)
    (hp : op.problem = some p) : p.input.eventTime.WholeMinutes := by
  obtain ⟨hpass, hin⟩ := sampleProblem_input hop hp
  rw [hin]
  exact (sampleTime n).wholeMinutes

theorem sampleRun_wholeOffsets (id : UUID) : WholeOffsets id (history sampleRun) := by
  intro c hc _ p hp
  have hop := mem_of_mem_log hc
  simp only [sampleRun, List.mem_append] at hop
  rcases hop with (hop | hop) | hop
  · exact sampleProblem_wholeMinutes hop hp
  · exact sampleProblem_wholeMinutes hop hp
  · rw [List.mem_singleton.mp hop] at hp
    cases hp

theorem sampleRun_row : 0 < (tableAfter sampleRun).length := by decide

theorem store_invariant_sampleRun :
    ∃ r ∈ tableAfter sampleRun, RowInvariant r ∧ WindowInvariant r :=
  have hrow := List.get_mem (tableAfter sampleRun) ⟨0, sampleRun_row⟩
  have hinv := store_invariant sampleRun _ hrow
  ⟨_, hrow, hinv.1, hinv.2 (sampleRun_wholeOffsets _)⟩

/-- The same local time, on a clock that is half a minute ahead of UTC. -/
def halfMinuteTime (n : ℕ) : Datetime where
  naive := (63902865600 + min n 1000) * usPerSecond
  offset := 30 * usPerSecond
  naive_lt := by
    unfold datetimeEnd usPerDay usPerSecond
    omega
  offset_gt := by decide
  offset_lt := by decide

/-- A problem whose time comes with such an offset. -/
def halfMinuteProblem (fingerprint : String) (n : ℕ) (threshold window : ℤ) : List Op :=
  ({ sampleArgs fingerprint n threshold window with
      eventTime := halfMinuteTime n }.postInit.toOption.toList).map
    fun i => .recordProblem (sampleTime n) (Fin.ofNat _ n) i

theorem halfMinuteProblem_row :
    0 < (tableAfter (halfMinuteProblem "cpu" 0 2 60)).length := by decide

/-- The seconds of an offset are lost in the window alone. -/
theorem store_invariant_halfMinute :
    ¬∀ r ∈ tableAfter (halfMinuteProblem "cpu" 0 2 60), RowInvariant r ∧ WindowInvariant r := by
  intro h
  have hended := (h _ (List.get_mem _ ⟨0, halfMinuteProblem_row⟩)).2.ended_eq
  exact absurd hended (by decide)

end Correlia
