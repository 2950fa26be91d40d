import Correlia.Lifetimes

/-!
# Redelivery — recording the same problem once more

`Absorbed i s` says what a row holds that has just recorded `i`.  Unless the next merge of `i` writes
a timestamp of the window in another way (`Steady`), the row is a fixed point of it: window, pruning,
eviction, objects, severity and summary come out as they are.
-/

namespace Correlia

open Lib

attribute [ext] WindowFields

/-- The fingerprint is retained by the row, or the event lies outside the row's window. -/
def RetainedOrOutside (i : IncidentUpsertInput) (s : Incident) : Prop :=
  s.windowState.val.countedFingerprintTimestamps.contains i.fingerprint = true ∨
    ¬(s.window.windowStartedAt ≤ i.eventTime.instant ∧
      i.eventTime.instant ≤ s.window.windowEndedAt)

/-- A merge that counts nothing writes the times of the window as they are. -/
structure Steady (s : Incident) : Prop where
  ended : s.windowState.val.windowEndedAt = s.lastUpdateTime.toDatetime.dump
  entries : ∀ e ∈ s.windowState.val.countedFingerprintTimestamps.entries, e.2.rewritten = e.2 ∧
    s.lastUpdateTime.val - seconds s.windowState.val.windowSeconds ≤ e.2.instant ∧
    e.2.instant ≤ s.lastUpdateTime.val

/-- What a row holds that has recorded the input last. -/
structure Absorbed (i : IncidentUpsertInput) (s : Incident) : Prop where
  status : s.status = .«open»
  key : s.key = i.key
  initial : ∃ state, initialWindowState i = .ok state ∧
    state.val.activeObjects.length ≤ jsonbArrayMax
  time : ∃ eventTime, i.eventTime.toTimestamptz = some eventTime ∧ eventTime ≤ s.lastUpdateTime
  bounds : ∃ windowEnd windowStart : Datetime,
    windowEnd.subSeconds i.windowSeconds = some windowStart ∧
    s.windowState.val.windowEndedAt = windowEnd.dump ∧
    s.windowState.val.windowStartedAt = windowStart.dump
  windowSeconds : s.windowState.val.windowSeconds = i.windowSeconds
  thresholdCount : s.windowState.val.thresholdCount = i.thresholdCount
  maxSize : s.windowState.val.maxSize = i.maxWindowFingerprints
  objects : ∃ objs, activeObjectsFromInput i = .ok objs ∧
    ∀ o ∈ objs, o ∈ s.windowState.val.activeObjects
  length : s.windowState.val.activeObjects.length ≤ jsonbArrayMax
  severity : maxSeverity s.severity i.severity = s.severity
  count : s.eventCount < int4End
  context : ∃ context,
    preserveNotificationDeliveryResults s.decisionContext (decisionContextDump i) = .ok context

/-! ### After the first delivery -/

section First

variable {now : Timestamptz} {id : UUID} {i : IncidentUpsertInput} {t t' : List Incident}

end First

/-! ### The second delivery -/

section Second

variable {now : Timestamptz} {id : UUID} {i : IncidentUpsertInput} {t : List Incident}
  {s : Incident}

/-- An absorbed event is not later than the row. -/
theorem Absorbed.event_le (h : Absorbed i s) : i.eventTime.instant ≤ s.lastUpdateTime.val := by
  obtain ⟨eventTime, htime, hle⟩ := h.time
  rw [Datetime.toTimestamptz_eq_some.mp htime]
  exact hle

theorem Absorbed.later_eq (h : Absorbed i s) :
    s.lastUpdateTime.toDatetime.later i.eventTime = s.lastUpdateTime.toDatetime := by
  apply if_neg
  rw [Timestamptz.toDatetime_instant]
  exact not_lt.mpr h.event_le

/-- **The window is a fixed point** of a merge that counts nothing. -/
theorem Absorbed.nextWindowState (h : Absorbed i s) (hs : RowInvariant s) (hsteady : Steady s)
    (hfit : i.windowSeconds * usPerSecond ≤ s.lastUpdateTime.toDatetime.naive)
    (hcond : RetainedOrOutside i s) :
    ∃ w, Correlia.nextWindowState s i = .ok w ∧ w.state.dump = s.windowState ∧
      w.counted = false := by
  obtain ⟨state, hinitial, -⟩ := h.initial
  have hlater : nextWindowEndDatetime s i = s.lastUpdateTime.toDatetime := h.later_eq
  obtain ⟨w, hw⟩ := @nextWindowState_ok s _ _ hinitial (hlater.symm ▸ hfit)
  have hnext := nextWindowState_eq_ok hw
  have hend : nextWindowEnd s i = s.lastUpdateTime.val := max_eq_left h.event_le
  have hstart : nextWindowStart s i = s.lastUpdateTime.val - seconds i.windowSeconds := by
    rw [nextWindowStart, hend]
  have hended : s.window.windowEndedAt = s.lastUpdateTime.val := by
    show s.windowState.val.windowEndedAt.instant = _
    rw [hsteady.ended, Datetime.dump_instant s.lastUpdateTime.wholeMinutes,
      Timestamptz.toDatetime_instant]
  have hstarted : s.window.windowStartedAt = s.lastUpdateTime.val - seconds i.windowSeconds := by
    rw [hs.started_eq, hended, h.windowSeconds]
  -- every retained entry is inside the window already
  have hretain : retain (nextWindowStart s i) (nextWindowEnd s i)
      s.window.countedFingerprintTimestamps = s.window.countedFingerprintTimestamps := by
    apply Dict.ext_mem
    intro e
    rw [mem_retain, hstart, hend]
    refine and_iff_left_of_imp fun he => ?_
    obtain ⟨text, htext, heq⟩ := Dict.mem_map.mp he
    rw [← heq, ← h.windowSeconds]
    exact (hsteady.entries _ htext).2
  have hcounted : isCounted (nextWindowStart s i) (nextWindowEnd s i) i.fingerprint
      i.eventTime.instant s.window.countedFingerprintTimestamps = false := by
    rw [isCounted, hretain, hstart, hend, ← hstarted, ← hended]
    rcases hcond with hreplay | houtside
    · have hcontains : s.window.countedFingerprintTimestamps.contains i.fingerprint = true :=
        Dict.contains_map.trans hreplay
      rw [hcontains, Bool.not_true, Bool.and_false]
    · rw [insideWindow, decide_eq_false houtside, Bool.false_and]
  have htimes : w.state.val.countedFingerprintTimestamps.map Datetime.instant =
      s.window.countedFingerprintTimestamps := by
    have hsize : ¬i.maxWindowFingerprints < s.window.countedFingerprintTimestamps.size := by
      rw [← h.maxSize, s.window_size, ← hs.counted_eq]
      exact not_lt.mpr hs.counted_le_max
    rw [hnext.timestamps, nextCounted, hcounted, if_neg Bool.false_ne_true, hretain]
    exact if_neg hsize
  -- a datetime of the new state is one read back, whose text is written again as it was
  have hread : ∀ k d, (k, d) ∈ w.state.val.countedFingerprintTimestamps.entries →
      (k, d.dump) ∈ s.windowState.val.countedFingerprintTimestamps.entries := by
    intro k d hd
    rcases hnext.read _ hd with ⟨text, htext, heq⟩ | ⟨hc, -⟩
    · obtain rfl : d = text.toDatetime := heq
      have hsame : text.toDatetime.dump = text := (hsteady.entries _ htext).1
      exact hsame.symm ▸ htext
    · rw [hnext.counted, hcounted] at hc
      cases hc
  have htexts : w.state.val.countedFingerprintTimestamps.map Datetime.dump =
      s.windowState.val.countedFingerprintTimestamps := by
    apply Dict.ext_mem
    rintro ⟨k, text⟩
    rw [Dict.mem_map]
    constructor
    · rintro ⟨d, hd, rfl⟩
      exact hread k d hd
    · intro htext
      have hinstant : (k, text.instant) ∈
          (w.state.val.countedFingerprintTimestamps.map Datetime.instant).entries := by
        rw [htimes]
        exact Dict.mem_map.mpr ⟨text, htext, rfl⟩
      obtain ⟨d, hd, -⟩ := Dict.mem_map.mp hinstant
      exact ⟨d, hd, Dict.unique (hread k d hd) htext⟩
  obtain ⟨objs, hobjs, hsub⟩ := h.objects
  have hactive : w.state.val.activeObjects = s.windowState.val.activeObjects := by
    obtain ⟨objs', hobjs', heq⟩ := hnext.objects
    obtain rfl : objs = objs' := Except.ok.inj (hobjs.symm.trans hobjs')
    rw [heq, ← sortedSet_of_strict hs.objects_sorted]
    apply sortedSet_congr IncidentObject.sortKey_injective
    intro o
    rw [sortedSet_of_strict hs.objects_sorted, List.mem_append]
    exact or_iff_left_of_imp (hsub o)
  refine ⟨w, hw, Checked.ext (WindowFields.ext ?_ ?_ ?_ ?_ htexts ?_ ?_ hactive), ?_⟩
  · obtain ⟨windowEnd, windowStart, hsub, hendText, hstartText⟩ := h.bounds
    have hsame : windowEnd = s.lastUpdateTime.toDatetime :=
      Datetime.eq_toDatetime_of_dump (hendText.symm.trans hsteady.ended)
    have hstartedAt := hnext.startedAt
    rw [hlater, ← hsame, hsub] at hstartedAt
    rw [hstartText, Option.some.inj hstartedAt]
    rfl
  · show w.state.val.windowEndedAt.dump = _
    rw [hnext.endedAt, hlater, hsteady.ended]
  · exact hnext.windowSeconds.trans h.windowSeconds.symm
  · exact hnext.thresholdCount.trans h.thresholdCount.symm
  · show w.state.val.countedCount = _
    rw [hnext.countedCount, ← Dict.size_map (f := Datetime.instant), htimes, s.window_size,
      hs.counted_eq]
  · exact hnext.maxSize.trans h.maxSize.symm
  · rw [hnext.counted, hcounted]

/-- The select of a row's key finds that row alone. -/
theorem openFor_filter (ht : (t.map Incident.id).Nodup) (hs : s ∈ t) (hopen : s.status = .«open»)
    (honly : ∀ r ∈ t, r.status = .«open» → r.key = s.key → r = s) :
    t.filter (Incident.isOpenFor s.key) = [s] := by
  rw [← filter_key ht hs (g := Incident.isOpenFor s.key)
    (Incident.isOpenFor_iff.mpr ⟨hopen, rfl⟩)]
  apply List.filter_congr
  intro r hr
  by_cases hr' : r.isOpenFor s.key = true
  · obtain ⟨hro, hrk⟩ := Incident.isOpenFor_iff.mp hr'
    rw [honly r hr hro hrk, decide_eq_true rfl, Bool.true_and]
  · rw [Bool.eq_false_of_not_eq_true hr', Bool.and_false]

end Second

/-! ### Which problems leave a steady row -/

section Steadiness

variable {now : Timestamptz} {id : UUID} {i : IncidentUpsertInput} {t t' : List Incident}

end Steadiness

/-- A problem of the year 1, `n` seconds after its first instant, on a clock one hour ahead. -/
def yearOneProblem (fingerprint : String) (n : ℕ) (window : ℤ) : Option IncidentUpsertInput :=
  { sampleArgs fingerprint 0 1 window with
    eventTime := ⟨(3600 + min n 1000) * usPerSecond, 3600 * usPerSecond, by
      unfold datetimeEnd usPerDay usPerSecond
      omega, by decide, by decide⟩ : UpsertArgs }.postInit.toOption

/-- The result of a call, if there is one, satisfies a test. -/
def returns {α : Type} (test : α → Bool) : Except OpError α → Bool
  | .ok a => test a
  | .error _ => false

end Correlia
