import Correlia.Completeness
import Correlia.Redelivery

/-!
# ArrivalOrder — the window does not depend on the order of arrival

After problems with distinct fingerprints have been recorded on a new incident, its window holds the
greatest (timestamp, fingerprint) pairs of those that are recent enough, and every other column the
problems determine is a maximum or a set over them (`Collected`).  Pruning and evicting along the
way lose nothing that belongs to the end result.

Two things break this.  The end of the window is the local time of a newest problem, but UTC when
another problem came before it, and the window may reach back before the year 1 in one of them
(`WindowFits`).  And a UTC offset with seconds is not read back from the column.
-/

namespace Correlia

open Lib

/-- Calls made one after the other, all of them completing. -/
def applyAll (ops : List Op) (t : List Incident) : Except OpError (List Incident) :=
  ops.foldlM (fun t op => (step op t).map Prod.fst) t

def ProblemCall.op (p : ProblemCall) : Op := .recordProblem p.now p.id p.input

/-- The (timestamp, fingerprint) pairs of the inputs. -/
def eventRanks (inputs : List IncidentUpsertInput) : Finset (Instant ×ₗ String) :=
  (inputs.map fun i => evictionRank (i.fingerprint, i.eventTime.instant)).toFinset

/-- The pairs whose timestamp is at least `start`. -/
def since (start : Instant) (s : Finset (Instant ×ₗ String)) : Finset (Instant ×ₗ String) :=
  s.filter fun x => start ≤ (ofLex x).1

/-- The incident the inputs made. -/
structure Collected (inputs : List IncidentUpsertInput) (threshold window capacity : ℕ)
    (r : Incident) : Prop where
  latest : IsGreatest {time | ∃ i ∈ inputs, i.eventTime.instant = time} r.lastUpdateTime.val
  severity : IsGreatest {rank | ∃ i ∈ inputs, i.severity.rank = rank} r.severity.rank
  thresholdCount : r.window.thresholdCount = threshold
  windowSeconds : r.window.windowSeconds = window
  maxSize : r.window.maxSize = capacity
  retained : r.window.countedFingerprintTimestamps.ranks evictionRank =
    topK capacity (since (r.lastUpdateTime.val - seconds window) (eventRanks inputs))
  objects : ∀ o, o ∈ r.window.activeObjects ↔
    ∃ i ∈ inputs, o.val.host ∈ i.affectedHosts ∧ o.val.service ∈ i.servicesOrNone

/-! ### Maxima and windows that grow by one -/

theorem isGreatest_concat {ι β : Type*} [LinearOrder β] {f : ι → β} {l : List ι} {b : β}
    (h : IsGreatest {x | ∃ i ∈ l, f i = x} b) (i : ι) :
    IsGreatest {x | ∃ j ∈ l ++ [i], f j = x} (max b (f i)) := by
  constructor
  · rcases le_total b (f i) with hle | hle
    · exact ⟨i, by simp, (max_eq_right hle).symm⟩
    · obtain ⟨j, hj, hjb⟩ := h.1
      exact ⟨j, List.mem_append_left _ hj, hjb.trans (max_eq_left hle).symm⟩
  · rintro x ⟨j, hj, rfl⟩
    rcases List.mem_append.mp hj with hj | hj
    · exact (h.2 ⟨j, hj, rfl⟩).trans (le_max_left _ _)
    · rw [List.mem_singleton.mp hj]
      exact le_max_right _ _

theorem maxSeverity_rank (existing incoming : Severity) :
    (maxSeverity existing incoming).rank = max existing.rank incoming.rank := by
  unfold maxSeverity
  split_ifs with h
  · exact (max_eq_right h.le).symm
  · exact (max_eq_left (not_lt.mp h)).symm

theorem eventRanks_concat (inputs : List IncidentUpsertInput) (i : IncidentUpsertInput) :
    eventRanks (inputs ++ [i]) =
      eventRanks inputs ∪ {evictionRank (i.fingerprint, i.eventTime.instant)} := by
  simp [eventRanks, List.toFinset_append]

theorem since_since {start start' : Instant} (h : start ≤ start')
    (s : Finset (Instant ×ₗ String)) : since start' (since start s) = since start' s := by
  ext x
  simp only [since, Finset.mem_filter]
  exact ⟨fun hx => ⟨hx.1.1, hx.2⟩, fun hx => ⟨⟨hx.1, h.trans hx.2⟩, hx.2⟩⟩

/-- The pairs since a time are closed upwards, so cutting commutes with pruning. -/
theorem topK_since (capacity : ℕ) (start : Instant) (s : Finset (Instant ×ₗ String)) :
    topK capacity (since start s) = since start (topK capacity s) :=
  topK_filter _ fun _ _ hxy hx => hx.trans (Prod.Lex.monotone_fst_ofLex hxy)

/-- What the window function retains, as ranks. -/
theorem ranks_nextCounted {windowStart windowEnd : Instant} {fingerprint : String}
    {eventTime : Instant} {capacity : ℕ} {d : Dict String Instant}
    (hin : ∀ e ∈ d.entries, e.2 ≤ windowEnd) (htime : eventTime ≤ windowEnd)
    (hnew : d.contains fingerprint = false) :
    (nextCounted windowStart windowEnd fingerprint eventTime capacity d).ranks evictionRank =
      topK capacity (since windowStart
        (d.ranks evictionRank ∪ {evictionRank (fingerprint, eventTime)})) := by
  have hretain : (retain windowStart windowEnd d).ranks evictionRank =
      since windowStart (d.ranks evictionRank) := by
    ext x
    simp only [Dict.mem_ranks, since, Finset.mem_filter, mem_retain]
    constructor
    · rintro ⟨e, ⟨he, hs, -⟩, rfl⟩
      exact ⟨⟨e, he, rfl⟩, hs⟩
    · rintro ⟨⟨e, he, rfl⟩, hs⟩
      exact ⟨e, ⟨he, hs, hin e he⟩, rfl⟩
  have hnot : (retain windowStart windowEnd d).contains fingerprint = false := by
    rw [Bool.eq_false_iff]
    intro hc
    obtain ⟨v, hv⟩ := Dict.contains_iff.mp hc
    rw [Dict.contains_iff.mpr ⟨v, (mem_retain.mp hv).1⟩] at hnew
    cases hnew
  have hcounted : isCounted windowStart windowEnd fingerprint eventTime d = true ↔
      windowStart ≤ eventTime := by
    rw [isCounted_iff]
    exact ⟨fun h => h.1.1, fun h => ⟨⟨h, htime⟩, hnot⟩⟩
  rw [nextCounted, Dict.ranks_greatest evictionRank_injective]
  congr 1
  by_cases hs : windowStart ≤ eventTime
  · rw [if_pos (hcounted.mpr hs), Dict.ranks_insert hnot, hretain]
    ext x
    simp only [since, Finset.mem_insert, Finset.mem_filter, Finset.mem_union, Finset.mem_singleton]
    constructor
    · rintro (rfl | hx)
      · exact ⟨Or.inr rfl, hs⟩
      · exact ⟨Or.inl hx.1, hx.2⟩
    · rintro ⟨hx | rfl, hxs⟩
      · exact Or.inr ⟨hx, hxs⟩
      · exact Or.inl rfl
  · rw [if_neg fun h => hs (hcounted.mp h), hretain]
    ext x
    simp only [since, Finset.mem_filter, Finset.mem_union, Finset.mem_singleton]
    constructor
    · exact fun hx => ⟨Or.inl hx.1, hx.2⟩
    · rintro ⟨hx | rfl, hxs⟩
      · exact ⟨hx, hxs⟩
      · exact absurd hxs hs

/-- Pruning and evicting before the next pair arrives loses nothing. -/
theorem topK_since_union {capacity : ℕ} {start start' : Instant} (h : start ≤ start')
    (s u : Finset (Instant ×ₗ String)) :
    topK capacity (since start' (topK capacity (since start s) ∪ u)) =
      topK capacity (since start' (s ∪ u)) := by
  have hsplit : ∀ a b : Finset (Instant ×ₗ String), since start' (a ∪ b) =
      since start' a ∪ since start' b := fun a b => Finset.filter_union _ a b
  rw [hsplit, ← topK_since, since_since h, topK_union_topK, ← hsplit]

/-! ### One more problem -/

theorem eventRanks_mem {inputs : List IncidentUpsertInput} {x : Instant ×ₗ String} :
    x ∈ eventRanks inputs ↔
      ∃ i ∈ inputs, evictionRank (i.fingerprint, i.eventTime.instant) = x := by
  simp [eventRanks]

/-- A retained fingerprint is one of the inputs'. -/
theorem Collected.fingerprint {inputs : List IncidentUpsertInput} {threshold window capacity : ℕ}
    {r : Incident} (h : Collected inputs threshold window capacity r) {e : String × Instant}
    (he : e ∈ r.window.countedFingerprintTimestamps.entries) :
    ∃ i ∈ inputs, i.fingerprint = e.1 := by
  have hx : evictionRank e ∈ r.window.countedFingerprintTimestamps.ranks evictionRank :=
    Dict.mem_ranks.mpr ⟨e, he, rfl⟩
  rw [h.retained] at hx
  obtain ⟨i, hi, heq⟩ := eventRanks_mem.mp (Finset.mem_filter.mp (topK_subset hx)).1
  exact ⟨i, hi, congrArg Prod.fst (evictionRank_injective heq)⟩

theorem Fresh.collected {p : ProblemCall} {t : List Incident} {r : Incident} (h : Fresh p t r)
    (hwhole : p.input.eventTime.WholeMinutes) :
    Collected [p.input] p.input.thresholdCount p.input.windowSeconds p.input.maxWindowFingerprints
      r := by
  have htimes := h.window.2
  rw [Datetime.dump_instant hwhole] at htimes
  obtain ⟨eventTime, state, context, hstate, htime, rfl⟩ := h.made
  obtain ⟨objs, start, hobjs, -, hval⟩ := initialWindowState_eq_ok hstate
  have htime : p.input.eventTime.instant = eventTime.val := Datetime.toTimestamptz_eq_some.mp htime
  constructor
  · exact ⟨⟨p.input, by simp, htime⟩, by rintro x ⟨i, hi, rfl⟩; simp_all [freshIncident]⟩
  · exact ⟨⟨p.input, by simp, rfl⟩, by rintro x ⟨i, hi, rfl⟩; simp_all [freshIncident]⟩
  · exact congrArg WindowFields.thresholdCount hval
  · exact congrArg WindowFields.windowSeconds hval
  · exact congrArg WindowFields.maxSize hval
  · have hpos : 1 ≤ p.input.maxWindowFingerprints :=
      p.input.thresholdCount_pos.trans p.input.threshold_le
    have hstart : eventTime.val - seconds p.input.windowSeconds ≤ p.input.eventTime.instant := by
      rw [htime]
      exact sub_le_self _ (seconds_nonneg _)
    have hone : since (eventTime.val - seconds p.input.windowSeconds) (eventRanks [p.input]) =
        {evictionRank (p.input.fingerprint, p.input.eventTime.instant)} := by
      ext x
      simp only [since, Finset.mem_filter, eventRanks_mem, List.mem_singleton, exists_eq_left,
        Finset.mem_singleton]
      constructor
      · exact fun hx => hx.1.symm
      · rintro rfl
        exact ⟨rfl, hstart⟩
    rw [htimes, show Incident.lastUpdateTime _ = eventTime from rfl, hone,
      topK_of_card_le (by simpa using hpos)]
    ext x
    simp [Dict.insert, Dict.empty, putEntry, Dict.ranks]
  · intro o
    show o ∈ state.val.activeObjects ↔ _
    simp only [hval, List.mem_singleton, exists_eq_left]
    exact mem_activeObjectsFromInput hobjs

theorem Merged.collected {p : ProblemCall} {r r' : Incident} {w : WindowUpdate}
    {inputs : List IncidentUpsertInput} {threshold window capacity : ℕ} (hr : WindowInvariant r)
    (ih : Collected inputs threshold window capacity r) (h : Merged p r w r')
    (hwhole : p.input.eventTime.WholeMinutes)
    (hthreshold : p.input.thresholdCount = threshold) (hwindow : p.input.windowSeconds = window)
    (hcapacity : p.input.maxWindowFingerprints = capacity)
    (hnew : ∀ i ∈ inputs, i.fingerprint ≠ p.input.fingerprint) :
    Collected (inputs ++ [p.input]) threshold window capacity r' := by
  obtain ⟨-, -, htimes⟩ := h.window hwhole
  cases h with
  | intro eventTime context hopen hkey hw htime hlen hcontext =>
  have hnext := nextWindowState_eq_ok hw
  have htime : p.input.eventTime.instant = eventTime.val := Datetime.toTimestamptz_eq_some.mp htime
  have hlast : (max r.lastUpdateTime eventTime).val = max r.lastUpdateTime.val eventTime.val :=
    (Subtype.mono_coe _).map_max
  have hend : nextWindowEnd r p.input = (max r.lastUpdateTime eventTime).val := by
    rw [nextWindowEnd, htime, hlast]
  have hstart : nextWindowStart r p.input =
      (max r.lastUpdateTime eventTime).val - seconds window := by
    rw [nextWindowStart, hend, hwindow]
  constructor
  · show IsGreatest _ (max r.lastUpdateTime eventTime).val
    rw [hlast, ← htime]
    exact isGreatest_concat ih.latest p.input
  · show IsGreatest _ (maxSeverity r.severity p.input.severity).rank
    rw [maxSeverity_rank]
    exact isGreatest_concat ih.severity p.input
  · exact hnext.thresholdCount.trans hthreshold
  · exact hnext.windowSeconds.trans hwindow
  · exact hnext.maxSize.trans hcapacity
  · have hin : ∀ e ∈ r.window.countedFingerprintTimestamps.entries,
        e.2 ≤ nextWindowEnd r p.input := fun e he =>
      (hr.inside e he).2.trans (hr.ended_eq.trans_le (le_max_left _ _))
    have hnot : r.window.countedFingerprintTimestamps.contains p.input.fingerprint = false := by
      rw [Bool.eq_false_iff]
      intro hc
      obtain ⟨v, hv⟩ := Dict.contains_iff.mp hc
      obtain ⟨i, hi, heq⟩ := ih.fingerprint hv
      exact hnew i hi heq
    -- the window only moves forward
    have hmono : r.lastUpdateTime.val - seconds window ≤ nextWindowStart r p.input := by
      rw [hstart, hlast]
      exact sub_le_sub_right (le_max_left _ _) _
    rw [htimes, ranks_nextCounted hin (le_max_right _ _) hnot, ih.retained, hcapacity,
      topK_since_union hmono, ← eventRanks_concat, hstart]
    rfl
  · intro o
    show o ∈ w.state.val.activeObjects ↔ _
    obtain ⟨objs, hobjs, hactive⟩ := hnext.objects
    have hold : o ∈ r.windowState.val.activeObjects ↔ _ := ih.objects o
    rw [hactive, mem_sortedSet, List.mem_append, hold, mem_activeObjectsFromInput hobjs]
    constructor
    · rintro (⟨i, hi, ho⟩ | ho)
      · exact ⟨i, List.mem_append_left _ hi, ho⟩
      · exact ⟨p.input, by simp, ho⟩
    · rintro ⟨i, hi, ho⟩
      rcases List.mem_append.mp hi with hi | hi
      · exact Or.inl ⟨i, hi, ho⟩
      · exact Or.inr (List.mem_singleton.mp hi ▸ ho)

/-! ### Windows in UTC -/

/-- Every time of the window is written in UTC. -/
structure InUtc (w : WindowFields Timestamp) : Prop where
  started : w.windowStartedAt.zone = .utc
  ended : w.windowEndedAt.zone = .utc
  entries : ∀ e ∈ w.countedFingerprintTimestamps.entries, e.2.zone = .utc

theorem Fresh.inUtc {p : ProblemCall} {t : List Incident} {r : Incident} (h : Fresh p t r)
    (hutc : p.input.eventTime.offset = 0) : InUtc r.windowState.val := by
  obtain ⟨eventTime, state, context, hstate, -, rfl⟩ := h.made
  obtain ⟨objs, start, -, hstart, hval⟩ := initialWindowState_eq_ok hstate
  have hzone := Datetime.dump_zone_eq_utc.mpr hutc
  constructor
  · show state.val.windowStartedAt.dump.zone = _
    rw [hval, Datetime.dump_zone_eq_utc, Datetime.subSeconds_offset hstart, hutc]
  · show state.val.windowEndedAt.dump.zone = _
    rw [hval]
    exact hzone
  · intro e he
    obtain ⟨d, hd, heq⟩ := Dict.mem_map.mp he
    rw [hval] at hd
    rcases Dict.mem_insert.mp hd with hd | ⟨hd, -⟩
    · rw [← heq, (Prod.mk.inj hd).2]
      exact hzone
    · simp [Dict.empty] at hd

theorem Merged.inUtc {p : ProblemCall} {r r' : Incident} {w : WindowUpdate} (h : Merged p r w r')
    (hr : InUtc r.windowState.val) (hutc : p.input.eventTime.offset = 0) :
    InUtc r'.windowState.val := by
  cases h with
  | intro eventTime context hopen hkey hw =>
  have hnext := nextWindowState_eq_ok hw
  have hend : (nextWindowEndDatetime r p.input).offset = 0 := by
    unfold nextWindowEndDatetime Datetime.later
    split_ifs
    · exact hutc
    · rfl
  constructor
  · show w.state.val.windowStartedAt.dump.zone = _
    rw [Datetime.dump_zone_eq_utc, Datetime.subSeconds_offset hnext.startedAt, hend]
  · show w.state.val.windowEndedAt.dump.zone = _
    rw [Datetime.dump_zone_eq_utc, hnext.endedAt, hend]
  · intro e he
    obtain ⟨d, hd, heq⟩ := Dict.mem_map.mp he
    rw [← heq, Datetime.dump_zone_eq_utc]
    rcases hnext.read _ hd with ⟨text, htext, hread⟩ | ⟨-, hread⟩
    · obtain rfl : d = text.toDatetime := hread
      show text.zone.toOffset = 0
      rw [hr.entries _ htext]
      rfl
    · rw [(Prod.mk.inj hread).2]
      exact hutc

/-- In UTC an instant has one text. -/
theorem Timestamp.eq_of_utc {a b : Timestamp} (ha : a.zone = .utc) (hb : b.zone = .utc)
    (h : a.instant = b.instant) : a = b := by
  have hread : ∀ t : Timestamp, t.zone = .utc → t.instant = (t.naive : ℤ) := by
    intro t ht
    show (t.naive : ℤ) - t.zone.toOffset = _
    rw [ht]
    exact sub_zero _
  rw [hread a ha, hread b hb] at h
  obtain ⟨naive, zone, _⟩ := a
  obtain ⟨naive', zone', _⟩ := b
  obtain rfl : zone = .utc := ha
  obtain rfl : zone' = .utc := hb
  obtain rfl : naive = naive' := Int.ofNat.inj h
  rfl

/-- Windows in UTC are the same if they are on the same instants. -/
theorem InUtc.eq {w w' : WindowFields Timestamp} (h : InUtc w) (h' : InUtc w')
    (heq : w.map Timestamp.instant = w'.map Timestamp.instant) : w = w' := by
  have hsub : ∀ {v v' : WindowFields Timestamp}, InUtc v → InUtc v' →
      v.map Timestamp.instant = v'.map Timestamp.instant →
      ∀ e ∈ v.countedFingerprintTimestamps.entries,
        e ∈ v'.countedFingerprintTimestamps.entries := by
    rintro v v' hv hv' heq ⟨k, text⟩ he
    have hin : (k, text.instant) ∈
        (v.countedFingerprintTimestamps.map Timestamp.instant).entries :=
      Dict.mem_map.mpr ⟨text, he, rfl⟩
    have hsame : v.countedFingerprintTimestamps.map Timestamp.instant =
        v'.countedFingerprintTimestamps.map Timestamp.instant :=
      (congrArg WindowFields.countedFingerprintTimestamps heq :)
    rw [hsame] at hin
    obtain ⟨text', he', hinstant⟩ := Dict.mem_map.mp hin
    obtain rfl : text = text' :=
      Timestamp.eq_of_utc (hv.entries _ he) (hv'.entries _ he') hinstant.symm
    exact he'
  refine WindowFields.ext ?_ ?_ ?_ ?_ ?_ ?_ ?_ ?_
  · exact Timestamp.eq_of_utc h.started h'.started (congrArg WindowFields.windowStartedAt heq :)
  · exact Timestamp.eq_of_utc h.ended h'.ended (congrArg WindowFields.windowEndedAt heq :)
  · exact (congrArg WindowFields.windowSeconds heq :)
  · exact (congrArg WindowFields.thresholdCount heq :)
  · exact Dict.ext_mem fun e => ⟨hsub h h' heq e, hsub h' h heq.symm e⟩
  · exact (congrArg WindowFields.countedCount heq :)
  · exact (congrArg WindowFields.maxSize heq :)
  · exact (congrArg WindowFields.activeObjects heq :)

/-! ### All problems -/

theorem applyAll_concat {ops : List Op} {op : Op} {t t' : List Incident} :
    applyAll (ops ++ [op]) t = .ok t' ↔
      ∃ t₁ o, applyAll ops t = .ok t₁ ∧ step op t₁ = .ok (t', o) := by
  have hone : ∀ t₁, applyAll [op] t₁ = .ok t' ↔ ∃ o, step op t₁ = .ok (t', o) := by
    intro t₁
    cases hs : step op t₁ with
    | error e => simp [applyAll, List.foldlM, hs, Except.map, bind, Except.bind]
    | ok res =>
      obtain ⟨t₂, o⟩ := res
      simp [applyAll, List.foldlM, hs, Except.map, bind, Except.bind, pure, Except.pure]
  have happ : applyAll (ops ++ [op]) t = applyAll ops t >>= applyAll [op] := List.foldlM_append
  rw [happ, bind_eq_ok]
  constructor
  · rintro ⟨t₁, h₁, h₂⟩
    obtain ⟨o, ho⟩ := (hone t₁).mp h₂
    exact ⟨t₁, o, h₁, ho⟩
  · rintro ⟨t₁, o, h₁, ho⟩
    exact ⟨t₁, h₁, (hone t₁).mpr ⟨o, ho⟩⟩

/-- The inputs are for one incident under one rule, with distinct fingerprints. -/
structure Collection (key : String × String) (threshold window capacity : ℕ)
    (inputs : List IncidentUpsertInput) : Prop where
  key : ∀ i ∈ inputs, i.key = key
  threshold : ∀ i ∈ inputs, i.thresholdCount = threshold
  window : ∀ i ∈ inputs, i.windowSeconds = window
  capacity : ∀ i ∈ inputs, i.maxWindowFingerprints = capacity
  distinct : (inputs.map IncidentUpsertInput.fingerprint).Nodup

theorem collection_iff {key : String × String} {threshold window capacity : ℕ}
    {inputs : List IncidentUpsertInput} : Collection key threshold window capacity inputs ↔
      (∀ i ∈ inputs, i.key = key ∧ i.thresholdCount = threshold ∧ i.windowSeconds = window ∧
        i.maxWindowFingerprints = capacity) ∧
        (inputs.map IncidentUpsertInput.fingerprint).Nodup := by
  constructor
  · exact fun h => ⟨fun i hi => ⟨h.key i hi, h.threshold i hi, h.window i hi, h.capacity i hi⟩,
      h.distinct⟩
  · rintro ⟨h, hdistinct⟩
    exact ⟨fun i hi => (h i hi).1, fun i hi => (h i hi).2.1, fun i hi => (h i hi).2.2.1,
      fun i hi => (h i hi).2.2.2, hdistinct⟩

instance (key : String × String) (threshold window capacity : ℕ)
    (inputs : List IncidentUpsertInput) :
    Decidable (Collection key threshold window capacity inputs) :=
  decidable_of_iff' _ collection_iff

theorem Collection.perm {key : String × String} {threshold window capacity : ℕ}
    {inputs inputs' : List IncidentUpsertInput} (h : Collection key threshold window capacity inputs)
    (hperm : inputs.Perm inputs') : Collection key threshold window capacity inputs' :=
  ⟨fun i hi => h.key i (hperm.mem_iff.mpr hi), fun i hi => h.threshold i (hperm.mem_iff.mpr hi),
    fun i hi => h.window i (hperm.mem_iff.mpr hi), fun i hi => h.capacity i (hperm.mem_iff.mpr hi),
    (hperm.map _).nodup_iff.mp h.distinct⟩

theorem Collection.of_concat {key : String × String} {threshold window capacity : ℕ}
    {inputs : List IncidentUpsertInput} {i : IncidentUpsertInput}
    (h : Collection key threshold window capacity (inputs ++ [i])) :
    Collection key threshold window capacity inputs ∧
      ∀ j ∈ inputs, j.fingerprint ≠ i.fingerprint := by
  have hnodup := h.distinct
  rw [List.map_append, List.nodup_append'] at hnodup
  obtain ⟨hdistinct, -, hdisjoint⟩ := hnodup
  constructor
  · exact ⟨fun j hj => h.key j (List.mem_append_left _ hj),
      fun j hj => h.threshold j (List.mem_append_left _ hj),
      fun j hj => h.window j (List.mem_append_left _ hj),
      fun j hj => h.capacity j (List.mem_append_left _ hj), hdistinct⟩
  · intro j hj heq
    exact hdisjoint (List.mem_map_of_mem hj) (by simp [heq])

/-- The one OPEN row of the key. -/
structure OpenRow (key : String × String) (t : List Incident) (r : Incident) : Prop where
  mem : r ∈ t
  status : r.status = .«open»
  key_eq : r.key = key
  only : ∀ x ∈ t, x.status = .«open» → x.key = key → x = r

/-- The one OPEN row of the key is made of the inputs. -/
structure Gathered (key : String × String) (threshold window capacity : ℕ)
    (inputs : List IncidentUpsertInput) (t : List Incident) (r : Incident) : Prop
    extends OpenRow key t r where
  invariant : RowInvariant r
  windowInvariant : WindowInvariant r
  collected : Collected inputs threshold window capacity r
  eventCount : r.eventCount ≤ inputs.length
  context : r.decisionContext.Valid
  utc : (∀ i ∈ inputs, i.eventTime.offset = 0) → InUtc r.windowState.val

section Gather

variable {key : String × String} {threshold window capacity : ℕ} {t t' : List Incident}
  {inputs : List IncidentUpsertInput} {p : ProblemCall} {out : ProblemOutcome}

/-- The first problem opens the incident. -/
theorem gathered_first (hno : ∀ r ∈ t, r.status = .«open» → r.key ≠ key)
    (hall : Collection key threshold window capacity [p.input])
    (hwhole : p.input.eventTime.WholeMinutes) (heff : ProblemEffect p t t' out) :
    ∃ r, Gathered key threshold window capacity [p.input] t' r := by
  have hpkey : p.input.key = key := hall.key _ (by simp)
  cases heff with
  | inserted r hfresh =>
    have hrkey : r.key = key := hfresh.lifetime.key.trans hpkey
    have hcollected := hfresh.collected hwhole
    rw [hall.threshold p.input (by simp), hall.window p.input (by simp),
      hall.capacity p.input (by simp)] at hcollected
    have hcount : r.eventCount = 1 := by
      obtain ⟨_, _, _, -, -, rfl⟩ := hfresh.made
      rfl
    exact
      ⟨r, { mem := by simp
            status := hfresh.lifetime.status
            key_eq := hrkey
            only := by
              intro x hx ho hk
              rcases List.mem_append.mp hx with hx | hx
              · exact absurd hk (hno x hx ho)
              · exact List.mem_singleton.mp hx
            invariant := hfresh.invariant
            windowInvariant := hfresh.windowInvariant hwhole
            collected := hcollected
            eventCount := hcount.le
            context := hfresh.context_valid
            utc := fun hutc => hfresh.inUtc (hutc p.input (by simp)) }⟩
  | merged r w r' hmem hm =>
    cases hm with
    | intro _ _ hopen hkey => exact absurd (hkey.trans hpkey) (hno r hmem hopen)

/-- Every further problem is merged into it. -/
theorem Gathered.concat {r : Incident}
    (h : Gathered key threshold window capacity inputs t r)
    (hall : Collection key threshold window capacity (inputs ++ [p.input]))
    (hwhole : p.input.eventTime.WholeMinutes) (heff : ProblemEffect p t t' out) :
    ∃ r', Gathered key threshold window capacity (inputs ++ [p.input]) t' r' := by
  have hpkey : p.input.key = key := hall.key _ (by simp)
  cases heff with
  | inserted x hfresh => exact absurd ⟨h.status, h.key_eq.trans hpkey.symm⟩ (hfresh.key_free r h.mem)
  | merged existing w r' hmem hm =>
    have hex : existing = r := by
      cases hm with
      | intro _ _ hopen hkey => exact h.only existing hmem hopen (hkey.trans hpkey)
    subst hex
    have hcollected := hm.collected h.windowInvariant h.collected hwhole
      (hall.threshold _ (by simp)) (hall.window _ (by simp)) (hall.capacity _ (by simp))
      hall.of_concat.2
    have hcount := h.eventCount
    have hkeep : r'.status = .«open» ∧ r'.key = key ∧ r'.decisionContext.Valid ∧
        r'.eventCount ≤ existing.eventCount + 1 := by
      cases hm with
      | intro eventTime context hopen hkey hw htime hlen hcontext =>
        refine ⟨h.status, h.key_eq, hcontext, Nat.add_le_add_left ?_ _⟩
        split_ifs <;> decide
    exact
      ⟨r', { mem := List.mem_map.mpr ⟨existing, hmem, if_pos (decide_eq_true hm.id_eq.symm)⟩
             status := hkeep.1
             key_eq := hkeep.2.1
             only := by
              intro x hx ho hk
              obtain ⟨y, hy, rfl⟩ := List.mem_map.mp hx
              by_cases hyr : y.id = r'.id
              · rw [if_pos (decide_eq_true hyr)]
              · -- another open row of the key is the one merged into
                rw [if_neg (by simpa using hyr)] at ho hk ⊢
                exact absurd ((congrArg Incident.id (h.only y hy ho hk)).trans hm.id_eq.symm) hyr
             invariant := hm.invariant h.invariant
             windowInvariant := hm.windowInvariant hwhole
             collected := hcollected
             eventCount := by
              rw [List.length_append, List.length_singleton]
              exact hkeep.2.2.2.trans (Nat.add_le_add_right hcount 1)
             context := hkeep.2.2.1
             utc := fun hutc =>
              hm.inUtc (h.utc fun i hi => hutc i (List.mem_append_left _ hi))
                (hutc p.input (by simp)) }⟩

theorem applyAll_gathered (ht : (t.map Incident.id).Nodup)
    (hno : ∀ r ∈ t, r.status = .«open» → r.key ≠ key) (calls : List ProblemCall) :
    Collection key threshold window capacity (calls.map ProblemCall.input) →
    (∀ c ∈ calls, c.input.eventTime.WholeMinutes) →
    applyAll (calls.map ProblemCall.op) t = .ok t' →
    (t'.map Incident.id).Nodup ∧ (calls ≠ [] →
      ∃ r, Gathered key threshold window capacity (calls.map ProblemCall.input) t' r) := by
  induction calls using List.reverseRecOn generalizing t' with
  | nil =>
    intro _ _ h
    cases h
    exact ⟨ht, fun hne => absurd rfl hne⟩
  | append_singleton calls p ih =>
    intro hall hwhole h
    rw [List.map_append] at hall h
    obtain ⟨t₁, o, h₁, hstep⟩ := applyAll_concat.mp h
    obtain ⟨ht₁, ih⟩ := ih hall.of_concat.1 (fun c hc => hwhole c (List.mem_append_left _ hc)) h₁
    have hp := hwhole p (by simp)
    obtain ⟨out, -, heff⟩ := step_problem ht₁ (show p.op.problem = some p from rfl) hstep
    refine ⟨step_ids_nodup ht₁ hstep, fun _ => ?_⟩
    rw [List.map_append]
    by_cases hnil : calls = []
    · subst hnil
      cases h₁
      exact gathered_first hno hall hp heff
    · obtain ⟨r, hr⟩ := ih hnil
      exact hr.concat hall hp heff

end Gather

/-! ### Whether an order completes -/

/-- Each problem can be recorded by itself, and together they do not exceed what the columns of one
row hold. -/
structure Recordable (inputs : List IncidentUpsertInput) : Prop where
  alone : ∀ i ∈ inputs, ∃ now id p, recordProblemIncident now id i [] = .ok p
  objects : ∃ objs : List IncidentObject, objs.length ≤ jsonbArrayMax ∧ ∀ i ∈ inputs,
    ∀ o : IncidentObject, o.val.host ∈ i.affectedHosts → o.val.service ∈ i.servicesOrNone → o ∈ objs
  count : inputs.length < int4End

/-- The window reaches back to the year 1 from every problem that is not older than another one. -/
def WindowFits (window : ℕ) (inputs : List IncidentUpsertInput) : Prop :=
  ∀ i ∈ inputs, ∀ j ∈ inputs, i.fingerprint ≠ j.fingerprint →
    j.eventTime.instant ≤ i.eventTime.instant →
    (window * usPerSecond : ℕ) ≤ i.eventTime.instant

instance (window : ℕ) (inputs : List IncidentUpsertInput) : Decidable (WindowFits window inputs) :=
  inferInstanceAs (Decidable (∀ i ∈ inputs, ∀ j ∈ inputs, _))

theorem Recordable.tried {inputs : List IncidentUpsertInput} (h : Recordable inputs)
    {i : IncidentUpsertInput} (hi : i ∈ inputs) :
    ∃ state eventTime, initialWindowState i = .ok state ∧
      state.val.activeObjects.length ≤ jsonbArrayMax ∧
      i.eventTime.toTimestamptz = some eventTime := by
  obtain ⟨now, id, ⟨t', w⟩, hp⟩ := h.alone i hi
  have hids : (([] : List Incident).map Incident.id).Nodup := List.nodup_nil
  cases recordProblemIncident_eq_ok hids hp with
  | inserted state eventTime hstate htime hlen => exact ⟨state, eventTime, hstate, hlen, htime⟩
  | merged existing _ _ _ hmem => cases hmem

section Completes

variable {key : String × String} {threshold window capacity : ℕ} {t t' : List Incident}
  {inputs all : List IncidentUpsertInput} {p : ProblemCall} {r : Incident}

/-- The end of the next window, whichever of its two times that is, has room for the window. -/
theorem Gathered.fits (h : Gathered key threshold window capacity inputs t r)
    (hfits : WindowFits window all) (hsub : ∀ i ∈ inputs, i ∈ all) {i : IncidentUpsertInput}
    (hi : i ∈ all) {state : IncidentWindowState} (hstate : initialWindowState i = .ok state)
    (hwindow : i.windowSeconds = window) (hnew : ∀ j ∈ inputs, j.fingerprint ≠ i.fingerprint) :
    i.windowSeconds * usPerSecond ≤ (nextWindowEndDatetime r i).naive := by
  by_cases hlater : r.lastUpdateTime.val < i.eventTime.instant
  · have hend : nextWindowEndDatetime r i = i.eventTime :=
      if_pos (by rwa [Timestamptz.toDatetime_instant])
    obtain ⟨objs, start, -, hstart, -⟩ := initialWindowState_eq_ok hstate
    rw [hend]
    exact Datetime.subSeconds_isSome.mp (hstart ▸ rfl)
  · have hend : nextWindowEndDatetime r i = r.lastUpdateTime.toDatetime :=
      if_neg (by rwa [Timestamptz.toDatetime_instant])
    obtain ⟨j, hj, hlast⟩ := h.collected.latest.1
    have hfit := hfits j (hsub j hj) i hi (hnew j hj) (hlast.symm ▸ not_lt.mp hlater)
    rw [hlast] at hfit
    rw [hend, hwindow]
    exact (Int.le_toNat r.lastUpdateTime.property.1).mpr hfit

/-- A further problem is recorded. -/
theorem Gathered.records (h : Gathered key threshold window capacity inputs t r)
    (ht : (t.map Incident.id).Nodup) (hrec : Recordable all) (hfits : WindowFits window all)
    (hsub : ∀ i ∈ inputs ++ [p.input], i ∈ all) (hlen : (inputs ++ [p.input]).length ≤ all.length)
    (hall : Collection key threshold window capacity (inputs ++ [p.input])) :
    ∃ t' o, step p.op t = .ok (t', o) := by
  have hp : p.input ∈ all := hsub _ (by simp)
  have hinputs : ∀ i ∈ inputs, i ∈ all := fun i hi => hsub i (List.mem_append_left _ hi)
  obtain ⟨state, eventTime, hstate, hobjects, htime⟩ := hrec.tried hp
  obtain ⟨w, hw⟩ := nextWindowState_ok hstate
    (h.fits hfits hinputs hp hstate (hall.window _ (by simp)) hall.of_concat.2)
  obtain ⟨context, hcontext⟩ := preserveNotificationDeliveryResults_ok h.context
    (decisionContextDump_valid p.input)
  -- the objects of the next state are objects of the problems
  have hlength : w.state.val.activeObjects.length ≤ jsonbArrayMax := by
    obtain ⟨bound, hbound, hmem⟩ := hrec.objects
    obtain ⟨objs, hobjs, hactive⟩ := (nextWindowState_eq_ok hw).objects
    have hnodup : w.state.val.activeObjects.Nodup := by
      rw [hactive]
      exact (sortedSet_strict IncidentObject.sortKey_injective).nodup
    refine (List.subperm_of_subset hnodup fun o ho => ?_).length_le.trans hbound
    rw [hactive, mem_sortedSet, List.mem_append] at ho
    rcases ho with ho | ho
    · obtain ⟨i, hi, hhost, hservice⟩ := (h.collected.objects o).mp ho
      exact hmem i (hinputs i hi) o hhost hservice
    · obtain ⟨hhost, hservice⟩ := (mem_activeObjectsFromInput hobjs).mp ho
      exact hmem p.input hp o hhost hservice
  have hcount : r.eventCount + (if w.counted then 1 else 0) < int4End := by
    have hbound := hrec.count
    have hold := h.eventCount
    rw [List.length_append, List.length_singleton] at hlen
    split_ifs <;> omega
  have hpkey : p.input.key = r.key := (hall.key _ (by simp)).trans h.key_eq.symm
  have hone : t.filter (Incident.isOpenFor p.input.key) = [r] := by
    rw [hpkey]
    exact openFor_filter ht h.mem h.status fun x hx ho hk => h.only x hx ho (hk.trans h.key_eq)
  have hmerge := @mergeProblem_ok p.now _ _ _ _ _ _ ht h.mem hw hcontext htime hlength hcount
  exact ⟨_, _, answer_eq_ok.mpr
    ⟨_, (recordProblemIncident_merges hstate htime hobjects hone).trans hmerge, rfl⟩⟩

theorem applyAll_completes (ht : (t.map Incident.id).Nodup)
    (hno : ∀ r ∈ t, r.status = .«open» → r.key ≠ key) (hrec : Recordable all)
    (hfits : WindowFits window all) (calls : List ProblemCall) :
    Collection key threshold window capacity (calls.map ProblemCall.input) →
    (∀ c ∈ calls, c.input.eventTime.WholeMinutes) → (∀ c ∈ calls, ∀ r ∈ t, r.id ≠ c.id) →
    (∀ i ∈ calls.map ProblemCall.input, i ∈ all) →
    (calls.map ProblemCall.input).length ≤ all.length →
    ∃ t', applyAll (calls.map ProblemCall.op) t = .ok t' := by
  induction calls using List.reverseRecOn with
  | nil => exact fun _ _ _ _ _ => ⟨t, rfl⟩
  | append_singleton calls p ih =>
    intro hall hwhole hids hsub hlen
    rw [List.map_append] at hall hsub hlen ⊢
    have hwhole' : ∀ c ∈ calls, c.input.eventTime.WholeMinutes :=
      fun c hc => hwhole c (List.mem_append_left _ hc)
    obtain ⟨t₁, h₁⟩ := ih hall.of_concat.1 hwhole'
      (fun c hc => hids c (List.mem_append_left _ hc))
      (fun i hi => hsub i (List.mem_append_left _ hi))
      ((List.sublist_append_left _ _).length_le.trans hlen)
    obtain ⟨ht₁, hgathered⟩ := applyAll_gathered ht hno calls hall.of_concat.1 hwhole' h₁
    have hstep : ∃ t' o, step p.op t₁ = .ok (t', o) := by
      by_cases hnil : calls = []
      · subst hnil
        cases h₁
        obtain ⟨state, eventTime, hstate, hobjects, htime⟩ := hrec.tried (hsub p.input (by simp))
        have hpkey : p.input.key = key := hall.key _ (by simp)
        exact ⟨_, _, answer_eq_ok.mpr ⟨_, recordProblemIncident_inserts hstate htime hobjects
          (fun r hr ho => hno r hr ho.1 (ho.2.trans hpkey)) (hids p (by simp)), rfl⟩⟩
      · obtain ⟨r, hr⟩ := hgathered hnil
        exact hr.records ht₁ hrec hfits hsub hlen hall
    obtain ⟨t', o, hstep⟩ := hstep
    exact ⟨t', applyAll_concat.mpr ⟨t₁, o, h₁, hstep⟩⟩

/-- Where two problems are recorded first that do not fit, the second one fails. -/
theorem fits_of_completes (ht : (t.map Incident.id).Nodup)
    (hno : ∀ r ∈ t, r.status = .«open» → r.key ≠ key) {c c' : ProblemCall}
    (hall : Collection key threshold window capacity [c.input, c'.input])
    (hwhole : c.input.eventTime.WholeMinutes)
    (hle : c'.input.eventTime.instant ≤ c.input.eventTime.instant)
    (h : applyAll [c.op, c'.op] t = .ok t') :
    (window * usPerSecond : ℕ) ≤ c.input.eventTime.instant := by
  obtain ⟨t₁, o, h₁, hstep⟩ := (@applyAll_concat [c.op] c'.op t t').mp h
  have hone := (@Collection.of_concat key threshold window capacity [c.input] c'.input hall).1
  obtain ⟨ht₁, hgathered⟩ := applyAll_gathered ht hno [c] hone
    (by simpa using hwhole) h₁
  obtain ⟨r, hr⟩ := hgathered (List.cons_ne_nil _ _)
  obtain ⟨i, hi, hlast⟩ := hr.collected.latest.1
  obtain rfl : i = c.input := List.mem_singleton.mp hi
  obtain ⟨out, -, heff⟩ := step_problem ht₁ (show c'.op.problem = some c' from rfl) hstep
  cases heff with
  | inserted x hfresh =>
    have hkey : c'.input.key = key := hall.key _ (by simp)
    exact absurd ⟨hr.status, hr.key_eq.trans hkey.symm⟩ (hfresh.key_free r hr.mem)
  | merged existing w r' hmem hm =>
    cases hm with
    | intro eventTime context hopen hkey hw =>
      have hkey' : c'.input.key = key := hall.key _ (by simp)
      obtain rfl := hr.only existing hmem hopen (hkey.trans hkey')
      have hend : nextWindowEndDatetime existing c'.input = existing.lastUpdateTime.toDatetime := by
        apply if_neg
        rw [Timestamptz.toDatetime_instant, ← hlast]
        exact not_lt.mpr hle
      have hstart := (nextWindowState_eq_ok hw).startedAt
      rw [hend] at hstart
      have hnaive := Datetime.subSeconds_isSome.mp (Option.isSome_iff_exists.mpr ⟨_, hstart⟩)
      have hwindow : c'.input.windowSeconds = window := hall.window _ (by simp)
      rw [hwindow] at hnaive
      rw [hlast]
      exact (Int.le_toNat existing.lastUpdateTime.property.1).mp hnaive

end Completes

/-! ### Two orders -/

/-- What the order of arrival does not change: the window, with its times as instants, its counted
fingerprints and its objects, and the columns the problems determine. -/
structure SameIncident (r r' : Incident) : Prop where
  window : r.window = r'.window
  lastUpdateTime : r.lastUpdateTime = r'.lastUpdateTime
  severity : r.severity = r'.severity
  hosts : r.affectedHosts = r'.affectedHosts
  services : r.affectedServices = r'.affectedServices

/-- What is collected from the same inputs is the same. -/
theorem Gathered.same {key : String × String} {inputs inputs' : List IncidentUpsertInput}
    {threshold window capacity : ℕ} {t t' : List Incident} {r r' : Incident}
    (hperm : inputs.Perm inputs') (h : Gathered key threshold window capacity inputs t r)
    (h' : Gathered key threshold window capacity inputs' t' r') : SameIncident r r' := by
  have hmem : ∀ i, i ∈ inputs ↔ i ∈ inputs' := fun i => hperm.mem_iff
  have hr := h.invariant
  have hr' := h'.invariant
  have hlast : r.lastUpdateTime = r'.lastUpdateTime := by
    refine Subtype.ext (h.collected.latest.unique ?_)
    simpa only [hmem] using h'.collected.latest
  have hsev : r.severity = r'.severity := by
    refine Severity.rank_injective (h.collected.severity.unique ?_)
    simpa only [hmem] using h'.collected.severity
  have hranks : eventRanks inputs = eventRanks inputs' :=
    List.toFinset_eq_of_perm _ _ (hperm.map _)
  have htimes : r.window.countedFingerprintTimestamps = r'.window.countedFingerprintTimestamps := by
    refine Dict.eq_of_ranks evictionRank_injective ?_
    rw [h.collected.retained, h'.collected.retained, hlast, hranks]
  have hobjs : r.window.activeObjects = r'.window.activeObjects := by
    refine eq_of_strict hr.objects_sorted hr'.objects_sorted fun o => ?_
    exact (h.collected.objects o).trans
      (Iff.trans (by simp only [hmem]) (h'.collected.objects o).symm)
  have hended : r.window.windowEndedAt = r'.window.windowEndedAt := by
    rw [h.windowInvariant.ended_eq, h'.windowInvariant.ended_eq, hlast]
  have hseconds : r.window.windowSeconds = r'.window.windowSeconds :=
    h.collected.windowSeconds.trans h'.collected.windowSeconds.symm
  have hcount : r.window.countedCount = r'.window.countedCount := by
    refine (hr.counted_eq.trans r.window_size.symm).trans ?_
    rw [htimes]
    exact (hr'.counted_eq.trans r'.window_size.symm).symm
  have hstarted : r.window.windowStartedAt = r'.window.windowStartedAt := by
    rw [hr.started_eq, hr'.started_eq, hended]
    exact congrArg (fun n => _ - seconds n) hseconds
  have hobjs' : r.windowState.val.activeObjects = r'.windowState.val.activeObjects := hobjs
  exact
    { window := WindowFields.ext hstarted hended hseconds
        (h.collected.thresholdCount.trans h'.collected.thresholdCount.symm) htimes hcount
        (h.collected.maxSize.trans h'.collected.maxSize.symm) hobjs
      lastUpdateTime := hlast
      severity := hsev
      hosts := by rw [hr.hosts_eq, hr'.hosts_eq, hobjs']
      services := by rw [hr.services_eq, hr'.services_eq, hobjs'] }

/-- The calls in another order, each with its own `func.now()` and `uuid4()`. -/
structure Arrival (t : List Incident) (calls calls' : List ProblemCall) : Prop where
  perm : (calls'.map ProblemCall.input).Perm (calls.map ProblemCall.input)
  ids : ∀ c ∈ calls', ∀ r ∈ t, r.id ≠ c.id

/-- **Arrival order.**  Take problems of one rule and group, with distinct fingerprints, equal
parameters and UTC offsets of whole minutes, that can each be recorded, and a table without an OPEN
row of their key.  Then any two orders complete, with one OPEN row of the key that is the same
incident, to the text of its window if the problems come in UTC, and whose map holds the greatest
pairs among the inputs not older than the window, if and only if the window fits. -/
theorem arrival_order (t : List Incident) (key : String × String)
    (threshold window capacity : ℕ) (calls : List ProblemCall)
    (ht : (t.map Incident.id).Nodup) (hno : ∀ r ∈ t, r.status = .«open» → r.key ≠ key)
    (hne : calls ≠ []) (hids : ∀ c ∈ calls, ∀ r ∈ t, r.id ≠ c.id)
    (hall : Collection key threshold window capacity (calls.map ProblemCall.input))
    (hrec : Recordable (calls.map ProblemCall.input))
    (hwhole : ∀ c ∈ calls, c.input.eventTime.WholeMinutes) :
    (∀ calls₁ calls₂, Arrival t calls calls₁ → Arrival t calls calls₂ →
      ∃ t₁ t₂ r r', applyAll (calls₁.map ProblemCall.op) t = .ok t₁ ∧
        applyAll (calls₂.map ProblemCall.op) t = .ok t₂ ∧
        OpenRow key t₁ r ∧ OpenRow key t₂ r' ∧ SameIncident r r' ∧
        ((∀ c ∈ calls, c.input.eventTime.offset = 0) → r.windowState = r'.windowState) ∧
        IsGreatest {time | ∃ c ∈ calls, c.input.eventTime.instant = time} r.lastUpdateTime.val ∧
        r.window.countedFingerprintTimestamps.ranks evictionRank =
          topK capacity (since (r.lastUpdateTime.val - seconds window)
            (eventRanks (calls.map ProblemCall.input)))) ↔
      WindowFits window (calls.map ProblemCall.input) := by
  constructor
  · intro h i hi j hj hij hle
    -- the two problems first, the newer one before the other
    obtain ⟨c, hc, rfl⟩ := List.mem_map.mp hi
    obtain ⟨c', hc', rfl⟩ := List.mem_map.mp hj
    obtain ⟨rest, hrest⟩ : ∃ rest, calls.Perm (c :: c' :: rest) := by
      obtain ⟨l₁, l₂, rfl⟩ := List.append_of_mem hc
      have hmem : c' ∈ l₁ ++ l₂ := by
        have hmem := List.perm_middle.mem_iff.mp hc'
        exact (List.mem_cons.mp hmem).resolve_left fun heq => hij (heq ▸ rfl)
      obtain ⟨l₃, l₄, heq⟩ := List.append_of_mem hmem
      refine ⟨l₃ ++ l₄, List.perm_middle.trans (List.Perm.cons c ?_)⟩
      rw [heq]
      exact List.perm_middle
    have harrival : Arrival t calls (c :: c' :: rest) :=
      ⟨(hrest.map _).symm, fun x hx => hids x (hrest.mem_iff.mpr hx)⟩
    obtain ⟨t₁, -, -, -, h₁, -⟩ := h _ _ harrival harrival
    have hsplit : applyAll ([c.op, c'.op] ++ rest.map ProblemCall.op) t =
        applyAll [c.op, c'.op] t >>= applyAll (rest.map ProblemCall.op) := List.foldlM_append
    obtain ⟨t₂, h₂, -⟩ := bind_eq_ok.mp (hsplit.symm.trans h₁)
    have hall' := hall.perm (hrest.map _)
    have hpair : Collection key threshold window capacity [c.input, c'.input] := by
      refine ⟨?_, ?_, ?_, ?_, ?_⟩
      · exact fun i hi => hall'.key i (List.mem_append_left (rest.map _) hi)
      · exact fun i hi => hall'.threshold i (List.mem_append_left (rest.map _) hi)
      · exact fun i hi => hall'.window i (List.mem_append_left (rest.map _) hi)
      · exact fun i hi => hall'.capacity i (List.mem_append_left (rest.map _) hi)
      · simpa using hij
    exact fits_of_completes ht hno hpair (hwhole c hc) hle h₂
  · intro hfits calls₁ calls₂ h₁ h₂
    have hend : ∀ calls', Arrival t calls calls' → ∃ t' r,
        applyAll (calls'.map ProblemCall.op) t = .ok t' ∧
        Gathered key threshold window capacity (calls'.map ProblemCall.input) t' r := by
      intro calls' h
      have hall' := hall.perm h.perm.symm
      have hwhole' : ∀ c ∈ calls', c.input.eventTime.WholeMinutes := by
        intro c hc
        obtain ⟨c', hc', heq⟩ := List.mem_map.mp (h.perm.mem_iff.mp (List.mem_map_of_mem hc))
        exact heq ▸ hwhole c' hc'
      obtain ⟨t', ht'⟩ := applyAll_completes ht hno hrec hfits calls' hall' hwhole' h.ids
        (fun i hi => h.perm.mem_iff.mp hi) h.perm.length_eq.le
      have hne' : calls' ≠ [] := by
        rintro rfl
        exact hne (List.map_eq_nil_iff.mp h.perm.nil_eq.symm)
      obtain ⟨r, hr⟩ := (applyAll_gathered ht hno calls' hall' hwhole' ht').2 hne'
      exact ⟨t', r, ht', hr⟩
    obtain ⟨t₁, r, ht₁, hr⟩ := hend calls₁ h₁
    obtain ⟨t₂, r', ht₂, hr'⟩ := hend calls₂ h₂
    have hperm := h₁.perm.trans h₂.perm.symm
    have hsame := hr.same hperm hr'
    have hranks : eventRanks (calls₁.map ProblemCall.input) =
        eventRanks (calls.map ProblemCall.input) := List.toFinset_eq_of_perm _ _ (h₁.perm.map _)
    refine ⟨t₁, t₂, r, r', ht₁, ht₂, hr.toOpenRow, hr'.toOpenRow, hsame, fun hutc => ?_, ?_, ?_⟩
    · have hutc' : ∀ i ∈ calls.map ProblemCall.input, i.eventTime.offset = 0 := by
        intro i hi
        obtain ⟨c, hc, rfl⟩ := List.mem_map.mp hi
        exact hutc c hc
      exact Checked.ext (InUtc.eq (hr.utc fun i hi => hutc' i (h₁.perm.mem_iff.mp hi))
        (hr'.utc fun i hi => hutc' i (h₂.perm.mem_iff.mp hi)) hsame.window)
    · have hlatest := hr.collected.latest
      simp only [h₁.perm.mem_iff] at hlatest
      simpa using hlatest
    · rw [hr.collected.retained, hranks]

/-! ### Problems to look at -/

def sampleCalls : List ProblemCall :=
  (sampleProblem "cpu" 5 2 60 ++ sampleProblem "mem" 0 2 60).filterMap Op.problem

theorem sampleCalls_input {c : ProblemCall} (hc : c ∈ sampleCalls) :
    c.input.affectedHosts = ["db1"] ∧ c.input.servicesOrNone = [some "disk"] ∧
      c.input.eventTime.offset = 0 ∧
      (recordProblemIncident c.now c.id c.input []).toBool = true :=
  (by decide +kernel : ∀ c ∈ sampleCalls, c.input.affectedHosts = ["db1"] ∧
    c.input.servicesOrNone = [some "disk"] ∧ c.input.eventTime.offset = 0 ∧
    (recordProblemIncident c.now c.id c.input []).toBool = true) c hc

theorem sampleCalls_recordable : Recordable (sampleCalls.map ProblemCall.input) := by
  refine ⟨?_, ⟨[⟨⟨"db1", some "disk"⟩, by decide⟩], by decide, ?_⟩, by decide +kernel⟩
  · intro i hi
    obtain ⟨c, hc, rfl⟩ := List.mem_map.mp hi
    refine ⟨c.now, c.id, ?_⟩
    have hok := (sampleCalls_input hc).2.2.2
    cases hrecord : recordProblemIncident c.now c.id c.input [] with
    | error e =>
      rw [hrecord] at hok
      cases hok
    | ok p => exact ⟨p, rfl⟩
  · intro i hi o hhost hservice
    obtain ⟨c, hc, rfl⟩ := List.mem_map.mp hi
    obtain ⟨hhosts, hservices, -⟩ := sampleCalls_input hc
    rw [hhosts, List.mem_singleton] at hhost
    rw [hservices, List.mem_singleton] at hservice
    refine List.mem_singleton.mpr (Checked.ext ?_)
    cases hval : o.val with
    | mk host service =>
      rw [hval] at hhost hservice
      obtain rfl : host = "db1" := hhost
      obtain rfl : service = some "disk" := hservice
      rfl

/-- The later problem arrives first, or last. -/
theorem arrival_order_sampleCalls : ∃ t₁ t₂ r r',
    applyAll (sampleCalls.map ProblemCall.op) [] = .ok t₁ ∧
    applyAll (sampleCalls.reverse.map ProblemCall.op) [] = .ok t₂ ∧
    r ∈ t₁ ∧ r' ∈ t₂ ∧ SameIncident r r' ∧ r.windowState = r'.windowState := by
  have hutc : ∀ c ∈ sampleCalls, c.input.eventTime.offset = 0 :=
    fun c hc => (sampleCalls_input hc).2.2.1
  have hwhole : ∀ c ∈ sampleCalls, c.input.eventTime.WholeMinutes := by
    intro c hc
    show (usPerMinute : ℤ) ∣ c.input.eventTime.offset
    rw [hutc c hc]
    exact dvd_zero _
  obtain ⟨t₁, t₂, r, r', h₁, h₂, hr, hr', hsame, htext, -⟩ :=
    (arrival_order [] ("disk", "host=db1") 2 60 100 sampleCalls List.nodup_nil (by simp)
      (List.ne_nil_of_length_pos (by decide)) (by simp) (by decide +kernel) sampleCalls_recordable
      hwhole).mpr (by decide +kernel) sampleCalls sampleCalls.reverse
      ⟨List.Perm.refl _, by simp⟩ ⟨(List.reverse_perm _).map _, by simp⟩
  exact ⟨t₁, t₂, r, r', h₁, h₂, hr.mem, hr'.mem, hsame, htext hutc⟩

/-- Two problems of the year 1, a second apart, with a window of one hour. -/
def yearOneCalls : List ProblemCall :=
  ([("cpu", 0), ("mem", 1)].filterMap fun p => (yearOneProblem p.1 p.2 3600).map fun i =>
    ⟨sampleTime p.2, Fin.ofNat _ p.2, i⟩)

/-- A problem half a minute before noon, on a clock half a minute ahead, and one after noon. -/
def halfMinuteCalls : List ProblemCall :=
  (halfMinuteProblem "cpu" 0 2 10 ++ sampleProblem "mem" 5 2 10).filterMap Op.problem

/-- The numbers of counted fingerprints after the calls. -/
def countsAfter (calls : List ProblemCall) : Option (List ℕ) :=
  ((applyAll (calls.map ProblemCall.op) []).toOption).map fun t =>
    t.map fun r => r.windowState.val.countedCount

/-- Two orders of two problems: the later one of the year 1 cannot come first, and with an offset of
half a minute the order decides what is counted. -/
theorem arrival_order_matters :
    (yearOneCalls.length = 2 ∧
      Collection ("disk", "host=db1") 1 3600 100 (yearOneCalls.map ProblemCall.input) ∧
      countsAfter yearOneCalls = some [2] ∧ countsAfter yearOneCalls.reverse = none) ∧
    halfMinuteCalls.length = 2 ∧
      Collection ("disk", "host=db1") 2 10 100 (halfMinuteCalls.map ProblemCall.input) ∧
      countsAfter halfMinuteCalls = some [2] ∧ countsAfter halfMinuteCalls.reverse = some [1] := by
  decide +kernel

end Correlia
