import Correlia.Persistence.Upsert

/-!
# Persistence.Window — the retained fingerprints as a function of the window

`nextCounted` is the map part of `_next_window_state`, on instants: prune by the window, add the
event when it is inside and new, evict down to the capacity.  `nextWindowState_eq_ok` and
`initialWindowState_eq_ok` say everything the two window functions compute, and
`NextWindow.dump_instants` what the column then holds: the same instants, if the event's UTC offset
has no seconds.
-/

namespace Correlia

open Lib

/-- The entries still inside the window. -/
def retain (windowStart windowEnd : Instant) (d : Dict String Instant) : Dict String Instant :=
  d.filter fun e => insideWindow windowStart windowEnd e.2

/-- An event that is inside the window and whose fingerprint is not retained. -/
def isCounted (windowStart windowEnd : Instant) (fingerprint : String) (eventTime : Instant)
    (d : Dict String Instant) : Bool :=
  insideWindow windowStart windowEnd eventTime && !(retain windowStart windowEnd d).contains fingerprint

/-- The map part of `_next_window_state`. -/
def nextCounted (windowStart windowEnd : Instant) (fingerprint : String) (eventTime : Instant)
    (maxSize : ℕ) (d : Dict String Instant) : Dict String Instant :=
  let retained := retain windowStart windowEnd d
  (if isCounted windowStart windowEnd fingerprint eventTime d then
    retained.insert fingerprint eventTime else retained).greatest evictionRank maxSize

@[simp] theorem insideWindow_iff {windowStart windowEnd t : Instant} :
    insideWindow windowStart windowEnd t = true ↔ windowStart ≤ t ∧ t ≤ windowEnd :=
  decide_eq_true_iff

@[simp] theorem mem_retain {windowStart windowEnd : Instant} {d : Dict String Instant}
    {e : String × Instant} :
    e ∈ (retain windowStart windowEnd d).entries ↔
      e ∈ d.entries ∧ windowStart ≤ e.2 ∧ e.2 ≤ windowEnd := by
  simp [retain]

theorem isCounted_iff {windowStart windowEnd : Instant} {fingerprint : String}
    {eventTime : Instant} {d : Dict String Instant} :
    isCounted windowStart windowEnd fingerprint eventTime d = true ↔
      (windowStart ≤ eventTime ∧ eventTime ≤ windowEnd) ∧
        (retain windowStart windowEnd d).contains fingerprint = false := by
  simp [isCounted]

section NextCounted

variable {windowStart windowEnd : Instant} {fingerprint : String} {eventTime : Instant}
  {maxSize : ℕ} {d : Dict String Instant}

/-- A retained entry was retained before, or is the counted event; either way it is inside. -/
theorem mem_nextCounted {e : String × Instant}
    (h : e ∈ (nextCounted windowStart windowEnd fingerprint eventTime maxSize d).entries) :
    (e ∈ d.entries ∨ e = (fingerprint, eventTime)) ∧ windowStart ≤ e.2 ∧ e.2 ≤ windowEnd := by
  have h := Dict.greatest_subset evictionRank_injective h
  by_cases hc : isCounted windowStart windowEnd fingerprint eventTime d = true
  · rw [if_pos hc] at h
    rcases Dict.mem_insert.mp h with rfl | ⟨h, -⟩
    · exact ⟨Or.inr rfl, (isCounted_iff.mp hc).1⟩
    · exact ⟨Or.inl (mem_retain.mp h).1, (mem_retain.mp h).2⟩
  · rw [if_neg hc] at h
    exact ⟨Or.inl (mem_retain.mp h).1, (mem_retain.mp h).2⟩

theorem size_nextCounted_le_max :
    (nextCounted windowStart windowEnd fingerprint eventTime maxSize d).size ≤ maxSize :=
  Dict.size_greatest_le

/-- The map grows by at most the counted event. -/
theorem size_nextCounted_le :
    (nextCounted windowStart windowEnd fingerprint eventTime maxSize d).size ≤
      d.size + if isCounted windowStart windowEnd fingerprint eventTime d then 1 else 0 := by
  have hret : (retain windowStart windowEnd d).size ≤ d.size := Dict.size_filter_le _ _
  refine Dict.size_greatest_le_size.trans ?_
  by_cases hc : isCounted windowStart windowEnd fingerprint eventTime d = true
  · rw [if_pos hc, if_pos hc]
    have := Dict.size_insert_le (retain windowStart windowEnd d) fingerprint eventTime
    omega
  · rw [if_neg hc, if_neg hc]
    omega

/-- With room left, the map is what was inside the window and the counted event. -/
theorem mem_nextCounted_of_size_lt {e : String × Instant}
    (hroom : (nextCounted windowStart windowEnd fingerprint eventTime maxSize d).size < maxSize) :
    e ∈ (nextCounted windowStart windowEnd fingerprint eventTime maxSize d).entries ↔
      (e ∈ d.entries ∧ windowStart ≤ e.2 ∧ e.2 ≤ windowEnd) ∨
      (isCounted windowStart windowEnd fingerprint eventTime d = true ∧
        e = (fingerprint, eventTime)) := by
  have heq := Dict.greatest_eq_of_size_lt hroom
  rw [nextCounted, heq]
  by_cases hc : isCounted windowStart windowEnd fingerprint eventTime d = true
  · -- a counted fingerprint is not retained, so the insertion replaces nothing
    have hnew : ∀ e ∈ (retain windowStart windowEnd d).entries, e.1 ≠ fingerprint := by
      rintro ⟨f, v⟩ he rfl
      have hcont := Dict.contains_iff.mpr ⟨v, he⟩
      rw [(isCounted_iff.mp hc).2] at hcont
      cases hcont
    rw [if_pos hc, Dict.mem_insert, mem_retain]
    constructor
    · rintro (rfl | ⟨he, -⟩)
      · exact Or.inr ⟨hc, rfl⟩
      · exact Or.inl he
    · rintro (he | ⟨-, rfl⟩)
      · exact Or.inr ⟨he, hnew e (mem_retain.mpr he)⟩
      · exact Or.inl rfl
  · rw [if_neg hc, mem_retain]
    exact ⟨Or.inl, fun h => h.resolve_right fun hh => hc hh.1⟩

end NextCounted

/-! ### The objects of an input -/

/-- Nested loops over two strictly sorted lists come out in lexicographic order. -/
theorem strict_product {β γ : Type*} [LinearOrder γ] {key : β → γ} :
    ∀ {l : List String} {m : List β}, Strict id l → Strict key m →
      (l.flatMap fun h => m.map fun s => (h, s)).Pairwise
        (fun p q : String × β => (toLex (p.1, key p.2) : String ×ₗ γ) < toLex (q.1, key q.2))
  | [], _, _, _ => List.Pairwise.nil
  | h :: l, m, hl, hm => by
    obtain ⟨hh, hl⟩ := List.pairwise_cons.mp hl
    rw [List.flatMap_cons, List.pairwise_append]
    refine ⟨?_, strict_product hl hm, ?_⟩
    · refine List.pairwise_map.mpr (hm.imp fun hs => ?_)
      exact Prod.Lex.toLex_lt_toLex.mpr (Or.inr ⟨rfl, hs⟩)
    · intro p hp q hq
      obtain ⟨s, -, rfl⟩ := List.mem_map.mp hp
      obtain ⟨h', hh', hq⟩ := List.mem_flatMap.mp hq
      obtain ⟨s', -, rfl⟩ := List.mem_map.mp hq
      exact Prod.Lex.toLex_lt_toLex.mpr (Or.inl (hh h' hh'))

theorem servicesOrNone_strict (i : IncidentUpsertInput) :
    Strict (fun s : Option String => s.getD "") i.servicesOrNone := by
  unfold IncidentUpsertInput.servicesOrNone
  split_ifs with h
  · exact List.pairwise_singleton _ _
  · exact List.pairwise_map.mpr i.services_strict

/-- The objects of an input are the pairs of the two loops, in their order. -/
theorem activeObjectsFromInput_map {i : IncidentUpsertInput} {objs : List IncidentObject}
    (h : activeObjectsFromInput i = .ok objs) :
    objs.map (fun o => (o.val.host, o.val.service)) =
      i.affectedHosts.flatMap fun h => i.servicesOrNone.map fun s => (h, s) := by
  have key : ∀ {ps : List (String × Option String)} {objs : List IncidentObject},
      List.Forall₂ (fun p o => IncidentObject.validate p.1 p.2 = .ok o) ps objs →
        objs.map (fun o => (o.val.host, o.val.service)) = ps := by
    intro ps objs hall
    induction hall with
    | nil => rfl
    | cons hv _ ih =>
      rw [IncidentObject.validate_eq_ok] at hv
      rw [List.map_cons, ih, hv]
  exact key (mapM_eq_ok.mp h)

/-- An object of the input: a host with a service, or with none when there are no services. -/
theorem mem_activeObjectsFromInput {i : IncidentUpsertInput} {objs : List IncidentObject}
    (h : activeObjectsFromInput i = .ok objs) {o : IncidentObject} :
    o ∈ objs ↔ o.val.host ∈ i.affectedHosts ∧ o.val.service ∈ i.servicesOrNone := by
  have hinj : Function.Injective fun o : IncidentObject => (o.val.host, o.val.service) := by
    intro a b hab
    obtain ⟨hh, hs⟩ := Prod.mk.inj hab
    refine Checked.ext ?_
    cases hva : a.val with
    | mk ha sa =>
      cases hvb : b.val with
      | mk hb sb =>
        rw [hva, hvb] at hh hs
        obtain rfl : ha = hb := hh
        obtain rfl : sa = sb := hs
        rfl
  rw [← List.mem_map_of_injective hinj, activeObjectsFromInput_map h, List.mem_flatMap]
  constructor
  · rintro ⟨h', hh', hp⟩
    obtain ⟨s, hs, hp⟩ := List.mem_map.mp hp
    obtain ⟨rfl, rfl⟩ := Prod.mk.inj hp
    exact ⟨hh', hs⟩
  · rintro ⟨hh, hs⟩
    exact ⟨_, hh, List.mem_map.mpr ⟨_, hs, rfl⟩⟩

theorem activeObjectsFromInput_strict {i : IncidentUpsertInput} {objs : List IncidentObject}
    (h : activeObjectsFromInput i = .ok objs) : Strict IncidentObject.sortKey objs := by
  have hprod := strict_product i.hosts_strict (servicesOrNone_strict i)
  rw [← activeObjectsFromInput_map h, List.pairwise_map] at hprod
  exact hprod

theorem activeObjectsFromInput_ne_nil {i : IncidentUpsertInput} {objs : List IncidentObject}
    (h : activeObjectsFromInput i = .ok objs) : objs ≠ [] := by
  intro hnil
  have hlen := (mapM_eq_ok.mp h).length_eq
  rw [hnil, List.length_nil] at hlen
  obtain ⟨host, hhost⟩ := List.exists_mem_of_ne_nil _ i.hosts_ne
  have hserv : i.servicesOrNone ≠ [] := by
    unfold IncidentUpsertInput.servicesOrNone
    split_ifs with hs
    · simp
    · simpa using hs
  obtain ⟨s, hs⟩ := List.exists_mem_of_ne_nil _ hserv
  have hp := List.length_pos_of_mem
    (List.mem_flatMap.mpr ⟨host, hhost, List.mem_map.mpr ⟨s, hs, rfl⟩⟩ :
      (host, s) ∈ i.affectedHosts.flatMap fun h => i.servicesOrNone.map fun s => (h, s))
  omega

/-! ### The two window functions -/

/-- The state of a new incident. -/
theorem initialWindowState_eq_ok {i : IncidentUpsertInput} {s : IncidentWindowState}
    (h : initialWindowState i = .ok s) :
    ∃ objs start, activeObjectsFromInput i = .ok objs ∧
      i.eventTime.subSeconds i.windowSeconds = some start ∧
      s.val =
        { windowStartedAt := start
          windowEndedAt := i.eventTime
          windowSeconds := i.windowSeconds
          thresholdCount := i.thresholdCount
          countedFingerprintTimestamps := Dict.empty.insert i.fingerprint i.eventTime
          countedCount := 1
          maxSize := i.maxWindowFingerprints
          activeObjects := objs } := by
  obtain ⟨start, hstart, h₁⟩ := bind_eq_ok.mp h
  obtain ⟨objs, hobjs, h₂⟩ := bind_eq_ok.mp h₁
  rw [orThrow_eq_ok] at hstart
  rw [IncidentWindowState.validate_eq_ok] at h₂
  exact ⟨objs, start, hobjs, hstart, h₂⟩

/-- The later of the last update and the event. -/
def nextWindowEnd (existing : Incident) (i : IncidentUpsertInput) : Instant :=
  max existing.lastUpdateTime.val i.eventTime.instant

def nextWindowStart (existing : Incident) (i : IncidentUpsertInput) : Instant :=
  nextWindowEnd existing i - seconds i.windowSeconds

/-- The same window, as datetimes. -/
def nextWindowEndDatetime (existing : Incident) (i : IncidentUpsertInput) : Datetime :=
  existing.lastUpdateTime.toDatetime.later i.eventTime

theorem nextWindowEndDatetime_instant (existing : Incident) (i : IncidentUpsertInput) :
    (nextWindowEndDatetime existing i).instant = nextWindowEnd existing i := by
  rw [nextWindowEndDatetime, Datetime.later_instant, Timestamptz.toDatetime_instant, nextWindowEnd]

/-- The column of an input's incident gives back the instants it was loaded with. -/
theorem windowStateFromJson_instants (w : WindowStateJson) :
    (windowStateFromJson w).val.map Datetime.instant = w.val.map Timestamp.instant := by
  show WindowFields.map _ (WindowFields.map _ _) = _
  unfold WindowFields.map
  rw [Dict.map_map]
  rfl

section Datetimes

variable {windowStart windowEnd : Instant} {fingerprint : String} {eventTime : Datetime}
  {maxSize : ℕ} {d : Dict String Datetime}

theorem stillInside_instants : (stillInside windowStart windowEnd d).map Datetime.instant =
    retain windowStart windowEnd (d.map Datetime.instant) :=
  (Dict.map_filter fun e : String × Instant => insideWindow windowStart windowEnd e.2).symm

theorem stillInside_contains : (stillInside windowStart windowEnd d).contains fingerprint =
    (retain windowStart windowEnd (d.map Datetime.instant)).contains fingerprint := by
  rw [← stillInside_instants, Dict.contains_map]

/-- `nextCounted` on datetimes. -/
theorem nextCounted_instants :
    ((if insideWindow windowStart windowEnd eventTime.instant &&
          !(stillInside windowStart windowEnd d).contains fingerprint then
        (stillInside windowStart windowEnd d).insert fingerprint eventTime
      else stillInside windowStart windowEnd d).greatest
        (fun e => evictionRank (e.1, e.2.instant)) maxSize).map Datetime.instant =
      nextCounted windowStart windowEnd fingerprint eventTime.instant maxSize
        (d.map Datetime.instant) := by
  rw [Dict.map_greatest evictionRank, nextCounted, isCounted, stillInside_contains]
  split_ifs
  · rw [Dict.map_insert, stillInside_instants]
  · rw [stillInside_instants]

end Datetimes

/-- Everything `_next_window_state` computes. -/
structure NextWindow (existing : Incident) (i : IncidentUpsertInput) (w : WindowUpdate) : Prop where
  objects : ∃ objs, activeObjectsFromInput i = .ok objs ∧ w.state.val.activeObjects =
    sortedSet IncidentObject.sortKey (existing.windowState.val.activeObjects ++ objs)
  endedAt : w.state.val.windowEndedAt = nextWindowEndDatetime existing i
  startedAt : (nextWindowEndDatetime existing i).subSeconds i.windowSeconds =
    some w.state.val.windowStartedAt
  windowSeconds : w.state.val.windowSeconds = i.windowSeconds
  thresholdCount : w.state.val.thresholdCount = i.thresholdCount
  maxSize : w.state.val.maxSize = i.maxWindowFingerprints
  /-- A retained datetime is one read back, or the counted event's. -/
  read : ∀ e ∈ w.state.val.countedFingerprintTimestamps.entries,
    (∃ t, (e.1, t) ∈ existing.windowState.val.countedFingerprintTimestamps.entries ∧
      e.2 = t.toDatetime) ∨ (w.counted = true ∧ e = (i.fingerprint, i.eventTime))
  timestamps : w.state.val.countedFingerprintTimestamps.map Datetime.instant =
    nextCounted (nextWindowStart existing i) (nextWindowEnd existing i) i.fingerprint
      i.eventTime.instant i.maxWindowFingerprints existing.window.countedFingerprintTimestamps
  countedCount : w.state.val.countedCount = w.state.val.countedFingerprintTimestamps.size
  replay : w.replay = (retain (nextWindowStart existing i) (nextWindowEnd existing i)
    existing.window.countedFingerprintTimestamps).contains i.fingerprint
  insideWindow : w.insideWindow = decide (nextWindowStart existing i ≤ i.eventTime.instant)
  counted : w.counted = isCounted (nextWindowStart existing i) (nextWindowEnd existing i)
    i.fingerprint i.eventTime.instant existing.window.countedFingerprintTimestamps

theorem nextWindowState_eq_ok {existing : Incident} {i : IncidentUpsertInput} {w : WindowUpdate}
    (h : nextWindowState existing i = .ok w) : NextWindow existing i w := by
  obtain ⟨start, hstart, h₁⟩ := bind_eq_ok.mp h
  obtain ⟨objs, hobjs, h₂⟩ := bind_eq_ok.mp h₁
  obtain ⟨state, hstate, h₃⟩ := bind_eq_ok.mp h₂
  rw [orThrow_eq_ok] at hstart
  rw [IncidentWindowState.validate_eq_ok] at hstate
  have hend := nextWindowEndDatetime_instant existing i
  have hst : start.instant = nextWindowStart existing i := by
    rw [Datetime.subSeconds_instant hstart, ← nextWindowEndDatetime, hend, nextWindowStart]
  have hle : i.eventTime.instant ≤ nextWindowEnd existing i := le_max_right _ _
  have hwindow : (windowStateFromJson existing.windowState).val.countedFingerprintTimestamps.map
      Datetime.instant = existing.window.countedFingerprintTimestamps :=
    congrArg WindowFields.countedFingerprintTimestamps
      (windowStateFromJson_instants existing.windowState)
  cases h₃
  rw [← nextWindowEndDatetime, hend, hst] at hstate
  exact
    { objects := ⟨objs, hobjs, by rw [hstate]; rfl⟩
      endedAt := by rw [hstate]
      startedAt := by
        rw [hstate]
        exact hstart
      windowSeconds := by rw [hstate]
      thresholdCount := by rw [hstate]
      maxSize := by rw [hstate]
      read := by
        rw [hstate]
        intro e he
        have he := Dict.mem_of_mem_greatest he
        have hread : ∀ e ∈ (stillInside (nextWindowStart existing i) (nextWindowEnd existing i)
            (windowStateFromJson existing.windowState).val.countedFingerprintTimestamps).entries,
            ∃ t, (e.1, t) ∈ existing.windowState.val.countedFingerprintTimestamps.entries ∧
              e.2 = t.toDatetime := by
          intro e he
          obtain ⟨t, ht, heq⟩ := Dict.mem_map.mp (Dict.mem_filter.mp he).1
          exact ⟨t, ht, heq.symm⟩
        split_ifs at he with hc
        · rcases Dict.mem_insert.mp he with he | ⟨he, -⟩
          · refine Or.inr ⟨?_, he⟩
            show (Correlia.insideWindow start.instant (nextWindowEndDatetime existing i).instant _ &&
              !(stillInside start.instant (nextWindowEndDatetime existing i).instant _).contains _) = _
            rw [hend, hst]
            exact hc
          · exact Or.inl (hread e he)
        · exact Or.inl (hread e he)
      timestamps := by
        rw [hstate, ← hwindow]
        exact nextCounted_instants
      countedCount := by rw [hstate]
      replay := by
        show (stillInside start.instant (nextWindowEndDatetime existing i).instant _).contains _ = _
        rw [hend, hst, ← hwindow]
        exact stillInside_contains
      insideWindow := by
        show Correlia.insideWindow start.instant (nextWindowEndDatetime existing i).instant _ = _
        rw [hend, hst]
        unfold Correlia.insideWindow
        simp [hle]
      counted := by
        show (Correlia.insideWindow start.instant (nextWindowEndDatetime existing i).instant _ &&
          !(stillInside start.instant (nextWindowEndDatetime existing i).instant _).contains _) = _
        rw [hend, hst, isCounted, ← hwindow]
        exact congrArg _ (congrArg _ stillInside_contains) }

/-- The fingerprint of an input that can open an incident is short enough. -/
theorem initialWindowState_fingerprint {i : IncidentUpsertInput} {s : IncidentWindowState}
    (h : initialWindowState i = .ok s) : 1 ≤ i.fingerprint.length ∧ i.fingerprint.length ≤ 256 := by
  obtain ⟨objs, start, -, -, hval⟩ := initialWindowState_eq_ok h
  have hsound := WindowFields.errors_eq_nil.mp s.valid
  rw [hval] at hsound
  exact hsound.fingerprints (i.fingerprint, i.eventTime) (Dict.mem_insert.mpr (Or.inl rfl))

/-- An input that can open an incident has a next window state, if its window does not reach back
before the year 1. -/
theorem nextWindowState_ok {existing : Incident} {i : IncidentUpsertInput}
    {s : IncidentWindowState} (hinitial : initialWindowState i = .ok s)
    (hfit : i.windowSeconds * usPerSecond ≤ (nextWindowEndDatetime existing i).naive) :
    ∃ w, nextWindowState existing i = .ok w := by
  obtain ⟨start, hstart⟩ := Option.isSome_iff_exists.mp (Datetime.subSeconds_isSome.mpr hfit)
  have hfingerprint := initialWindowState_fingerprint hinitial
  obtain ⟨objs, -, hobjs, -⟩ := initialWindowState_eq_ok hinitial
  have hexisting := WindowFields.errors_eq_nil.mp (windowStateFromJson existing.windowState).valid
  unfold nextWindowState
  dsimp only
  rw [← nextWindowEndDatetime, orThrow_eq_ok.mpr hstart, ok_bind, hobjs, ok_bind]
  refine ⟨_, bind_eq_ok.mpr ⟨⟨_, WindowFields.errors_eq_nil.mpr ?_⟩,
    IncidentWindowState.validate_eq_ok.mpr rfl, rfl⟩⟩
  refine ⟨i.windowSeconds_pos, i.thresholdCount_pos, fun e he => ?_,
    Dict.size_greatest_le.trans i.max_le, ?_, i.max_le⟩
  · have he := Dict.mem_of_mem_greatest he
    split_ifs at he
    · rcases Dict.mem_insert.mp he with rfl | ⟨he, -⟩
      · exact hfingerprint
      · exact hexisting.fingerprints e (Dict.mem_filter.mp he).1
    · exact hexisting.fingerprints e (Dict.mem_filter.mp he).1
  · exact i.thresholdCount_pos.trans i.threshold_le

/-! ### What the column holds -/

/-- The column gives the state's instants back where every offset of the state is whole minutes. -/
theorem IncidentWindowState.dump_instants {s : IncidentWindowState}
    (hstart : s.val.windowStartedAt.WholeMinutes) (hend : s.val.windowEndedAt.WholeMinutes)
    (htimes : ∀ e ∈ s.val.countedFingerprintTimestamps.entries, e.2.WholeMinutes) :
    s.dump.val.map Timestamp.instant = s.val.map Datetime.instant := by
  show (s.val.map Datetime.dump).map Timestamp.instant = _
  unfold WindowFields.map
  dsimp only
  rw [Datetime.dump_instant hstart, Datetime.dump_instant hend, Dict.map_map,
    Dict.map_congr fun e he => Datetime.dump_instant (htimes e he)]

/-- An event whose UTC offset is whole minutes leaves a state that the column gives back. -/
theorem NextWindow.dump_instants {existing : Incident} {i : IncidentUpsertInput} {w : WindowUpdate}
    (h : NextWindow existing i w) (hwhole : i.eventTime.WholeMinutes) :
    w.state.dump.val.map Timestamp.instant = w.state.val.map Datetime.instant := by
  have hend : (nextWindowEndDatetime existing i).WholeMinutes := by
    unfold nextWindowEndDatetime Datetime.later
    split_ifs
    · exact hwhole
    · exact existing.lastUpdateTime.wholeMinutes
  refine IncidentWindowState.dump_instants ?_ (h.endedAt ▸ hend) fun e he => ?_
  · exact Datetime.wholeMinutes_of_offset hend (Datetime.subSeconds_offset h.startedAt)
  · rcases h.read e he with ⟨t, -, heq⟩ | ⟨-, rfl⟩
    · exact heq ▸ t.wholeMinutes_toDatetime
    · exact hwhole

end Correlia
