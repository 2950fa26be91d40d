import Correlia.Api.Health

/-!
# Readiness — what the log tells of the probes

A process logs a check only when its state changes, and at first only when it is not ready.  So the
lines of a check never repeat, and tell its state as far as the answers depend on it.
-/

namespace Correlia

open Lib

/-! ### The output plugins -/

/-- An output category is configured when it has a plugin, and ready when all its plugins are. -/
theorem readinessStates_eq (entries : List (PluginRegistryEntry × StatusReport)) :
    readinessStates entries =
      if entries.any fun e => e.2.all fun status => !status.ready then .notReady
      else if entries = [] then .notConfigured
      else .ready := by
  induction entries using List.reverseRecOn with
  | nil => rfl
  | append_singleton entries e ih =>
    unfold readinessStates at ih ⊢
    rw [List.foldl_append, List.foldl_cons, List.foldl_nil, ih, List.any_append]
    have hcategory : ¬pluginCategory e.1 ≠ .email := not_not.mpr e.1.category
    cases hfailed : entries.any fun e => e.2.all fun status => !status.ready with
    | true => simp
    | false =>
      cases hreport : e.2.all fun status => !status.ready with
      | true => cases entries <;> simp_all
      | false => cases entries <;> simp_all

/-! ### The lines of a check -/

/-- The states that lines tell of a check. -/
def linesAbout (k : ReadinessCheck) (lines : List ReadinessLine) : List ReadinessState :=
  lines.filterMap fun line => if line.category = some k then some line.state else none

theorem linesAbout_append (k : ReadinessCheck) (lines lines' : List ReadinessLine) :
    linesAbout k (lines ++ lines') = linesAbout k lines ++ linesAbout k lines' :=
  List.filterMap_append

theorem linesAbout_cons (k : ReadinessCheck) (line : ReadinessLine) (lines : List ReadinessLine) :
    linesAbout k (line :: lines) =
      (if line.category = some k then [line.state] else []) ++ linesAbout k lines := by
  unfold linesAbout
  rw [List.filterMap_cons]
  split_ifs <;> rfl

theorem mem_readinessCheckKeys (k : ReadinessCheck) : k ∈ readinessCheckKeys := by
  cases k <;> decide

/-- The lines about a check, of lines for some of the checks. -/
theorem linesAbout_snapshot (p : Probe) (keep : ReadinessCheck × ReadinessState → Bool)
    (k : ReadinessCheck) :
    linesAbout k ((p.snapshot.filter keep).map fun e => ⟨some e.1, e.2⟩) =
      if keep (k, p.state k) then [p.state k] else [] := by
  have hkeys : ∀ l : List ReadinessCheck, l.Nodup →
      linesAbout k (((l.map fun k => (k, p.state k)).filter keep).map fun e => ⟨some e.1, e.2⟩) =
        if k ∈ l ∧ keep (k, p.state k) then [p.state k] else [] := by
    intro l hl
    induction l with
    | nil => simp [linesAbout]
    | cons k' l ih =>
      obtain ⟨hnot, hl⟩ := List.nodup_cons.mp hl
      have ih := ih hl
      by_cases hkeep : keep (k', p.state k') = true
      · simp only [List.map_cons, List.filter_cons_of_pos hkeep, linesAbout_cons, ih]
        by_cases hk : k' = k
        · subst hk
          simp [hnot, hkeep]
        · simp [hk, Ne.symm hk]
      · simp only [List.map_cons, List.filter_cons_of_neg hkeep, ih]
        by_cases hk : k' = k
        · subst hk
          simp [hnot, hkeep]
        · simp [Ne.symm hk]
  have hall := hkeys readinessCheckKeys (by decide)
  simp only [mem_readinessCheckKeys, true_and] at hall
  exact hall

/-- The first probe tells of the checks that are not ready. -/
theorem linesAbout_first (p : Probe) (k : ReadinessCheck) :
    linesAbout k (transitionLines none p.snapshot) =
      if p.state k = .notReady then [.notReady] else [] := by
  have hlines := linesAbout_snapshot p (fun e => decide (e.2 = .notReady)) k
  simp only [decide_eq_true_eq] at hlines
  unfold transitionLines
  dsimp only
  split_ifs with hfailures hk hk
  · rw [hlines, if_pos hk, hk]
  · rw [hlines, if_neg hk]
  · have hmem : (k, p.state k) ∈ p.snapshot.filter fun e => decide (e.2 = .notReady) :=
      List.mem_filter.mpr ⟨List.mem_map_of_mem (mem_readinessCheckKeys k), decide_eq_true hk⟩
    rw [not_not.mp hfailures] at hmem
    exact absurd hmem List.not_mem_nil
  · rfl

theorem getItem_snapshot (q : Probe) (k : ReadinessCheck) :
    getItem k q.snapshot = some (q.state k) := by
  cases k <;> rfl

/-- A later probe tells of the checks that have changed. -/
theorem linesAbout_later (p q : Probe) (k : ReadinessCheck) :
    linesAbout k (transitionLines (some q.snapshot) p.snapshot) =
      if q.state k = p.state k then [] else [p.state k] := by
  have hlines := linesAbout_snapshot p (fun e => decide (getItem e.1 q.snapshot ≠ some e.2)) k
  refine hlines.trans ?_
  rw [getItem_snapshot]
  by_cases h : q.state k = p.state k
  · simp [h]
  · simp [h]

/-! ### Runs of probes -/

/-- What the log tells after its probes, the last of which was `p`. -/
structure ReadinessLog.Tells (log : ReadinessLog) (probes : List Probe) (p : Probe) : Prop where
  snapshot : log.snapshot = some p.snapshot
  last : ∀ k state, (linesAbout k log.lines).getLast? = some state → state = p.state k
  silent : ∀ k, linesAbout k log.lines = [] →
    p.state k ≠ .notReady ∧ ∀ q ∈ probes, q.state k = p.state k
  chain : ∀ k, (linesAbout k log.lines).IsChain (· ≠ ·)

theorem tells_first (p : Probe) : (readyz p {}).1.Tells [p] p := by
  have hlog : (readyz p {}).1 = ⟨some p.snapshot, [] ++ transitionLines none p.snapshot⟩ := rfl
  have hlines : ∀ k, linesAbout k (readyz p {}).1.lines =
      if p.state k = .notReady then [.notReady] else [] := fun k => linesAbout_first p k
  refine ⟨rfl, fun k state h => ?_, fun k h => ?_, fun k => ?_⟩
  · rw [hlines] at h
    split_ifs at h with hk
    · exact (Option.some.inj h).symm.trans hk.symm
    · cases h
  · rw [hlines] at h
    split_ifs at h with hk
    refine ⟨hk, fun q hq => ?_⟩
    rw [List.mem_singleton.mp hq]
  · rw [hlines]
    split_ifs <;> simp

theorem ReadinessLog.Tells.next {log : ReadinessLog} {probes : List Probe} {q : Probe}
    (h : log.Tells probes q) (p : Probe) : (readyz p log).1.Tells (probes ++ [p]) p := by
  have hlines : ∀ k, linesAbout k (readyz p log).1.lines =
      linesAbout k log.lines ++ if q.state k = p.state k then [] else [p.state k] := by
    intro k
    show linesAbout k (recordReadinessTransitions p.snapshot log).lines = _
    unfold recordReadinessTransitions
    split_ifs with hsame hk hk
    · exact (List.append_nil _).symm
    · rw [h.snapshot] at hsame
      have hitem := getItem_snapshot q k
      rw [Option.some.inj hsame, getItem_snapshot] at hitem
      exact absurd (Option.some.inj hitem).symm hk
    · rw [linesAbout_append, h.snapshot, linesAbout_later, if_pos hk]
    · rw [linesAbout_append, h.snapshot, linesAbout_later, if_neg hk]
  refine ⟨?_, fun k state hlast => ?_, fun k hnone => ?_, fun k => ?_⟩
  · show (recordReadinessTransitions p.snapshot log).snapshot = _
    unfold recordReadinessTransitions
    split_ifs with hsame
    · exact hsame
    · rfl
  · rw [hlines] at hlast
    split_ifs at hlast with hk
    · rw [List.append_nil] at hlast
      exact (h.last k state hlast).trans hk
    · rw [List.getLast?_append] at hlast
      exact (Option.some.inj hlast).symm
  · rw [hlines] at hnone
    split_ifs at hnone with hk
    · rw [List.append_nil] at hnone
      obtain ⟨hready, hall⟩ := h.silent k hnone
      rw [hk] at hready hall
      refine ⟨hready, fun q' hq' => ?_⟩
      rcases List.mem_append.mp hq' with hq' | hq'
      · exact hall q' hq'
      · rw [List.mem_singleton.mp hq']
    · exact absurd hnone (by simp)
  · rw [hlines]
    split_ifs with hk
    · rw [List.append_nil]
      exact h.chain k
    · refine List.isChain_append.mpr ⟨h.chain k, List.isChain_singleton _, ?_⟩
      intro state hstate state' hhead
      rw [h.last k state hstate]
      have heq : p.state k = state' := Option.some.inj hhead
      rw [← heq]
      exact hk

theorem readinessLogAfter_tells (probes : List Probe) (p : Probe) :
    (readinessLogAfter (probes ++ [p])).Tells (probes ++ [p]) p := by
  induction probes using List.reverseRecOn generalizing p with
  | nil => exact tells_first p
  | append_singleton probes q ih =>
    have hlog : readinessLogAfter (probes ++ [q] ++ [p]) =
        (readyz p (readinessLogAfter (probes ++ [q]))).1 := by
      unfold readinessLogAfter
      rw [List.foldl_append, List.foldl_cons, List.foldl_nil]
    rw [hlog]
    exact (ih q).next p

/-- **The log tells.**  After any probes of a process: the last one was answered 503 exactly if some
check's last line says that it is not ready; the last line about a check tells its state; a check
without a line has been in one state in every probe, and never not ready; and no two lines about a
check that follow each other are the same. -/
theorem readiness_log_tells (probes : List Probe) (p : Probe) :
    ((readyz p (readinessLogAfter probes)).2.1 = 503 ↔
      ∃ k, (linesAbout k (readinessLogAfter (probes ++ [p])).lines).getLast? = some .notReady) ∧
    (∀ k state, (linesAbout k (readinessLogAfter (probes ++ [p])).lines).getLast? = some state →
      state = p.state k) ∧
    (∀ k, linesAbout k (readinessLogAfter (probes ++ [p])).lines = [] →
      p.state k ≠ .notReady ∧ ∀ q ∈ probes, q.state k = p.state k) ∧
    ∀ k, (linesAbout k (readinessLogAfter (probes ++ [p])).lines).IsChain (· ≠ ·) := by
  have h := readinessLogAfter_tells probes p
  refine ⟨?_, h.last, fun k hk => ?_, h.chain⟩
  · have hcode : (readyz p (readinessLogAfter probes)).2.1 = 503 ↔ ∃ k, p.state k = .notReady := by
      show (if _ then 503 else 200) = 503 ↔ _
      split_ifs with hany
      · obtain ⟨k, -, hk⟩ := List.any_eq_true.mp hany
        exact iff_of_true rfl ⟨k, of_decide_eq_true hk⟩
      · refine iff_of_false (by decide) ?_
        rintro ⟨k, hk⟩
        exact hany (List.any_eq_true.mpr ⟨k, mem_readinessCheckKeys k, decide_eq_true hk⟩)
    rw [hcode]
    constructor
    · rintro ⟨k, hk⟩
      cases hlast : (linesAbout k (readinessLogAfter (probes ++ [p])).lines).getLast? with
      | none => exact absurd hk (h.silent k (List.getLast?_eq_none_iff.mp hlast)).1
      | some state => exact ⟨k, by rw [hlast, h.last k state hlast, hk]⟩
    · rintro ⟨k, hk⟩
      exact ⟨k, (h.last k _ hk).symm⟩
  · obtain ⟨hready, hall⟩ := h.silent k hk
    exact ⟨hready, fun q hq => hall q (List.mem_append_left _ hq)⟩

end Correlia
