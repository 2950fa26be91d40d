import Correlia.Crossing

/-!
# Lifetimes — one open incident a key, and terminal incidents are frozen

`Later r r'` relates a row to what it is at a later time: a status moves only from OPEN to a
terminal one, and a terminal row changes only in its delivery records and in two columns the
delivery write touches.
-/

namespace Correlia

open Lib

/-! ### One open row a key -/

def OneOpenPerKey (t : List Incident) : Prop :=
  ∀ r ∈ t, ∀ r' ∈ t, r.status = .«open» → r'.status = .«open» → r.key = r'.key → r = r'

/-! ### A row and its later versions -/

/-- Everything but `decision_context`, `notified_at` and `updated_at` is as it was, and the context
differs in its delivery records alone, up to the model's defaults. -/
structure FrozenSince (r r' : Incident) : Prop where
  columns : r' = { r with
    decisionContext := r'.decisionContext, notifiedAt := r'.notifiedAt, updatedAt := r'.updatedAt }
  context : r'.decisionContext.fill = { r.decisionContext.fill with
    notificationDeliveryResults := r'.decisionContext.fill.notificationDeliveryResults }

structure Later (r r' : Incident) : Prop where
  key : r'.key = r.key
  status : r'.status = r.status ∨ r.status = .«open» ∧ (r'.status = .resolved ∨ r'.status = .closed)
  frozen : r.status ≠ .«open» → FrozenSince r r'

theorem FrozenSince.refl (r : Incident) : FrozenSince r r := ⟨rfl, rfl⟩

theorem FrozenSince.trans {a b c : Incident} (h : FrozenSince a b) (h' : FrozenSince b c) :
    FrozenSince a c := by
  constructor
  · have hb := h.columns
    have hc := h'.columns
    rw [hb] at hc
    exact hc
  · rw [h'.context, h.context]

theorem Later.refl (r : Incident) : Later r r := ⟨rfl, Or.inl rfl, fun _ => FrozenSince.refl r⟩

/-- A change of an open row that keeps its key and leaves it open or terminal. -/
theorem Later.of_open {r r' : Incident} (hopen : r.status = .«open») (hkey : r'.key = r.key) :
    Later r r' := by
  refine ⟨hkey, ?_, fun h => absurd hopen h⟩
  cases hs : r'.status with
  | «open» => exact Or.inl hopen.symm
  | resolved => exact Or.inr ⟨hopen, Or.inl rfl⟩
  | closed => exact Or.inr ⟨hopen, Or.inr rfl⟩

theorem Later.trans {a b c : Incident} (h : Later a b) (h' : Later b c) : Later a c := by
  by_cases hopen : a.status = .«open»
  · exact Later.of_open hopen (h'.key.trans h.key)
  · have hab : b.status = a.status := h.status.resolve_right fun hh => hopen hh.1
    have hb : b.status ≠ .«open» := hab ▸ hopen
    have hbc : c.status = b.status := h'.status.resolve_right fun hh => hb hh.1
    exact ⟨h'.key.trans h.key, Or.inl (hbc.trans hab),
      fun _ => (h.frozen hopen).trans (h'.frozen hb)⟩

theorem RowChange.later {op : Op} {r r' : Incident} (h : RowChange op r r') : Later r r' := by
  cases h with
  | same => exact Later.refl r
  | merged _ hm =>
    cases hm with
    | intro _ _ hopen => exact Later.of_open hopen rfl
  | recovered _ hopen => exact Later.of_open hopen (SameCounting.recovered _ _ _ r).key
  | acknowledged _ hopen => exact Later.of_open hopen rfl
  | closed _ hopen => exact Later.of_open hopen rfl
  | notified _ _ hfill =>
    -- the one write that does not look at the status
    refine ⟨rfl, Or.inl rfl, fun _ => ⟨rfl, ?_⟩⟩
    simp only [notifiedIncident, hfill]

theorem step_oneOpenPerKey {op : Op} {t t' : List Incident} {o : Answer}
    (ht : (t.map Incident.id).Nodup) (ih : OneOpenPerKey t) (h : step op t = .ok (t', o)) :
    OneOpenPerKey t' := by
  have ht' := step_ids_nodup ht h
  rcases step_effect ht h with hrows | ⟨p, x, -, hfresh, rfl⟩
  · intro r₁ hr₁ r₂ hr₂ ho₁ ho₂ hkey
    obtain ⟨s₁, hs₁, hc₁⟩ := exists_of_forall₂_right hrows hr₁
    obtain ⟨s₂, hs₂, hc₂⟩ := exists_of_forall₂_right hrows hr₂
    -- an open row was open before
    have hback : ∀ {s r : Incident}, Later s r → r.status = .«open» → s.status = .«open» := by
      intro s r hl ho
      rcases hl.status with hs | ⟨hs, -⟩
      · exact hs.symm.trans ho
      · exact hs
    have heq : s₁ = s₂ := ih s₁ hs₁ s₂ hs₂ (hback hc₁.later ho₁) (hback hc₂.later ho₂)
      (hc₁.later.key.symm.trans (hkey.trans hc₂.later.key))
    exact eq_of_key ht' hr₁ hr₂ (hc₁.id_eq.trans (heq ▸ hc₂.id_eq.symm))
  · have hxkey : x.key = p.input.key := by
      obtain ⟨_, _, _, _, _, rfl⟩ := hfresh.made
      rfl
    intro r₁ hr₁ r₂ hr₂ ho₁ ho₂ hkey
    rcases List.mem_append.mp hr₁ with hr₁ | hr₁
    · rcases List.mem_append.mp hr₂ with hr₂ | hr₂
      · exact ih r₁ hr₁ r₂ hr₂ ho₁ ho₂ hkey
      · rw [List.mem_singleton.mp hr₂] at hkey
        exact absurd ⟨ho₁, hkey.trans hxkey⟩ (hfresh.key_free r₁ hr₁)
    · rcases List.mem_append.mp hr₂ with hr₂ | hr₂
      · rw [List.mem_singleton.mp hr₁] at hkey
        exact absurd ⟨ho₂, hkey.symm.trans hxkey⟩ (hfresh.key_free r₂ hr₂)
      · rw [List.mem_singleton.mp hr₁, List.mem_singleton.mp hr₂]

theorem oneOpenPerKey (ops : List Op) : OneOpenPerKey (tableAfter ops) :=
  history_induction (R := fun _ t => OneOpenPerKey t) (by simp [OneOpenPerKey])
    (fun before _ _ _ ih h => step_oneOpenPerKey (ids_nodup before) ih h) ops

/-! ### Stamps -/

/-- The terminal timestamps are set exactly when the status says so. -/
structure Stamped (r : Incident) : Prop where
  resolved : r.resolvedAt.isSome = true ↔ r.status = .resolved
  closed : r.closedAt.isSome = true ↔ r.status = .closed

theorem Fresh.stamped {p : ProblemCall} {t : List Incident} {r : Incident} (h : Fresh p t r) :
    Stamped r := by
  obtain ⟨_, _, _, _, _, rfl⟩ := h.made
  exact ⟨by simp [freshIncident], by simp [freshIncident]⟩

theorem RowChange.stamped {op : Op} {r r' : Incident} (hr : Stamped r) (h : RowChange op r r') :
    Stamped r' := by
  cases h with
  | same => exact hr
  | merged _ hm =>
    cases hm
    exact ⟨hr.resolved, hr.closed⟩
  | recovered _ hopen =>
    unfold recoveredIncident
    split_ifs
    · have hnot : r.closedAt.isSome ≠ true := fun h => by
        rw [hr.closed, hopen] at h
        cases h
      exact ⟨by simp [resolvedIncident], by simpa [resolvedIncident] using hnot⟩
    · exact ⟨hr.resolved, hr.closed⟩
  | acknowledged => exact ⟨hr.resolved, hr.closed⟩
  | closed _ hopen =>
    have hnot : r.resolvedAt.isSome ≠ true := fun h => by
      rw [hr.resolved, hopen] at h
      cases h
    exact ⟨by simpa [closedIncident] using hnot, by simp [closedIncident]⟩
  | notified => exact ⟨hr.resolved, hr.closed⟩

/-! ### A fresh lifetime -/

/-- A row that starts a lifetime: all it holds is the input's. -/
structure FreshLifetime (p : ProblemCall) (r : Incident) : Prop where
  key : r.key = p.input.key
  status : r.status = .«open»
  eventCount : r.eventCount = 1
  timestamps : r.windowState.val.countedFingerprintTimestamps.entries =
    [(p.input.fingerprint, p.input.eventTime.dump)]
  objects : activeObjectsFromInput p.input = .ok r.windowState.val.activeObjects
  crossed : r.thresholdCrossed = decide (p.input.thresholdCount ≤ 1)
  deliveries : r.decisionContext.fill.notificationDeliveryResults = p.input.deliveries
  notifiedAt : r.notifiedAt = none
  acknowledgement : r.acknowledgedAt = none ∧ r.acknowledgedBy = none

theorem Fresh.lifetime {p : ProblemCall} {t : List Incident} {r : Incident} (h : Fresh p t r) :
    FreshLifetime p r := by
  have hdeliv := h.deliveries
  obtain ⟨_, state, context, hstate, _, rfl⟩ := h.made
  obtain ⟨objs, start, hobjs, -, hval⟩ := initialWindowState_eq_ok hstate
  refine ⟨rfl, rfl, rfl, ?_, ?_, ?_, hdeliv, rfl, rfl, rfl⟩
  · show (state.val.countedFingerprintTimestamps.map Datetime.dump).entries = _
    rw [hval]
    rfl
  · show _ = Except.ok state.val.activeObjects
    rw [hval]
    exact hobjs
  · show decide (p.input.thresholdCount ≤ state.val.countedCount) = _
    rw [hval]

/-! ### The whole lifetime -/

/-- The answer to an operator call on a row that is not open. -/
def noopAnswer (r : Incident) : Answer :=
  .operated (some ⟨r, .noop, none, (activeObjectCounts r.windowState.val.activeObjects).1,
    (activeObjectCounts r.windowState.val.activeObjects).2, false⟩)

/-- With distinct ids, no open row shares the id of a terminal one. -/
theorem no_open_of_terminal {t : List Incident} (ht : (t.map Incident.id).Nodup) {r : Incident}
    (hr : r ∈ t) (hterm : r.status ≠ .«open») : ∀ x ∈ t, x.id = r.id → x.status ≠ .«open» :=
  fun _ hx hid => eq_of_key ht hx hr hid ▸ hterm

/-- **Lifetimes.**  In every run: at most one OPEN row a key; the terminal timestamps match the
status; a row is in every later table, its status moved at most from OPEN to RESOLVED or CLOSED,
and frozen from then on but for its delivery records; acknowledging or closing a terminal row is a
no-op; and a problem for a key without an OPEN row starts a fresh lifetime. -/
theorem lifetimes (ops : List Op) :
    OneOpenPerKey (tableAfter ops) ∧
    (∀ r ∈ tableAfter ops, Stamped r) ∧
    (∀ more, ∀ r ∈ tableAfter ops, ∃ r' ∈ tableAfter (ops ++ more), r'.id = r.id ∧ Later r r') ∧
    (∀ r ∈ tableAfter ops, r.status ≠ .«open» →
      (∀ now operator, step (.ack now r.id operator) (tableAfter ops) =
        .ok (tableAfter ops, noopAnswer r)) ∧
      ∀ now operator reason, step (.close now r.id operator reason) (tableAfter ops) =
        .ok (tableAfter ops, noopAnswer r)) ∧
    ∀ op p t' o, op.problem = some p →
      (∀ r ∈ tableAfter ops, r.key = p.input.key → r.status ≠ .«open») →
      step op (tableAfter ops) = .ok (t', o) →
      ∃ r, t' = tableAfter ops ++ [r] ∧ FreshLifetime p r := by
  have ht := ids_nodup ops
  refine ⟨oneOpenPerKey ops, ?_, ?_, ?_, ?_⟩
  · exact row_invariant (fun _ _ _ h => h.stamped) (fun _ _ _ hr h => h.stamped hr) ops
  · exact fun more => row_between Later.refl (fun _ _ _ _ hQ h => hQ.trans h.later) ops more
  · intro r hr hterm
    have hnone := no_open_of_terminal ht hr hterm
    have hnoop := noopResult_of_mem ht hr
    constructor
    · intro now operator
      rw [step, ackOpenIncident_noop hnone, hnoop]
      rfl
    · intro now operator reason
      rw [step, closeOpenIncident_noop hnone, hnoop]
      rfl
  · intro op p t' o hop hno h
    obtain ⟨out, -, heff⟩ := step_problem ht hop h
    cases heff with
    | inserted r hfresh => exact ⟨r, rfl, hfresh.lifetime⟩
    | merged r w r' hmem hm =>
      cases hm with
      | intro _ _ hopen hkey => exact absurd hopen (hno r hmem hkey)

/-- The sample incident is resolved, frozen while its key opens a new incident, and answers an
acknowledgement with a no-op. -/
theorem lifetimes_sampleRun : ∃ r ∈ tableAfter sampleRun, r.status = .resolved ∧
    (∃ r' ∈ tableAfter (sampleRun ++ sampleProblem "cpu" 20 2 60), r'.id = r.id ∧
      FrozenSince r r') ∧
    step (.ack (sampleTime 30) r.id "op") (tableAfter sampleRun) =
      .ok (tableAfter sampleRun, noopAnswer r) := by
  have hmem := List.get_mem (tableAfter sampleRun) ⟨0, sampleRun_row⟩
  have hres : ((tableAfter sampleRun).get ⟨0, sampleRun_row⟩).status = .resolved := by decide
  have hterm : ((tableAfter sampleRun).get ⟨0, sampleRun_row⟩).status ≠ .«open» := by decide
  obtain ⟨-, -, hlater, hnoop, -⟩ := lifetimes sampleRun
  obtain ⟨r', hr', hid, hl⟩ := hlater (sampleProblem "cpu" 20 2 60) _ hmem
  exact ⟨_, hmem, hres, ⟨r', hr', hid, hl.frozen hterm⟩, (hnoop _ hmem hterm).1 _ _⟩

end Correlia
