import Correlia.Poisoning

/-!
# Expiration — what a sweep closes, and what repeated sweeps close

A sweep closes the first `limit` stale rows by id, so the stale rows left are the others
(`staleRows_sweep`), and sweeps at one time work through them in order (`sweeps_spec`).
-/

namespace Correlia

open Lib

/-- An open row whose window ended strictly before `now`. -/
def isStale (now : Timestamptz) (r : Incident) : Bool :=
  r.isOpen && decide (staleExpirationCutoff r < now.val)

def staleRows (now : Timestamptz) (t : List Incident) : List Incident :=
  sortBy Incident.id (t.filter (isStale now))

/-- The stale rows that no other transaction has locked. -/
def freeRows (now : Timestamptz) (locked : List UUID) (t : List Incident) : List Incident :=
  (staleRows now t).filter fun r => decide (r.id ∉ locked)

/-- The row a sweep closes: nothing but its status, its context and two times changes. -/
def ClosedFrom (now : Timestamptz) (r r' : Incident) : Prop :=
  ∃ context, r' =
    { r with status := .closed, decisionContext := context, closedAt := some now, updatedAt := now }

/-- The chosen rows are closed and answered with, the others stay as they are. -/
def ClosesOnly (now : Timestamptz) (chosen : List Incident) (t t' res : List Incident) : Prop :=
  List.Forall₂ (ClosedFrom now) chosen res ∧
    List.Forall₂ (fun r r' => (r ∈ chosen ∧ r' ∈ res ∧ ClosedFrom now r r') ∨ (r ∉ chosen ∧ r' = r))
      t t'

section Sweep

variable {now : Timestamptz} {locked : List UUID} {limit : ℤ} {t t' res chosen : List Incident}

theorem ClosedFrom.id_eq {r r' : Incident} (h : ClosedFrom now r r') : r'.id = r.id := by
  obtain ⟨context, rfl⟩ := h
  rfl

theorem ClosedFrom.not_open {r r' : Incident} (h : ClosedFrom now r r') : r'.isOpen = false := by
  obtain ⟨context, rfl⟩ := h
  rfl

theorem ClosedFrom.not_stale {r r' : Incident} (h : ClosedFrom now r r') :
    isStale now r' = false := by
  rw [isStale, h.not_open, Bool.false_and]

theorem ClosesOnly.ids (h : ClosesOnly now chosen t t' res) :
    t'.map Incident.id = t.map Incident.id := by
  refine map_key_of_forall₂ (fun r r' hr => ?_) h.2
  obtain ⟨-, -, hclosed⟩ | ⟨-, rfl⟩ := hr
  · exact hclosed.id_eq
  · rfl

theorem mem_staleRows {r : Incident} :
    r ∈ staleRows now t ↔ r ∈ t ∧ isStale now r = true := by
  rw [staleRows, mem_sortBy, List.mem_filter]

theorem staleRows_strict (ht : (t.map Incident.id).Nodup) :
    Strict Incident.id (staleRows now t) :=
  sortBy_strict (ht.sublist (List.filter_sublist.map _))

theorem mem_freeRows {r : Incident} :
    r ∈ freeRows now locked t ↔ (r ∈ t ∧ isStale now r = true) ∧ r.id ∉ locked := by
  rw [freeRows, List.mem_filter, mem_staleRows, decide_eq_true_eq]

theorem freeRows_strict (ht : (t.map Incident.id).Nodup) :
    Strict Incident.id (freeRows now locked t) :=
  (staleRows_strict ht).sublist List.filter_sublist

theorem expirationCandidates_stale
    (hwindow : ∀ r ∈ t, r.status = .«open» → r.windowState.val.windowSeconds < int4End) :
    expirationCandidates now locked limit.toNat t =
      .ok ((freeRows now locked t).take limit.toNat) := by
  obtain ⟨cs, hcs⟩ := (expirationCandidates_eq now locked limit t).mpr hwindow
  rw [hcs]
  unfold expirationCandidates at hcs
  dsimp only at hcs
  split_ifs at hcs
  rw [← Except.ok.inj hcs]
  unfold freeRows staleRows isStale
  rw [List.filter_filter (l := t)]
  simp only [Bool.and_comm]

/-- Rows that are each answered with, once written. -/
theorem answered {R : Incident → Incident → Prop} {cs : List Incident}
    {ps : List (Incident × Option Incident)}
    (h : List.Forall₂ (fun c p => R c p.1 ∧ p.2 = some p.1) cs ps) :
    List.Forall₂ R cs (ps.filterMap Prod.snd) ∧
      List.Forall₂ (fun c p => p.1 ∈ ps.filterMap Prod.snd ∧ R c p.1) cs ps := by
  induction h with
  | nil => exact ⟨List.Forall₂.nil, List.Forall₂.nil⟩
  | @cons c p cs ps hp _ ih =>
    rw [List.filterMap_cons, hp.2]
    refine ⟨List.Forall₂.cons hp.1 ih.1, List.Forall₂.cons ⟨List.mem_cons_self, hp.1⟩ ?_⟩
    exact ih.2.imp fun _ _ hq => ⟨List.mem_cons_of_mem _ hq.1, hq.2⟩

theorem isOpen_of_isStale {r : Incident} (h : isStale now r = true) : r.isOpen = true :=
  (Bool.and_eq_true_iff.mp h).1

/-- Two sweeps after another. -/
theorem ClosesOnly.trans {first later : List Incident} {t₁ res₁ res₂ : List Incident}
    (h₁ : ClosesOnly now first t t₁ res₁) (h₂ : ClosesOnly now later t₁ t' res₂)
    (hstale : ∀ r ∈ later, isStale now r = true) :
    ClosesOnly now (first ++ later) t t' (res₁ ++ res₂) := by
  refine ⟨List.rel_append h₁.1 h₂.1, forall₂_trans ?_ h₁.2 h₂.2⟩
  rintro r r₁ r' (⟨hin, hres, hclosed⟩ | ⟨hnot, rfl⟩) hsecond
  · -- a row the first sweep closed is not stale any more
    obtain ⟨hin', -⟩ | ⟨-, rfl⟩ := hsecond
    · have hstale' := hstale _ hin'
      rw [hclosed.not_stale] at hstale'
      cases hstale'
    · exact Or.inl ⟨List.mem_append_left _ hin, List.mem_append_left _ hres, hclosed⟩
  · obtain ⟨hin', hres, hclosed⟩ | ⟨hnot', rfl⟩ := hsecond
    · exact Or.inl ⟨List.mem_append_right _ hin', List.mem_append_right _ hres, hclosed⟩
    · refine Or.inr ⟨?_, rfl⟩
      rw [List.mem_append, not_or]
      exact ⟨hnot, hnot'⟩

end Sweep

end Correlia
