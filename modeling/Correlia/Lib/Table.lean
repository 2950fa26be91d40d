import Correlia.Lib.Model

/-!
# Lib.Table — tables of rows with a primary key

`updateWhere p f t` is `UPDATE t SET f WHERE p`, `returning` the rows it answers with.  When keys
are distinct, an update by the key of a row of the table answers with exactly that row
(`returning_key`).  What a call does to a table is told row by row (`List.Forall₂`).
-/

namespace Lib

variable {ρ κ : Type*}

/-- `UPDATE … SET f WHERE p`. -/
def updateWhere (p : ρ → Bool) (f : ρ → ρ) (t : List ρ) : List ρ :=
  t.map fun r => if p r then f r else r

/-- `… RETURNING *`. -/
def returning (p : ρ → Bool) (f : ρ → ρ) (t : List ρ) : List ρ := (t.filter p).map f

/-- What an update does row by row. -/
theorem updateWhere_forall₂ {p : ρ → Bool} {f : ρ → ρ} {R : ρ → ρ → Prop} (t : List ρ)
    (h : ∀ r ∈ t, R r (if p r then f r else r)) : List.Forall₂ R t (updateWhere p f t) := by
  rw [updateWhere, List.forall₂_map_right_iff, List.forall₂_same]
  exact h

/-- The row with the key of a row of the table is that row. -/
theorem eq_of_key {key : ρ → κ} {t : List ρ} (hk : (t.map key).Nodup) {r c : ρ} (hr : r ∈ t)
    (hc : c ∈ t) (h : key r = key c) : r = c := List.inj_on_of_nodup_map hk hr hc h

theorem filter_key [DecidableEq κ] {key : ρ → κ} {t : List ρ} (hk : (t.map key).Nodup) {c : ρ}
    (hc : c ∈ t) {g : ρ → Bool} (hg : g c = true) :
    t.filter (fun r => decide (key r = key c) && g r) = [c] := by
  have hmem : ∀ r, r ∈ t.filter (fun r => decide (key r = key c) && g r) ↔ r ∈ [c] := by
    intro r
    rw [List.mem_filter, List.mem_singleton, Bool.and_eq_true, decide_eq_true_eq]
    constructor
    · rintro ⟨hr, h, -⟩
      exact eq_of_key hk hr hc h
    · rintro rfl
      exact ⟨hc, rfl, hg⟩
  have hnd : (t.filter (fun r => decide (key r = key c) && g r)).Nodup := hk.of_map.filter _
  have hperm := (List.perm_ext_iff_of_nodup hnd (List.nodup_singleton c)).mpr hmem
  exact List.perm_singleton.mp hperm

/-- An update by the key of a row of the table answers with that row, updated. -/
theorem returning_key [DecidableEq κ] {key : ρ → κ} {t : List ρ} (hk : (t.map key).Nodup) {c : ρ}
    (hc : c ∈ t) {g : ρ → Bool} (hg : g c = true) (f : ρ → ρ) :
    returning (fun r => decide (key r = key c) && g r) f t = [f c] := by
  rw [returning, filter_key hk hc hg, List.map_singleton]

theorem map_key_of_forall₂ {key : ρ → κ} {R : ρ → ρ → Prop} (hR : ∀ r r', R r r' → key r' = key r)
    {t t' : List ρ} (h : List.Forall₂ R t t') : t'.map key = t.map key := by
  induction h with
  | nil => rfl
  | cons h _ ih => rw [List.map_cons, List.map_cons, hR _ _ h, ih]

/-- A row after an update is an untouched one, or an updated one. -/
theorem mem_updateWhere_cases {p : ρ → Bool} {f : ρ → ρ} {t : List ρ} {r' : ρ}
    (h : r' ∈ updateWhere p f t) : (r' ∈ t ∧ p r' = false) ∨ ∃ r ∈ t, p r = true ∧ r' = f r := by
  obtain ⟨r, hr, rfl⟩ := List.mem_map.mp h
  by_cases hp : p r = true
  · rw [if_pos hp]
    exact Or.inr ⟨r, hr, hp, rfl⟩
  · rw [if_neg hp]
    exact Or.inl ⟨hr, Bool.eq_false_of_not_eq_true hp⟩

/-! ### Row-by-row changes -/

/-- Composition of row-by-row changes. -/
theorem forall₂_trans {R S T : ρ → ρ → Prop} (hT : ∀ a b c, R a b → S b c → T a c)
    {t₁ t₂ t₃ : List ρ} (h : List.Forall₂ R t₁ t₂) (h' : List.Forall₂ S t₂ t₃) :
    List.Forall₂ T t₁ t₃ := by
  induction h generalizing t₃ with
  | nil =>
    cases h'
    exact List.Forall₂.nil
  | cons h _ ih =>
    cases h' with
    | cons h' hs' => exact List.Forall₂.cons (hT _ _ _ h h') (ih hs')

/-- Strengthening a row-by-row change by membership in the table before. -/
theorem forall₂_mem {R : ρ → ρ → Prop} {t t' : List ρ} (h : List.Forall₂ R t t') :
    List.Forall₂ (fun r r' => r ∈ t ∧ R r r') t t' := by
  induction h with
  | nil => exact List.Forall₂.nil
  | cons h _ ih =>
    exact List.Forall₂.cons ⟨List.mem_cons_self, h⟩
      (ih.imp fun _ _ ⟨hm, hr⟩ => ⟨List.mem_cons_of_mem _ hm, hr⟩)

theorem exists_of_forall₂_right {α β : Type*} {R : α → β → Prop} {t : List α} {t' : List β}
    (h : List.Forall₂ R t t') {r' : β} (hr : r' ∈ t') : ∃ r ∈ t, R r r' := by
  induction h with
  | nil => simp at hr
  | cons h _ ih =>
    rcases List.mem_cons.mp hr with rfl | hr
    · exact ⟨_, List.mem_cons_self, h⟩
    · obtain ⟨r, hm, hR⟩ := ih hr
      exact ⟨r, List.mem_cons_of_mem _ hm, hR⟩

theorem exists_of_forall₂_left {α β : Type*} {R : α → β → Prop} {t : List α} {t' : List β}
    (h : List.Forall₂ R t t') {r : α} (hr : r ∈ t) : ∃ r' ∈ t', R r r' := by
  induction h with
  | nil => simp at hr
  | cons h _ ih =>
    rcases List.mem_cons.mp hr with rfl | hr
    · exact ⟨_, List.mem_cons_self, h⟩
    · obtain ⟨r', hm, hR⟩ := ih hr
      exact ⟨r', List.mem_cons_of_mem _ hm, hR⟩

/-! ### Loops over selected rows -/

/-- The table with the row of this key replaced. -/
def setRow [DecidableEq κ] (key : ρ → κ) (c : ρ) (t : List ρ) : List ρ :=
  updateWhere (fun r => decide (key r = key c)) (fun _ => c) t

/-- A loop over selected rows: each iteration may write to the table and may answer. -/
def forEachRow {ρ ε ω : Type} (body : ρ → List ρ → Except ε (List ρ × Option ω)) :
    List ρ → List ρ → Except ε (List ρ × List ω)
  | [], t => .ok (t, [])
  | c :: cs, t => do
    let (t, o) ← body c t
    let (t, os) ← forEachRow body cs t
    return (t, o.toList ++ os)

theorem setRow_map_key [DecidableEq κ] {key : ρ → κ} (c : ρ) (t : List ρ) :
    (setRow key c t).map key = t.map key := by
  rw [setRow, updateWhere, List.map_map]
  refine List.map_congr_left fun r _ => ?_
  by_cases h : key r = key c <;> simp [h]

theorem mem_setRow_of_ne [DecidableEq κ] {key : ρ → κ} {c r : ρ} {t : List ρ} (hr : r ∈ t)
    (h : key r ≠ key c) : r ∈ setRow key c t := by
  refine List.mem_map.mpr ⟨r, hr, ?_⟩
  simp [h]

section Loop

variable {ρ ε ω κ : Type} [DecidableEq κ] (key : ρ → κ)
  {body : ρ → List ρ → Except ε (List ρ × Option ω)} {g : ρ → Except ε (ρ × Option ω)}

/-- The table and the answers a loop ends with, from the rows it has computed. -/
def writeBack (key : ρ → κ) (ps : List (ρ × Option ω)) (t : List ρ) : List ρ × List ω :=
  (ps.foldl (fun t p => setRow key p.1 t) t, ps.filterMap Prod.snd)

/-- **Loop rule**: when an iteration computes its row from the selected one and puts it back, the
loop computes every row from the table as it was before the loop. -/
theorem forEachRow_eq :
    ∀ (cs t : List ρ),
      (∀ c ∈ cs, ∀ t, c ∈ t → (t.map key).Nodup →
        body c t = (g c).map fun p => (setRow key p.1 t, p.2)) →
      (∀ c ∈ cs, ∀ p, g c = .ok p → key p.1 = key c) →
      (∀ c ∈ cs, c ∈ t) → (cs.map key).Nodup → (t.map key).Nodup →
      forEachRow body cs t = (cs.mapM g).map fun ps => writeBack key ps t
  | [], t, _, _, _, _, _ => rfl
  | c :: cs, t, hbody, hkey, hcs, hnd, ht => by
    rw [List.map_cons, List.nodup_cons] at hnd
    rw [forEachRow, hbody c List.mem_cons_self t (hcs c List.mem_cons_self) ht, List.mapM_cons]
    cases hg : g c with
    | error e => rfl
    | ok p =>
      have hp : key p.1 = key c := hkey c List.mem_cons_self p hg
      have hcs' : ∀ d ∈ cs, d ∈ setRow key p.1 t := by
        intro d hd
        refine mem_setRow_of_ne (hcs d (List.mem_cons_of_mem _ hd)) ?_
        rw [hp]
        exact fun e => hnd.1 (e ▸ List.mem_map_of_mem hd)
      have ih := forEachRow_eq cs (setRow key p.1 t)
        (fun d hd => hbody d (List.mem_cons_of_mem _ hd))
        (fun d hd => hkey d (List.mem_cons_of_mem _ hd)) hcs' hnd.2 (by rwa [setRow_map_key])
      show (do let (t, os) ← forEachRow body cs (setRow key p.1 t); pure (t, p.2.toList ++ os)) = _
      rw [ih]
      cases hm : cs.mapM g with
      | error e => rfl
      | ok ps =>
        have hos : p.2.toList ++ ps.filterMap Prod.snd = (p :: ps).filterMap Prod.snd := by
          rw [List.filterMap_cons]
          cases p.2 <;> rfl
        show Except.ok (_, p.2.toList ++ ps.filterMap Prod.snd) = Except.ok (_, _)
        rw [hos]
        rfl

/-- What writing back a list of rows does, row by row. -/
theorem writeBack_forall₂ {R : ρ → ρ → Prop} :
    ∀ {cs : List ρ} {ps : List (ρ × Option ω)} {t : List ρ},
      List.Forall₂ (fun c p => key p.1 = key c ∧ R c p.1) cs ps → (∀ c ∈ cs, c ∈ t) →
      (cs.map key).Nodup → (t.map key).Nodup →
      List.Forall₂ (fun r r' => (r ∈ cs ∧ R r r') ∨ (r ∉ cs ∧ r' = r)) t
        (writeBack key ps t).1
  | [], _, t, h, _, _, _ => by
    cases h
    exact List.forall₂_same.mpr fun r _ => Or.inr ⟨by simp, rfl⟩
  | c :: cs, _, t, h, hcs, hnd, ht => by
    cases h with
    | @cons _ p _ ps hp hps =>
      rw [List.map_cons, List.nodup_cons] at hnd
      have hcs' : ∀ d ∈ cs, d ∈ setRow key p.1 t := by
        intro d hd
        refine mem_setRow_of_ne (hcs d (List.mem_cons_of_mem _ hd)) ?_
        rw [hp.1]
        exact fun e => hnd.1 (e ▸ List.mem_map_of_mem hd)
      have ih := writeBack_forall₂ hps hcs' hnd.2 (by rwa [setRow_map_key])
      have hfirst : List.Forall₂ (fun r r' => r ∈ t ∧ r' = if key r = key c then p.1 else r) t
          (setRow key p.1 t) := by
        refine updateWhere_forall₂ t fun r hr => ⟨hr, ?_⟩
        simp [hp.1]
      refine forall₂_trans ?_ hfirst ih
      rintro r r₁ r' ⟨hr, rfl⟩ h2
      have hct : c ∈ t := hcs c List.mem_cons_self
      by_cases hrc : key r = key c
      · -- the row of this iteration; no later one has its key
        have hrc' : r = c := eq_of_key ht hr hct hrc
        subst hrc'
        rw [if_pos rfl] at h2
        have hnot : p.1 ∉ cs := fun hin => hnd.1 (hp.1 ▸ List.mem_map_of_mem hin)
        rcases h2 with ⟨hin, -⟩ | ⟨-, rfl⟩
        · exact absurd hin hnot
        · exact Or.inl ⟨List.mem_cons_self, hp.2⟩
      · rw [if_neg hrc] at h2
        have hne : r ≠ c := fun e => hrc (e ▸ rfl)
        rcases h2 with ⟨hin, hR⟩ | ⟨hnot, rfl⟩
        · exact Or.inl ⟨List.mem_cons_of_mem _ hin, hR⟩
        · refine Or.inr ⟨?_, rfl⟩
          rw [List.mem_cons, not_or]
          exact ⟨hne, hnot⟩

end Loop

/-! ### Counting rows -/

section Counting

variable {p : ρ → Bool} {t t' : List ρ}

theorem countP_rows (h : List.Forall₂ (fun r r' => p r' = p r) t t') :
    t'.countP p = t.countP p := by
  induction h with
  | nil => rfl
  | cons h _ ih => rw [List.countP_cons, List.countP_cons, ih, h]

theorem countP_rows_le (h : List.Forall₂ (fun r r' => p r = true → p r' = true) t t') :
    t.countP p ≤ t'.countP p := by
  induction h with
  | nil => exact le_rfl
  | @cons r r' _ _ h _ ih =>
    rw [List.countP_cons, List.countP_cons]
    by_cases hr : p r = true
    · rw [if_pos hr, if_pos (h hr)]
      omega
    · rw [if_neg hr]
      omega

/-- When chosen rows come to be counted and no others, the count grows by their number. -/
theorem countP_chosen {chosen : List ρ} (ht : t.Nodup) (hchosen : chosen.Nodup) (hsub : chosen ⊆ t)
    (h : List.Forall₂ (fun r r' => (r ∈ chosen ∧ p r = false ∧ p r' = true) ∨
      (r ∉ chosen ∧ p r' = p r)) t t') : t'.countP p = t.countP p + chosen.length := by
  classical
  have hcount : t'.countP p = t.countP p + t.countP fun r => decide (r ∈ chosen) := by
    clear ht hsub
    induction h with
    | nil => rfl
    | @cons r r' _ _ h _ ih =>
      rw [List.countP_cons, List.countP_cons, List.countP_cons, ih]
      rcases h with ⟨hin, hold, hnew⟩ | ⟨hnot, hsame⟩
      · have hold : ¬p r = true := by simp [hold]
        rw [if_pos hnew, if_neg hold, if_pos (decide_eq_true hin)]
        omega
      · have hout : ¬decide (r ∈ chosen) = true := by simpa using hnot
        rw [hsame, if_neg hout]
        omega
  have hperm : (t.filter fun r => decide (r ∈ chosen)).Perm chosen := by
    refine (List.perm_ext_iff_of_nodup (ht.filter _) hchosen).mpr fun r => ?_
    rw [List.mem_filter, decide_eq_true_eq]
    exact ⟨And.right, fun hr => ⟨hsub hr, hr⟩⟩
  rw [hcount, List.countP_eq_length_filter (p := fun r => decide (r ∈ chosen)), hperm.length_eq]

end Counting

end Lib
