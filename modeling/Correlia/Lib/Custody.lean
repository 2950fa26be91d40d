import Mathlib.Algebra.BigOperators.Group.List.Basic
import Mathlib.Algebra.GroupWithZero.Nat
import Mathlib.Algebra.Order.Group.Multiset
import Mathlib.Data.List.Perm.Basic
import Mathlib.Data.Multiset.UnionInter

/-!
# Lib.Custody — items that are handed on until they are settled

Items are issued, are held in some places, and are settled each with an end; `held` is the multiset
of what is in any place, so handing an item from one place to another changes nothing here.  Where
what is issued is what is held or settled (`Conserved`), items issued once are settled at most once,
and exactly once when nothing is held any more.  Where items may also be given up (`Within`), they
are still settled at most once.
-/

namespace Lib

/-- What has been issued, what is held, and what has been settled and how. -/
structure Custody (κ ε : Type*) where
  issued : List κ
  held : Multiset κ
  settled : List (κ × ε)

namespace Custody

variable {κ ε : Type*}

/-- Every item issued is held or settled, and nothing else is. -/
def Conserved (c : Custody κ ε) : Prop :=
  (c.issued : Multiset κ) = c.held + ↑(c.settled.map Prod.fst)

/-- What is held or settled has been issued for it. -/
def Within (c : Custody κ ε) : Prop :=
  c.held + ↑(c.settled.map Prod.fst) ≤ (c.issued : Multiset κ)

/-- `c'` has issued `ks` and settled `es` since `c`. -/
structure Moves (c c' : Custody κ ε) (ks : List κ) (es : List (κ × ε)) : Prop where
  issued : c'.issued = c.issued ++ ks
  settled : c'.settled = c.settled ++ es
  held : c'.held + ↑(es.map Prod.fst) = c.held + (ks : Multiset κ)

/-- The same, where items may have been given up. -/
structure Discards (c c' : Custody κ ε) (ks : List κ) (es : List (κ × ε)) : Prop where
  issued : c'.issued = c.issued ++ ks
  settled : c'.settled = c.settled ++ es
  held : c'.held + ↑(es.map Prod.fst) ≤ c.held + (ks : Multiset κ)

variable {c c' : Custody κ ε} {ks : List κ} {es : List (κ × ε)}

theorem Moves.conserved (h : Moves c c' ks es) (hc : c.Conserved) : c'.Conserved := by
  unfold Conserved at hc ⊢
  calc (c'.issued : Multiset κ)
      = (c.held + ↑ks) + ↑(c.settled.map Prod.fst) := by
        rw [h.issued, ← Multiset.coe_add, hc, add_right_comm]
    _ = c'.held + (↑(c.settled.map Prod.fst) + ↑(es.map Prod.fst)) := by
        rw [← h.held, add_assoc, add_comm (Multiset.ofList (es.map Prod.fst))]
    _ = c'.held + ↑(c'.settled.map Prod.fst) := by
        rw [h.settled, List.map_append, Multiset.coe_add]

theorem Discards.within (h : Discards c c' ks es) (hc : c.Within) : c'.Within := by
  unfold Within at hc ⊢
  calc c'.held + ↑(c'.settled.map Prod.fst)
      = (c'.held + ↑(es.map Prod.fst)) + ↑(c.settled.map Prod.fst) := by
        rw [h.settled, List.map_append, ← Multiset.coe_add, add_assoc,
          add_comm (Multiset.ofList (es.map Prod.fst))]
    _ ≤ (c.held + ↑ks) + ↑(c.settled.map Prod.fst) := by
        exact Multiset.add_le_add_right h.held
    _ = (c.held + ↑(c.settled.map Prod.fst)) + ↑ks := add_right_comm _ _ _
    _ ≤ (c.issued : Multiset κ) + ↑ks := Multiset.add_le_add_right hc
    _ = (c'.issued : Multiset κ) := by rw [h.issued, Multiset.coe_add]

theorem Conserved.mem_issued_iff (h : c.Conserved) {k : κ} :
    k ∈ c.issued ↔ k ∈ c.held ∨ ∃ e, (k, e) ∈ c.settled := by
  rw [← Multiset.mem_coe, show (c.issued : Multiset κ) = _ from h, Multiset.mem_add,
    Multiset.mem_coe]
  simp

/-- What is issued once is settled at most once, and not while it is held. -/
theorem Within.once (h : c.Within) (hissued : c.issued.Nodup) :
    c.held.Nodup ∧ (c.settled.map Prod.fst).Nodup ∧ ∀ k ∈ c.held, ∀ e, (k, e) ∉ c.settled := by
  have hnodup : (c.held + ↑(c.settled.map Prod.fst)).Nodup :=
    Multiset.nodup_of_le h (Multiset.coe_nodup.mpr hissued)
  obtain ⟨hheld, hsettled, hdisjoint⟩ := Multiset.nodup_add.mp hnodup
  refine ⟨hheld, Multiset.coe_nodup.mp hsettled, fun k hk e he => ?_⟩
  exact Multiset.disjoint_left.mp hdisjoint hk (Multiset.mem_coe.mpr (List.mem_map_of_mem he))

theorem Conserved.within (h : c.Conserved) : c.Within := le_of_eq (Eq.symm h)

theorem eq_of_settled (h : (c.settled.map Prod.fst).Nodup) {k : κ} {e e' : ε}
    (he : (k, e) ∈ c.settled) (he' : (k, e') ∈ c.settled) : e = e' :=
  (Prod.mk.inj (List.inj_on_of_nodup_map h he he' rfl)).2

/-- When nothing is held, every item has one end. -/
theorem Conserved.all_settled (h : c.Conserved) (hissued : c.issued.Nodup) (hheld : c.held = 0)
    {k : κ} (hk : k ∈ c.issued) : ∃! e, (k, e) ∈ c.settled := by
  rcases h.mem_issued_iff.mp hk with hk | ⟨e, he⟩
  · rw [hheld] at hk
    exact absurd hk (Multiset.notMem_zero k)
  · exact ⟨e, he, fun e' he' => eq_of_settled (h.within.once hissued).2.1 he' he⟩

end Custody

/-! ### Places -/

namespace Place

variable {α κ : Type*} {l : List α} {a : α} {i : ℕ} {f : α → List κ}

/-- What the entries of a place hold. -/
def holding (f : α → List κ) (l : List α) : Multiset κ := (l.flatMap f : List κ)

theorem holding_append (l l' : List α) : holding f (l ++ l') = holding f l + holding f l' := by
  simp [holding]

@[simp] theorem holding_nil : holding f [] = 0 := rfl

@[simp] theorem holding_single (a : α) : holding f [a] = (f a : Multiset κ) := by
  simp [holding]

/-- An entry taken out. -/
theorem holding_eraseIdx (h : l[i]? = some a) :
    holding f l = (f a : Multiset κ) + holding f (l.eraseIdx i) := by
  obtain ⟨hi, rfl⟩ := List.getElem?_eq_some_iff.mp h
  have hperm := (List.getElem_cons_eraseIdx_perm hi).flatMap_right f
  rw [holding, ← Multiset.coe_eq_coe.mpr hperm, List.flatMap_cons, ← Multiset.coe_add]
  rfl

/-- An entry replaced. -/
theorem holding_set (h : l[i]? = some a) (b : α) :
    (f a : Multiset κ) + holding f (l.set i b) = (f b : Multiset κ) + holding f l := by
  obtain ⟨hi, -⟩ := List.getElem?_eq_some_iff.mp h
  have hperm := (List.set_perm_cons_eraseIdx hi b).flatMap_right f
  have hset : holding f (l.set i b) = (f b : Multiset κ) + holding f (l.eraseIdx i) := by
    rw [holding, Multiset.coe_eq_coe.mpr hperm, List.flatMap_cons, ← Multiset.coe_add]
    rfl
  rw [hset, holding_eraseIdx h, add_left_comm]

/-- An entry replaced by one that holds the same. -/
theorem holding_set_same (h : l[i]? = some a) {b : α} (hb : f b = f a) :
    holding f (l.set i b) = holding f l := by
  have hset := holding_set (f := f) h b
  rw [hb] at hset
  exact add_left_cancel hset

/-! A weight of the entries. -/

/-- What the entries weigh together. -/
def total (f : α → ℕ) (l : List α) : ℕ := (l.map f).sum

variable {w : α → ℕ}

theorem total_append (l l' : List α) : total w (l ++ l') = total w l + total w l' := by
  simp [total]

@[simp] theorem total_nil : total w [] = 0 := rfl

@[simp] theorem total_single (a : α) : total w [a] = w a := by
  simp [total]

theorem total_eraseIdx (h : l[i]? = some a) : total w l = w a + total w (l.eraseIdx i) := by
  obtain ⟨hi, rfl⟩ := List.getElem?_eq_some_iff.mp h
  have hsum := ((List.getElem_cons_eraseIdx_perm hi).map w).sum_eq
  rw [List.map_cons, List.sum_cons] at hsum
  exact hsum.symm

theorem total_set (h : l[i]? = some a) (b : α) : w a + total w (l.set i b) = w b + total w l := by
  obtain ⟨hi, -⟩ := List.getElem?_eq_some_iff.mp h
  have hsum := ((List.set_perm_cons_eraseIdx hi b).map w).sum_eq
  rw [List.map_cons, List.sum_cons] at hsum
  rw [total_eraseIdx h, show total w (l.set i b) = w b + total w (l.eraseIdx i) from hsum]
  exact Nat.add_left_comm _ _ _

end Place

end Lib
