import Mathlib

/-!
# Lib.Occurrences — the items of a list, told apart by counting

`occurrences l` gives each item of `l` the number of equal items before it.  The pairs are
distinct, and those of an item are numbered from zero up to its count.
-/

namespace Lib

variable {α : Type*} [DecidableEq α]

/-- The items, each with the number of equal ones before it, `before` counted in. -/
def occurrencesAfter (before : List α) : List α → List (α × ℕ)
  | [] => []
  | a :: l => (a, before.count a) :: occurrencesAfter (a :: before) l

def occurrences (l : List α) : List (α × ℕ) := occurrencesAfter [] l

theorem mem_occurrencesAfter {before l : List α} {a : α} {k : ℕ} :
    (a, k) ∈ occurrencesAfter before l ↔
      before.count a ≤ k ∧ k < before.count a + l.count a := by
  induction l generalizing before with
  | nil => simp [occurrencesAfter]
  | cons b l ih =>
    rw [occurrencesAfter, List.mem_cons, ih, Prod.mk.injEq, List.count_cons, List.count_cons]
    by_cases h : b = a
    · subst h
      simp only [beq_self_eq_true, if_true, true_and]
      omega
    · have hne : ¬ a = b := fun heq => h heq.symm
      simp only [beq_iff_eq, h, hne, if_false, false_and, false_or, Nat.add_zero]

theorem occurrencesAfter_nodup (before l : List α) : (occurrencesAfter before l).Nodup := by
  induction l generalizing before with
  | nil => exact List.nodup_nil
  | cons a l ih =>
    refine List.nodup_cons.mpr ⟨fun h => ?_, ih _⟩
    have hle := (mem_occurrencesAfter.mp h).1
    rw [List.count_cons_self] at hle
    omega

theorem mem_occurrences {l : List α} {a : α} {k : ℕ} : (a, k) ∈ occurrences l ↔ k < l.count a := by
  simp [occurrences, mem_occurrencesAfter]

theorem occurrences_nodup (l : List α) : (occurrences l).Nodup := occurrencesAfter_nodup [] l

/-! ### Names made of occurrences -/

/-- A name that keeps an item's first occurrence as it is, and tells the later ones apart. -/
structure Numbering (name : α → ℕ → α) : Prop where
  zero : ∀ a, name a 0 = a
  inj : ∀ a b j k, 0 < j → 0 < k → name a j = name b k → a = b ∧ j = k

/-- **Names by counting** are distinct if and only if no item is the name of a later occurrence. -/
theorem Numbering.nodup_iff {name : α → ℕ → α} (h : Numbering name) (l : List α) :
    ((occurrences l).map fun e => name e.1 e.2).Nodup ↔
      ∀ a k, 1 ≤ k → k < l.count a → name a k ∉ l := by
  rw [List.nodup_map_iff_inj_on (occurrences_nodup l)]
  constructor
  · intro hinj a k hk hcount hmem
    have hfirst : (name a k, 0) ∈ occurrences l :=
      mem_occurrences.mpr (List.count_pos_iff.mpr hmem)
    have heq := hinj _ hfirst _ (mem_occurrences.mpr hcount) (h.zero _)
    have := congrArg Prod.snd heq
    dsimp only at this
    omega
  · intro hapart
    rintro ⟨a, j⟩ ha ⟨b, k⟩ hb heq
    rw [mem_occurrences] at ha hb
    dsimp only at heq
    rcases Nat.eq_zero_or_pos j with rfl | hj
    · rcases Nat.eq_zero_or_pos k with rfl | hk
      · rw [h.zero, h.zero] at heq
        rw [heq]
      · rw [h.zero] at heq
        exact absurd (heq ▸ List.count_pos_iff.mp ha) (hapart b k hk hb)
    · rcases Nat.eq_zero_or_pos k with rfl | hk
      · rw [h.zero] at heq
        exact absurd (heq ▸ List.count_pos_iff.mp hb) (hapart a j hj ha)
      · obtain ⟨rfl, rfl⟩ := h.inj a b j k hj hk heq
        rfl

end Lib
