import Correlia.Lib.Run

/-!
# Lib.Draining — runs that come to rest

Some of the calls of a store are work it has already taken on, and a rank falls with each of them.
Then a run of such calls commits at most as many as the rank, and some run of them comes to a state
in which none of them commits.
-/

namespace Lib

variable {σ ι ε ω : Type*} {step : ι → σ → Except ε (σ × ω)} {inner : ι → Bool} {rank : σ → ℕ}

/-- Every inner call that commits lowers the rank. -/
def Drains (step : ι → σ → Except ε (σ × ω)) (inner : ι → Bool) (rank : σ → ℕ) : Prop :=
  ∀ i s s' o, inner i = true → step i s = .ok (s', o) → rank s' < rank s

/-- No inner call commits. -/
def AtRest (step : ι → σ → Except ε (σ × ω)) (inner : ι → Bool) (s : σ) : Prop :=
  ∀ i, inner i = true → ∀ r, step i s ≠ .ok r

theorem Drains.log_length (h : Drains step inner rank) (s : σ) {is : List ι}
    (his : ∀ i ∈ is, inner i = true) :
    (log step s is).length + rank (run step s is) ≤ rank s := by
  induction is using List.reverseRecOn with
  | nil => simp
  | append_singleton is i ih =>
    have ih := ih fun j hj => his j (List.mem_append_left _ hj)
    cases hs : step i (run step s is) with
    | error e =>
      obtain ⟨hrun, hlog⟩ := run_concat_error hs
      rw [hrun, hlog]
      exact ih
    | ok r =>
      obtain ⟨hrun, hlog⟩ := run_concat_ok hs
      have hlt := h _ _ _ _ (his i (List.mem_append_right _ (List.mem_singleton_self i))) hs
      rw [hrun, hlog, List.length_append, List.length_singleton]
      omega

/-- The induction is on the rank. -/
theorem Drains.exists_atRest (h : Drains step inner rank) (s : σ) :
    ∃ is : List ι, (∀ i ∈ is, inner i = true) ∧ AtRest step inner (run step s is) := by
  induction hn : rank s using Nat.strong_induction_on generalizing s with
  | _ n ih =>
    by_cases hrest : AtRest step inner s
    · exact ⟨[], List.forall_mem_nil _, hrest⟩
    · simp only [AtRest, not_forall, not_not] at hrest
      obtain ⟨i, hi, ⟨s', o⟩, hs⟩ := hrest
      have hone : run step s ([] ++ [i]) = s' := (run_concat_ok hs).1
      obtain ⟨is, his, hat⟩ := ih (rank s') (hn ▸ h i s s' o hi hs) s' rfl
      refine ⟨i :: is, List.forall_mem_cons.mpr ⟨hi, his⟩, ?_⟩
      rw [show i :: is = ([] ++ [i]) ++ is from rfl, (run_append ([] ++ [i]) is).1, hone]
      exact hat

end Lib
