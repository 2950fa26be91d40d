import Correlia.Lib.Run

/-!
# Lib.Unwinding — runs from which calls can be taken out

Some calls count and some do not.  `R` relates states that are alike to the calls that count, and
`view` is the part of an answer that is looked at.  When a call that does not count leaves a state
alike to what it was, and one that counts is answered alike from states that are alike, the calls
that do not count can be taken out of every run: the states stay alike, and so do the answers of the
calls that count.
-/

namespace Lib

variable {σ ι ε ω ν : Type*}

/-- The conditions, for calls that are admitted. -/
structure Unwinds (step : ι → σ → Except ε (σ × ω)) (admitted : ι → Prop) (counts : ι → Bool)
    (view : ω → ν) (R : σ → σ → Prop) : Prop where
  hidden : ∀ i s t s' o, admitted i → counts i = false → R s t → step i s = .ok (s', o) → R s' t
  ok : ∀ i s t s' o, admitted i → counts i = true → R s t → step i s = .ok (s', o) →
    ∃ t' o', step i t = .ok (t', o') ∧ R s' t' ∧ view o = view o'
  error : ∀ i s t e, admitted i → counts i = true → R s t → step i s = .error e →
    ∃ e', step i t = .error e'

/-- The calls of a log, with what is looked at of their answers. -/
def viewed (view : ω → ν) (l : List (ι × ω)) : List (ι × ν) := l.map fun c => (c.1, view c.2)

theorem viewed_append (view : ω → ν) (l l' : List (ι × ω)) :
    viewed view (l ++ l') = viewed view l ++ viewed view l' :=
  List.map_append

variable {step : ι → σ → Except ε (σ × ω)} {admitted : ι → Prop} {counts : ι → Bool}
  {view : ω → ν} {R : σ → σ → Prop} {s t : σ}

/-- **Unwinding.** -/
theorem Unwinds.run_filter (h : Unwinds step admitted counts view R) (hR : R s t) {is : List ι}
    (his : ∀ i ∈ is, admitted i) :
    R (run step s is) (run step t (is.filter counts)) ∧
      viewed view ((log step s is).filter fun c => counts c.1) =
        viewed view (log step t (is.filter counts)) := by
  induction is using List.reverseRecOn with
  | nil => exact ⟨hR, rfl⟩
  | append_singleton is i ih =>
    obtain ⟨hstates, hlogs⟩ := ih fun j hj => his j (List.mem_append_left _ hj)
    have hi := his i (by simp)
    rw [List.filter_append]
    cases hcounts : counts i with
    | false =>
      have hnone : [i].filter counts = [] := by simp [hcounts]
      rw [hnone, List.append_nil]
      cases hstep : step i (run step s is) with
      | ok p =>
        obtain ⟨s', o⟩ := p
        obtain ⟨hrun, hlog⟩ := run_concat_ok hstep
        rw [hrun, hlog, List.filter_append, viewed_append, hlogs]
        refine ⟨h.hidden i _ _ s' o hi hcounts hstates hstep, ?_⟩
        simp [hcounts, viewed]
      | error e =>
        obtain ⟨hrun, hlog⟩ := run_concat_error hstep
        rw [hrun, hlog]
        exact ⟨hstates, hlogs⟩
    | true =>
      have hone : [i].filter counts = [i] := by simp [hcounts]
      rw [hone]
      cases hstep : step i (run step s is) with
      | ok p =>
        obtain ⟨s', o⟩ := p
        obtain ⟨t', o', hstep', hR', hview⟩ := h.ok i _ _ s' o hi hcounts hstates hstep
        obtain ⟨hrun, hlog⟩ := run_concat_ok hstep
        obtain ⟨hrun', hlog'⟩ := run_concat_ok hstep'
        rw [hrun, hlog, hrun', hlog', List.filter_append, viewed_append, viewed_append, hlogs]
        refine ⟨hR', ?_⟩
        simp [hcounts, viewed, hview]
      | error e =>
        obtain ⟨e', hstep'⟩ := h.error i _ _ e hi hcounts hstates hstep
        obtain ⟨hrun, hlog⟩ := run_concat_error hstep
        obtain ⟨hrun', hlog'⟩ := run_concat_error hstep'
        rw [hrun, hlog, hrun', hlog']
        exact ⟨hstates, hlogs⟩

end Lib
