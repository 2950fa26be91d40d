import Correlia.Lib.Model

/-!
# Lib.Run — runs of a transactional store

A store is changed by calls that either commit a new state with an answer or fail and leave it as
it was.  `run` is the state after a list of calls, `log` the calls that committed, each with its
answer, in order.  Rule of use: a relation between the log so far and the state, true at the start
and kept by every committing call, holds after every run (`run_induction`).
-/

namespace Lib

variable {σ ι ε ω : Type*}

/-- One call of the run: a failed call leaves no trace. -/
def advance (step : ι → σ → Except ε (σ × ω)) (p : σ × List (ι × ω)) (i : ι) :
    σ × List (ι × ω) :=
  match step i p.1 with
  | .ok (s', o) => (s', p.2 ++ [(i, o)])
  | .error _ => p

def runFrom (step : ι → σ → Except ε (σ × ω)) (s : σ) (is : List ι) : σ × List (ι × ω) :=
  is.foldl (advance step) (s, [])

/-- The state after a run. -/
def run (step : ι → σ → Except ε (σ × ω)) (s : σ) (is : List ι) : σ := (runFrom step s is).1

/-- The calls of a run that committed, with their answers. -/
def log (step : ι → σ → Except ε (σ × ω)) (s : σ) (is : List ι) : List (ι × ω) :=
  (runFrom step s is).2

variable {step : ι → σ → Except ε (σ × ω)} {s : σ}

@[simp] theorem run_nil : run step s [] = s := rfl

@[simp] theorem log_nil : log step s [] = [] := rfl

theorem runFrom_concat (is : List ι) (i : ι) :
    runFrom step s (is ++ [i]) = advance step (runFrom step s is) i := by
  simp [runFrom, List.foldl_append]

theorem run_concat_ok {is : List ι} {i : ι} {s' : σ} {o : ω}
    (h : step i (run step s is) = .ok (s', o)) :
    run step s (is ++ [i]) = s' ∧ log step s (is ++ [i]) = log step s is ++ [(i, o)] := by
  unfold run log at *
  rw [runFrom_concat]
  unfold advance
  rw [h]
  exact ⟨rfl, rfl⟩

theorem run_concat_error {is : List ι} {i : ι} {e : ε}
    (h : step i (run step s is) = .error e) :
    run step s (is ++ [i]) = run step s is ∧ log step s (is ++ [i]) = log step s is := by
  unfold run log at *
  rw [runFrom_concat]
  unfold advance
  rw [h]
  exact ⟨rfl, rfl⟩

/-- **Run induction**: what holds at the start and is kept by every call that commits after a run,
of which anything known of runs may be used. -/
theorem run_induction {R : List (ι × ω) → σ → Prop} (h0 : R [] s)
    (hstep : ∀ is i s' o, R (log step s is) (run step s is) → step i (run step s is) = .ok (s', o) →
      R (log step s is ++ [(i, o)]) s')
    (is : List ι) : R (log step s is) (run step s is) := by
  induction is using List.reverseRecOn with
  | nil => exact h0
  | append_singleton is i ih =>
    cases h : step i (run step s is) with
    | error e =>
      obtain ⟨h1, h2⟩ := run_concat_error h
      rw [h1, h2]
      exact ih
    | ok p =>
      obtain ⟨h1, h2⟩ := run_concat_ok h
      rw [h1, h2]
      exact hstep _ _ _ _ ih h

/-- The rule for a property of the state alone. -/
theorem run_invariant {P : σ → Prop} (h0 : P s)
    (hstep : ∀ s i s' o, P s → step i s = .ok (s', o) → P s') (is : List ι) :
    P (run step s is) :=
  run_induction (R := fun _ s => P s) h0 (fun _ _ _ _ h hs => hstep _ _ _ _ h hs) is

/-- A committed call is a call of the run. -/
theorem mem_of_mem_log {is : List ι} {c : ι × ω} (h : c ∈ log step s is) : c.1 ∈ is := by
  induction is using List.reverseRecOn with
  | nil => simp at h
  | append_singleton is i ih =>
    cases hs : step i (run step s is) with
    | error e =>
      rw [(run_concat_error hs).2] at h
      exact List.mem_append_left _ (ih h)
    | ok p =>
      rw [(run_concat_ok hs).2] at h
      rcases List.mem_append.mp h with h | h
      · exact List.mem_append_left _ (ih h)
      · rw [List.mem_singleton.mp h]
        simp

theorem run_append (is js : List ι) :
    run step s (is ++ js) = run step (run step s is) js ∧
      log step s (is ++ js) = log step s is ++ log step (run step s is) js := by
  induction js using List.reverseRecOn with
  | nil => simp
  | append_singleton js j ih =>
    rw [← List.append_assoc]
    obtain ⟨ih1, ih2⟩ := ih
    cases h : step j (run step (run step s is) js) with
    | error e =>
      obtain ⟨h1, h2⟩ := run_concat_error h
      obtain ⟨h3, h4⟩ := run_concat_error (ih1 ▸ h : step j (run step s (is ++ js)) = _)
      rw [h1, h2, h3, h4]
      exact ⟨ih1, ih2⟩
    | ok p =>
      obtain ⟨h1, h2⟩ := run_concat_ok h
      obtain ⟨h3, h4⟩ := run_concat_ok (ih1 ▸ h : step j (run step s (is ++ js)) = _)
      rw [h1, h2, h3, h4, ih2, List.append_assoc]
      exact ⟨rfl, rfl⟩

/-- A relation between two states of a run, the second reached from the first. -/
theorem run_between {R : σ → σ → Prop} (h0 : ∀ s, R s s)
    (hstep : ∀ a s i s' o, R a s → step i s = .ok (s', o) → R a s') (is js : List ι) :
    R (run step s is) (run step s (is ++ js)) := by
  rw [(run_append is js).1]
  exact run_invariant (h0 _) (hstep _) js

/-! ### What a log added and did not remove -/

section HeldAfter

variable {κ : Type*} {adds removes : κ → Prop}

/-- Some entry adds it and no later one removes it. -/
def HeldAfter (adds removes : κ → Prop) (l : List κ) : Prop :=
  ∃ before c after, l = before ++ c :: after ∧ adds c ∧ ∀ c' ∈ after, ¬removes c'

theorem heldAfter_concat {l : List κ} {c : κ} :
    HeldAfter adds removes (l ++ [c]) ↔ adds c ∨ (HeldAfter adds removes l ∧ ¬removes c) := by
  constructor
  · rintro ⟨before, d, after, h, hd, hall⟩
    rcases List.eq_nil_or_concat after with rfl | ⟨after, e, rfl⟩
    · obtain ⟨-, hcd⟩ := List.append_inj' h rfl
      obtain rfl := List.singleton_inj.mp hcd
      exact Or.inl hd
    · have h : l ++ [c] = (before ++ d :: after) ++ [e] := by simpa using h
      obtain ⟨rfl, hce⟩ := List.append_inj' h rfl
      obtain rfl := List.singleton_inj.mp hce
      exact Or.inr ⟨⟨before, d, after, rfl, hd, fun x hx => hall x (by simp [hx])⟩, hall c (by simp)⟩
  · rintro (hc | ⟨⟨before, d, after, rfl, hd, hall⟩, hnot⟩)
    · exact ⟨l, c, [], rfl, hc, by simp⟩
    · refine ⟨before, d, after ++ [c], by simp, hd, fun x hx => ?_⟩
      rcases List.mem_append.mp hx with hx | hx
      · exact hall x hx
      · rwa [List.mem_singleton.mp hx]

/-- Where every key is added once, what was added for it is held. -/
theorem heldAfter_of_filterMap {γ δ : Type*} {f : κ → Option (γ × δ)} {l : List κ} {k : γ} {v : δ}
    (hnodup : ((l.filterMap f).map Prod.fst).Nodup) (h : (k, v) ∈ l.filterMap f) :
    HeldAfter (fun c => f c = some (k, v)) (fun c => ∃ v', f c = some (k, v')) l := by
  obtain ⟨c, hc, hadds⟩ := List.mem_filterMap.mp h
  obtain ⟨before, after, rfl⟩ := List.append_of_mem hc
  refine ⟨before, c, after, rfl, hadds, ?_⟩
  rintro c' hc' ⟨v', hadds'⟩
  rw [List.filterMap_append, List.filterMap_cons_some hadds, List.map_append, List.map_cons] at hnodup
  refine (List.nodup_cons.mp hnodup.of_append_right).1 ?_
  exact List.mem_map.mpr ⟨(k, v'), List.mem_filterMap.mpr ⟨c', hc', hadds'⟩, rfl⟩

end HeldAfter

end Lib
