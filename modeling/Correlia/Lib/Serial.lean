import Correlia.Lib.Run

/-!
# Lib.Serial — calls in several moves that act as one

A store serves calls in one step each.  A system serves many calls at once, each in several moves,
and a move may end a call with its result.  Where every call ends with what the store would answer at
that moment, and nothing else changes what the system shows of the store, the calls in the order of
their ends are a run of the store: any interleaving has the states and the results of that run.
-/

namespace Lib

variable {σ ι ε ω τ : Type*}

/-- Every call has the result that it has after those before it. -/
def InTurn (step : ι → σ → Except ε (σ × ω)) (s : σ) (l : List (ι × Except ε ω)) : Prop :=
  ∀ before e after, l = before ++ e :: after →
    e.2 = (step e.1 (run step s (before.map Prod.fst))).map Prod.snd

/-- Moves one after another, with the calls they end. -/
inductive Trace (move : τ → Option (ι × Except ε ω) → τ → Prop) (a : τ) :
    List (ι × Except ε ω) → τ → Prop
  | start : Trace move a [] a
  | quiet {l : List (ι × Except ε ω)} {b c : τ} (h : Trace move a l b) (hmove : move b none c) :
      Trace move a l c
  | ends {l : List (ι × Except ε ω)} {b c : τ} {e : ι × Except ε ω} (h : Trace move a l b)
      (hmove : move b (some e) c) : Trace move a (l ++ [e]) c

/-- The conditions, where the system shows `shown` of the store, and `Inv` holds of it. -/
structure Serializes (move : τ → Option (ι × Except ε ω) → τ → Prop)
    (step : ι → σ → Except ε (σ × ω)) (shown : τ → σ) (Inv : τ → Prop) : Prop where
  keeps : ∀ a e b, Inv a → move a e b → Inv b
  quiet : ∀ a b, Inv a → move a none b → shown b = shown a
  ends : ∀ a i x b, Inv a → move a (some (i, x)) b →
    x = (step i (shown a)).map Prod.snd ∧ shown b = run step (shown a) [i]

variable {step : ι → σ → Except ε (σ × ω)} {s : σ} {l : List (ι × Except ε ω)}
  {e : ι × Except ε ω}

theorem InTurn.concat (h : InTurn step s l)
    (he : e.2 = (step e.1 (run step s (l.map Prod.fst))).map Prod.snd) :
    InTurn step s (l ++ [e]) := by
  intro before e' after hl
  rcases List.eq_nil_or_concat after with rfl | ⟨after, e'', rfl⟩
  · obtain ⟨rfl, hlast⟩ := List.append_inj' hl rfl
    obtain rfl := List.singleton_inj.mp hlast
    exact he
  · have hl : l ++ [e] = (before ++ e' :: after) ++ [e''] := by simpa using hl
    obtain ⟨rfl, -⟩ := List.append_inj' hl rfl
    exact h before e' after rfl

variable {move : τ → Option (ι × Except ε ω) → τ → Prop} {shown : τ → σ} {Inv : τ → Prop} {a b : τ}

/-- **Serial runs.** -/
theorem Serializes.trace (h : Serializes move step shown Inv) (ha : Inv a)
    (htrace : Trace move a l b) :
    Inv b ∧ shown b = run step (shown a) (l.map Prod.fst) ∧ InTurn step (shown a) l := by
  induction htrace with
  | start =>
    refine ⟨ha, rfl, fun before e after hl => ?_⟩
    exact absurd hl (by simp)
  | quiet _ hmove ih =>
    obtain ⟨hb, hshown, hturn⟩ := ih
    exact ⟨h.keeps _ _ _ hb hmove, (h.quiet _ _ hb hmove).trans hshown, hturn⟩
  | @ends l b c e _ hmove ih =>
    obtain ⟨hb, hshown, hturn⟩ := ih
    obtain ⟨hresult, hnext⟩ := h.ends b e.1 e.2 c hb hmove
    rw [hshown] at hresult hnext
    refine ⟨h.keeps _ _ _ hb hmove, ?_, hturn.concat hresult⟩
    rw [hnext, List.map_append, (run_append _ _).1]
    rfl

/-- What every move keeps of the calls ended so far and the system holds after every trace. -/
theorem Trace.induction_on {R : List (ι × Except ε ω) → τ → Prop} (h0 : R [] a)
    (hquiet : ∀ l b c, R l b → move b none c → R l c)
    (hends : ∀ l b e c, R l b → move b (some e) c → R (l ++ [e]) c)
    (htrace : Trace move a l b) : R l b := by
  induction htrace with
  | start => exact h0
  | quiet _ hmove ih => exact hquiet _ _ _ ih hmove
  | ends _ hmove ih => exact hends _ _ _ _ ih hmove

end Lib
