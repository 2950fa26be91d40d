import Mathlib.Data.List.Basic

/-!
# Lib.Attempt — computations that raise and keep what they have done

An attempt maps a state to the state it ends in, or to the state it raises in: an exception undoes
nothing.  `Ends P c Q E` is the triple of such a computation: from `P` it ends in `Q` or raises in
`E`.  A loop keeps an invariant that may speak of the items done so far (`Ends.forEach`).
-/

namespace Lib

variable {σ α : Type*}

abbrev Attempt (σ : Type*) := σ → Except σ σ

namespace Attempt

/-- One step: it raises before it changes anything, or makes its change. -/
def step (fails : Bool) (change : σ → σ) : Attempt σ := fun s =>
  if fails then .error s else .ok (change s)

/-- One after the other. -/
def andThen (first next : Attempt σ) : Attempt σ := fun s =>
  match first s with
  | .ok s' => next s'
  | .error s' => .error s'

def forEach (body : α → Attempt σ) : List α → Attempt σ
  | [] => .ok
  | a :: rest => andThen (body a) (forEach body rest)

/-- The state at the end, whichever end. -/
def final : Except σ σ → σ
  | .ok s => s
  | .error s => s

/-- From a state of `P` the computation ends in `Q` or raises in `E`. -/
def Ends (P : σ → Prop) (c : Attempt σ) (Q E : σ → Prop) : Prop :=
  ∀ s, P s → match c s with
    | .ok s' => Q s'
    | .error s' => E s'

variable {P Q R E : σ → Prop}

theorem Ends.ok {c : Attempt σ} (h : Ends P c Q E) {s s' : σ} (hs : P s) (hc : c s = .ok s') :
    Q s' := by
  have := h s hs
  rwa [hc] at this

theorem Ends.error {c : Attempt σ} (h : Ends P c Q E) {s s' : σ} (hs : P s)
    (hc : c s = .error s') : E s' := by
  have := h s hs
  rwa [hc] at this

theorem Ends.mono {c : Attempt σ} {P' : σ → Prop} (h : Ends P c Q E) (hP : ∀ s, P' s → P s) :
    Ends P' c Q E := fun s hs => h s (hP s hs)

theorem Ends.step {fails : Bool} {change : σ → σ} (herror : fails = true → ∀ s, P s → E s)
    (hchange : ∀ s, P s → Q (change s)) : Ends P (step fails change) Q E := by
  intro s hs
  cases fails with
  | true => exact herror rfl s hs
  | false => exact hchange s hs

theorem Ends.andThen {first next : Attempt σ} (hfirst : Ends P first Q E)
    (hnext : Ends Q next R E) : Ends P (andThen first next) R E := by
  intro s hs
  have h := hfirst s hs
  unfold Attempt.andThen
  cases hc : first s with
  | ok s' =>
    rw [hc] at h
    exact hnext s' h
  | error s' =>
    rw [hc] at h
    exact h

/-- **Loop rule**: an invariant of the items done and the items left. -/
theorem Ends.forEach {body : α → Attempt σ} {I : List α → List α → σ → Prop} {l : List α}
    (hbody : ∀ done a rest, done ++ a :: rest = l →
      Ends (I done (a :: rest)) (body a) (I (done ++ [a]) rest) E) :
    Ends (I [] l) (forEach body l) (I l []) E := by
  have key : ∀ rest done, done ++ rest = l →
      Ends (I done rest) (Attempt.forEach body rest) (I l []) E := by
    intro rest
    induction rest with
    | nil =>
      intro done hdone s hs
      rw [List.append_nil] at hdone
      exact hdone ▸ hs
    | cons a rest ih =>
      intro done hdone
      refine (hbody done a rest hdone).andThen (ih (done ++ [a]) ?_)
      rw [List.append_assoc, List.singleton_append, hdone]
  exact key l [] rfl

/-! ### Loops that stop where an item raises -/

/-- A loop whose items raise without an effect, or do their part, does the part of the items before
the first that raises. -/
theorem final_forEach {body : α → Attempt σ} {raises : α → Bool} {part : σ → α → σ}
    (hraises : ∀ a s, raises a = true → body a s = .error s)
    (hpart : ∀ a s, raises a = false → body a s = .ok (part s a)) (l : List α) (s : σ) :
    final (forEach body l s) = (l.takeWhile fun a => !raises a).foldl part s := by
  induction l generalizing s with
  | nil => rfl
  | cons a l ih =>
    rw [List.takeWhile_cons]
    cases hr : raises a with
    | true => simp [forEach, Attempt.andThen, hraises a s hr, final]
    | false => simpa [forEach, Attempt.andThen, hpart a s hr] using ih (part s a)

end Attempt

end Lib
