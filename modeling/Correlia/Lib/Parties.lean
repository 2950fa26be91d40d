import Mathlib.Data.List.Basic
import Mathlib.Logic.Function.Basic
import Mathlib.Logic.Relation

/-!
# Lib.Parties — parties that share a state, and rely-guarantee triples

Each party runs one operation at a time, a tree of calls; between two of its calls the others may
make theirs, anything else `env` allows may happen, and a party may be stopped.  A `Discipline`
says what a call may do (`ok`) and what a party relies on (`rely`); `Triple` is the triple of a
program under it, with an assertion for each end.  Every operation having a triple, all of them
hold together in every configuration reached (`safe_of_reaches`).
-/

namespace Lib

/-- A program of one party: it ends, raises, or makes a call and goes on with the answer. -/
inductive Prog (C : Type) (R : C → Type) (ε α : Type) where
  | ret (a : α)
  | raise (e : ε)
  | call (c : C) (k : R c → Prog C R ε α)

namespace Prog

variable {C : Type} {R : C → Type} {ε α β : Type}

protected def bind : Prog C R ε α → (α → Prog C R ε β) → Prog C R ε β
  | .ret a, f => f a
  | .raise e, _ => .raise e
  | .call c k, f => .call c fun r => (k r).bind f

instance : Monad (Prog C R ε) where
  pure := .ret
  bind := .bind

/-- One call. -/
def perform (c : C) : Prog C R ε (R c) := .call c .ret

/-- `try: p` with a handler. -/
def onRaise (handler : ε → Prog C R ε α) : Prog C R ε α → Prog C R ε α
  | .ret a => .ret a
  | .raise e => handler e
  | .call c k => .call c fun r => (k r).onRaise handler

end Prog

/-- What the parties run, and what happens to the state they share. -/
structure Workload (W O C : Type) (R : C → Type) (ε α σ : Type) where
  body : W → O → Prog C R ε α
  does : W → (c : C) → σ → R c → σ → Prop
  env : σ → σ → Prop

section

variable {W O C : Type} {R : C → Type} {ε α β γ σ : Type}

/-- The shared state and the operation each party is in. -/
structure Config (W O C : Type) (R : C → Type) (ε α σ : Type) where
  shared : σ
  running : W → Option (O × Prog C R ε α)

/-- One step, by a party or by nobody. -/
inductive Workload.Step [DecidableEq W] (L : Workload W O C R ε α σ) :
    Config W O C R ε α σ → Option W → Config W O C R ε α σ → Prop
  | start {c w} (o : O) (h : c.running w = none) :
      L.Step c (some w) ⟨c.shared, Function.update c.running w (some (o, L.body w o))⟩
  | call {c w o x k r s} (h : c.running w = some (o, .call x k)) (hd : L.does w x c.shared r s) :
      L.Step c (some w) ⟨s, Function.update c.running w (some (o, k r))⟩
  /-- The operation has returned or raised, or is stopped where it is. -/
  | leave {c} (w : W) : L.Step c (some w) ⟨c.shared, Function.update c.running w none⟩
  | env {c s} (h : L.env c.shared s) : L.Step c none ⟨s, c.running⟩

/-- What steps can reach from a state in which no party is in an operation. -/
def Workload.Reaches [DecidableEq W] (L : Workload W O C R ε α σ) (s : σ)
    (c : Config W O C R ε α σ) : Prop :=
  Relation.ReflTransGen (fun c c' => ∃ w, L.Step c w c') ⟨s, fun _ => none⟩ c

/-- The program run by `w` without interference. -/
inductive Workload.Yields (L : Workload W O C R ε α σ) (w : W) :
    Prog C R ε β → σ → β → σ → Prop
  | ret (a : β) (s : σ) : L.Yields w (.ret a) s a s
  | call {x k s r s' a s''} (hd : L.does w x s r s') (h : L.Yields w (k r) s' a s'') :
      L.Yields w (.call x k) s a s''

theorem Workload.Yields.bind {L : Workload W O C R ε α σ} {w : W} {p : Prog C R ε γ}
    {f : γ → Prog C R ε β} {s s' s'' : σ} {a : γ} {b : β} (h : L.Yields w p s a s')
    (hf : L.Yields w (f a) s' b s'') : L.Yields w (p.bind f) s b s'' := by
  induction h with
  | ret a s => exact hf
  | call hd _ ih => exact .call hd (ih hf)

/-- A handler is not asked where nothing is raised. -/
theorem Workload.Yields.onRaise {L : Workload W O C R ε α σ} {w : W} {p : Prog C R ε β}
    {handler : ε → Prog C R ε β} {s s' : σ} {a : β} (h : L.Yields w p s a s') :
    L.Yields w (p.onRaise handler) s a s' := by
  induction h with
  | ret a s => exact .ret a s
  | call hd _ ih => exact .call hd ih

/-- A loop whose rounds change nothing. -/
theorem Workload.Yields.forIn {L : Workload W O C R ε α σ} {w : W} {l : List γ}
    {body : γ → β → Prog C R ε (ForInStep β)} {b : β} {s : σ}
    (h : ∀ a ∈ l, L.Yields w (body a b) s (.yield b) s) : L.Yields w (forIn l b body) s b s := by
  induction l with
  | nil =>
    rw [List.forIn_nil]
    exact .ret b s
  | cons a l ih =>
    rw [List.forIn_cons]
    exact (h a List.mem_cons_self).bind (ih fun a ha => h a (List.mem_cons_of_mem _ ha))

/-- The program makes some of its calls without interference, and goes on as what is left. -/
inductive Workload.Runs (L : Workload W O C R ε α σ) (w : W) :
    Prog C R ε β → σ → Prog C R ε β → σ → Prop
  | refl (p : Prog C R ε β) (s : σ) : L.Runs w p s p s
  | call {x k s r s' p s''} (hd : L.does w x s r s') (h : L.Runs w (k r) s' p s'') :
      L.Runs w (.call x k) s p s''

theorem Workload.Yields.bind_runs {L : Workload W O C R ε α σ} {w : W} {p : Prog C R ε γ}
    {f : γ → Prog C R ε β} {q : Prog C R ε β} {s s' s'' : σ} {a : γ} (h : L.Yields w p s a s')
    (hf : L.Runs w (f a) s' q s'') : L.Runs w (p.bind f) s q s'' := by
  induction h with
  | ret a s => exact hf
  | call hd _ ih => exact .call hd (ih hf)

theorem Workload.Yields.runs {L : Workload W O C R ε α σ} {w : W} {p : Prog C R ε β} {s s' : σ}
    {a : β} (h : L.Yields w p s a s') : L.Runs w p s (.ret a) s' := by
  induction h with
  | ret a s => exact .refl _ s
  | call hd _ ih => exact .call hd ih

section

variable [DecidableEq W] {L : Workload W O C R ε α σ} {w : W} {o : O} {s₀ s s' : σ}
  {running : W → Option (O × Prog C R ε α)}

theorem Workload.Reaches.runs {p q : Prog C R ε α} (hreach : L.Reaches s₀ ⟨s, running⟩)
    (hw : running w = some (o, p)) (h : L.Runs w p s q s') :
    L.Reaches s₀ ⟨s', Function.update running w (some (o, q))⟩ := by
  induction h generalizing running with
  | refl p s => rwa [← hw, Function.update_eq_self]
  | call hd _ ih =>
    have hnext := ih (hreach.tail ⟨w, .call hw hd⟩) (Function.update_self ..)
    rwa [Function.update_idem] at hnext

/-- A party's operation has ended. -/
theorem Workload.Reaches.leaves (hreach : L.Reaches s₀ ⟨s, running⟩) (w : W) :
    L.Reaches s₀ ⟨s, Function.update running w none⟩ := hreach.tail ⟨w, .leave w⟩

/-- A party that is in no operation begins one. -/
theorem Workload.Reaches.begins {q : Prog C R ε α} (hreach : L.Reaches s₀ ⟨s, running⟩)
    (hw : running w = none) (h : L.Runs w (L.body w o) s q s') :
    L.Reaches s₀ ⟨s', Function.update running w (some (o, q))⟩ := by
  have hbegun := Workload.Reaches.runs (hreach.tail ⟨w, .start o hw⟩) (Function.update_self ..) h
  rwa [Function.update_idem] at hbegun

end

/-- What every call may do, what every party relies on, and why they fit. -/
structure Discipline (L : Workload W O C R ε α σ) where
  inv : σ → Prop
  rely : W → σ → σ → Prop
  ok : W → O → C → σ → Prop
  rely_refl : ∀ w s, rely w s s
  rely_trans : ∀ w s s' s'', inv s → rely w s s' → rely w s' s'' → rely w s s''
  does_inv : ∀ w o c s r s', inv s → ok w o c s → L.does w c s r s' → inv s'
  does_rely : ∀ w v o c s r s', v ≠ w → inv s → ok w o c s → L.does w c s r s' → rely v s s'
  env_inv : ∀ s s', inv s → L.env s s' → inv s'
  env_rely : ∀ w s s', inv s → L.env s s' → rely w s s'

namespace Discipline

variable {L : Workload W O C R ε α σ} (D : Discipline L) (w : W) (o : O)

/-- Whatever the others do: every call of the program is allowed, and its ends satisfy `Q` and
`X`, then and until `w` goes on. -/
def Safe (Q : β → σ → Prop) (X : ε → σ → Prop) : Prog C R ε β → σ → Prop
  | .ret a, s => ∀ s₁, D.inv s₁ → D.rely w s s₁ → Q a s₁
  | .raise e, s => ∀ s₁, D.inv s₁ → D.rely w s s₁ → X e s₁
  | .call c k, s => ∀ s₁, D.inv s₁ → D.rely w s s₁ →
      D.ok w o c s₁ ∧ ∀ r s₂, L.does w c s₁ r s₂ → Safe Q X (k r) s₂

/-- The assertion survives what `w` relies on. -/
def Stable (P : σ → Prop) : Prop :=
  ∀ s s', D.inv s → D.inv s' → D.rely w s s' → P s → P s'

def Triple (P : σ → Prop) (p : Prog C R ε β) (Q : β → σ → Prop) (X : ε → σ → Prop) : Prop :=
  ∀ s, D.inv s → P s → D.Safe w o Q X p s

variable {D w o} {P P' : σ → Prop} {Q Q' : β → σ → Prop} {X X' : ε → σ → Prop}

theorem Safe.interfere {p : Prog C R ε β} {s s' : σ} (h : D.Safe w o Q X p s) (hs : D.inv s)
    (hr : D.rely w s s') : D.Safe w o Q X p s' := by
  cases p with
  | ret a => exact fun s₁ h₁ hr₁ => h s₁ h₁ (D.rely_trans w s s' s₁ hs hr hr₁)
  | raise e => exact fun s₁ h₁ hr₁ => h s₁ h₁ (D.rely_trans w s s' s₁ hs hr hr₁)
  | call c k => exact fun s₁ h₁ hr₁ => h s₁ h₁ (D.rely_trans w s s' s₁ hs hr hr₁)

theorem Safe.mono {p : Prog C R ε β} {s : σ} (h : D.Safe w o Q X p s) (hs : D.inv s)
    (hQ : ∀ a s, D.inv s → Q a s → Q' a s) (hX : ∀ e s, D.inv s → X e s → X' e s) :
    D.Safe w o Q' X' p s := by
  induction p generalizing s with
  | ret a => exact fun s₁ h₁ hr₁ => hQ a s₁ h₁ (h s₁ h₁ hr₁)
  | raise e => exact fun s₁ h₁ hr₁ => hX e s₁ h₁ (h s₁ h₁ hr₁)
  | call c k ih =>
    intro s₁ h₁ hr₁
    obtain ⟨hok, hk⟩ := h s₁ h₁ hr₁
    exact ⟨hok, fun r s₂ hd => ih r (hk r s₂ hd) (D.does_inv w o c s₁ r s₂ h₁ hok hd)⟩

theorem Safe.bind {p : Prog C R ε γ} {f : γ → Prog C R ε β} {A : γ → σ → Prop} {s : σ}
    (h : D.Safe w o A X p s) (hs : D.inv s)
    (hf : ∀ a s, D.inv s → A a s → D.Safe w o Q X (f a) s) : D.Safe w o Q X (p.bind f) s := by
  induction p generalizing s with
  | ret a => exact hf a s hs (h s hs (D.rely_refl w s))
  | raise e => exact h
  | call c k ih =>
    intro s₁ h₁ hr₁
    obtain ⟨hok, hk⟩ := h s₁ h₁ hr₁
    exact ⟨hok, fun r s₂ hd => ih r (hk r s₂ hd) (D.does_inv w o c s₁ r s₂ h₁ hok hd)⟩

theorem Safe.onRaise {p : Prog C R ε β} {handler : ε → Prog C R ε β} {s : σ}
    (h : D.Safe w o Q X p s) (hs : D.inv s)
    (hh : ∀ e s, D.inv s → X e s → D.Safe w o Q X' (handler e) s) :
    D.Safe w o Q X' (p.onRaise handler) s := by
  induction p generalizing s with
  | ret a => exact h
  | raise e => exact hh e s hs (h s hs (D.rely_refl w s))
  | call c k ih =>
    intro s₁ h₁ hr₁
    obtain ⟨hok, hk⟩ := h s₁ h₁ hr₁
    exact ⟨hok, fun r s₂ hd => ih r (hk r s₂ hd) (D.does_inv w o c s₁ r s₂ h₁ hok hd)⟩

/-- A safe program run alone ends as it says. -/
theorem Safe.yields {p : Prog C R ε β} {s s' : σ} {a : β} (h : D.Safe w o Q X p s)
    (hs : D.inv s) (hy : L.Yields w p s a s') : Q a s' := by
  induction hy with
  | ret a s => exact h s hs (D.rely_refl w s)
  | call hd _ ih =>
    obtain ⟨hok, hk⟩ := h _ hs (D.rely_refl w _)
    exact ih (hk _ _ hd) (D.does_inv w o _ _ _ _ hs hok hd)

/-! ### Stable assertions -/

theorem Stable.const (φ : Prop) : D.Stable w fun _ => φ := fun _ _ _ _ _ h => h

theorem Stable.and (h : D.Stable w P) (h' : D.Stable w P') : D.Stable w fun s => P s ∧ P' s :=
  fun s s' hs hs' hr hp => ⟨h s s' hs hs' hr hp.1, h' s s' hs hs' hr hp.2⟩

theorem Stable.all {ι : Sort*} {A : ι → σ → Prop} (h : ∀ i, D.Stable w (A i)) :
    D.Stable w fun s => ∀ i, A i s :=
  fun s s' hs hs' hr hp i => h i s s' hs hs' hr (hp i)

theorem Stable.imp {φ : Prop} (h : φ → D.Stable w P) : D.Stable w fun s => φ → P s :=
  fun s s' hs hs' hr hp hφ => h hφ s s' hs hs' hr (hp hφ)

theorem Stable.ex {ι : Sort*} {A : ι → σ → Prop} (h : ∀ i, D.Stable w (A i)) :
    D.Stable w fun s => ∃ i, A i s :=
  fun s s' hs hs' hr ⟨i, hp⟩ => ⟨i, h i s s' hs hs' hr hp⟩

/-! ### Rules -/

theorem Triple.ret {a : β} (hP : D.Stable w P) (h : ∀ s, D.inv s → P s → Q a s) :
    D.Triple w o P (.ret a) Q X := fun s hs hp s₁ h₁ hr₁ => h s₁ h₁ (hP s s₁ hs h₁ hr₁ hp)

theorem Triple.raise {e : ε} (hP : D.Stable w P) (h : ∀ s, D.inv s → P s → X e s) :
    D.Triple w o P (.raise e : Prog C R ε β) Q X :=
  fun s hs hp s₁ h₁ hr₁ => h s₁ h₁ (hP s s₁ hs h₁ hr₁ hp)

theorem Triple.perform {c : C} {Q : R c → σ → Prop} (hP : D.Stable w P)
    (hQ : ∀ r, D.Stable w (Q r)) (hok : ∀ s, D.inv s → P s → D.ok w o c s)
    (h : ∀ s r s', D.inv s → P s → L.does w c s r s' → Q r s') :
    D.Triple w o P (Prog.perform c) Q X := by
  intro s hs hp s₁ h₁ hr₁
  have hp₁ := hP s s₁ hs h₁ hr₁ hp
  refine ⟨hok s₁ h₁ hp₁, fun r s₂ hd s₃ h₃ hr₃ => ?_⟩
  have h₂ := D.does_inv w o c s₁ r s₂ h₁ (hok s₁ h₁ hp₁) hd
  exact hQ r s₂ s₃ h₂ h₃ hr₃ (h s₁ r s₂ h₁ hp₁ hd)

theorem Triple.bind {p : Prog C R ε γ} {f : γ → Prog C R ε β} {A : γ → σ → Prop}
    (hp : D.Triple w o P p A X) (hf : ∀ a, D.Triple w o (A a) (f a) Q X) :
    D.Triple w o P (p >>= f) Q X :=
  fun s hs hP => (hp s hs hP).bind hs fun a s hs ha => hf a s hs ha

theorem Triple.onRaise {p : Prog C R ε β} {handler : ε → Prog C R ε β}
    (hp : D.Triple w o P p Q X) (hh : ∀ e, D.Triple w o (X e) (handler e) Q X') :
    D.Triple w o P (p.onRaise handler) Q X' :=
  fun s hs hP => (hp s hs hP).onRaise hs fun e s hs he => hh e s hs he

theorem Triple.mono {p : Prog C R ε β} (h : D.Triple w o P p Q X)
    (hP : ∀ s, D.inv s → P' s → P s) (hQ : ∀ a s, D.inv s → Q a s → Q' a s)
    (hX : ∀ e s, D.inv s → X e s → X' e s) : D.Triple w o P' p Q' X' :=
  fun s hs hp => (h s hs (hP s hs hp)).mono hs hQ hX

/-- A loop keeps an assertion. -/
theorem Triple.forIn {l : List γ} {body : γ → β → Prog C R ε (ForInStep β)} {b : β}
    (hP : D.Stable w P)
    (h : ∀ a ∈ l, ∀ b, D.Triple w o P (body a b) (fun _ => P) X) :
    D.Triple w o P (forIn l b body) (fun _ => P) X := by
  induction l generalizing b with
  | nil =>
    rw [List.forIn_nil]
    exact .ret hP fun _ _ hp => hp
  | cons a l ih =>
    rw [List.forIn_cons]
    refine (h a List.mem_cons_self b).bind fun step => ?_
    cases step with
    | done b => exact .ret hP fun _ _ hp => hp
    | yield b => exact ih fun a ha => h a (List.mem_cons_of_mem _ ha)

/-! ### Runs -/

variable {post : W → O → α → σ → Prop}

variable [DecidableEq W]

/-- What holds between steps: the invariant, and each party safe in its operation. -/
def Holds (D : Discipline L) (post : W → O → α → σ → Prop) (c : Config W O C R ε α σ) : Prop :=
  D.inv c.shared ∧ ∀ w o p, c.running w = some (o, p) →
    D.Safe w o (post w o) (fun _ _ => True) p c.shared

theorem running_update {f : W → Option β} {v : W} {x : Option β} {b : β}
    (h : Function.update f w x v = some b) : v = w ∧ x = some b ∨ v ≠ w ∧ f v = some b := by
  by_cases hv : v = w
  · subst hv
    rw [Function.update_self] at h
    exact .inl ⟨rfl, h⟩
  · rw [Function.update_of_ne hv] at h
    exact .inr ⟨hv, h⟩

/-- **Step**: what a party does is allowed, and disturbs nobody. -/
theorem Holds.step {c c' : Config W O C R ε α σ} {a : Option W}
    (hbody : ∀ w o, D.Triple w o (fun _ => True) (L.body w o) (post w o) fun _ _ => True)
    (h : D.Holds post c) (hstep : L.Step c a c') : D.Holds post c' := by
  obtain ⟨hinv, hsafe⟩ := h
  cases hstep with
  | @start w o hw =>
    refine ⟨hinv, fun v o' p hv => ?_⟩
    obtain ⟨rfl, hp⟩ | ⟨-, hp⟩ := running_update hv
    · cases hp
      exact hbody v o c.shared hinv trivial
    · exact hsafe v o' p hp
  | @call w o x k r s hw hd =>
    obtain ⟨hok, hk⟩ := hsafe w o _ hw c.shared hinv (D.rely_refl w c.shared)
    refine ⟨D.does_inv w o x c.shared r s hinv hok hd, fun v o' p hv => ?_⟩
    obtain ⟨rfl, hp⟩ | ⟨hvw, hp⟩ := running_update hv
    · cases hp
      exact hk r s hd
    · exact (hsafe v o' p hp).interfere hinv (D.does_rely w v o x c.shared r s hvw hinv hok hd)
  | leave w =>
    refine ⟨hinv, fun v o' p hv => ?_⟩
    obtain ⟨rfl, hp⟩ | ⟨-, hp⟩ := running_update hv
    · cases hp
    · exact hsafe v o' p hp
  | @env s he =>
    exact ⟨D.env_inv _ s hinv he,
      fun v o' p hv => (hsafe v o' p hv).interfere hinv (D.env_rely v _ s hinv he)⟩

/-- **Run**: in every configuration reached from a state of the invariant. -/
theorem safe_of_reaches {c : Config W O C R ε α σ} {s : σ}
    (hbody : ∀ w o, D.Triple w o (fun _ => True) (L.body w o) (post w o) fun _ _ => True)
    (hs : D.inv s) (h : L.Reaches s c) : D.Holds post c := by
  induction h with
  | refl => exact ⟨hs, nofun⟩
  | tail _ hstep ih =>
    obtain ⟨a, hstep⟩ := hstep
    exact ih.step hbody hstep

end Discipline

end

end Lib
