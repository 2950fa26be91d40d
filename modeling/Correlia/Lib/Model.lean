import Mathlib

/-!
# Lib.Model — validated models

A model is plain data with a function listing the field checks it fails, each with the field it is
about.  An instance (`Checked errors`) is data that fails none, so an invalid instance cannot be
built; `modelValidate` is the only way in, and reports every failed check.
-/

namespace Lib

/-- The kinds of failed field checks. -/
inductive ErrorKind
  | stringTooShort | stringTooLong | stringPatternMismatch
  | tooShort | tooLong | greaterThanEqual | lessThanEqual
  | literalError | missing | extraForbidden
  | stringType | intType | boolType | tupleType
  | valueError (message : String)
deriving DecidableEq, Repr

structure FieldError where
  loc : String
  kind : ErrorKind
deriving DecidableEq, Repr

/-- The exceptions of validation: `ValidationError` of a model, or `ValueError`. -/
inductive InputError
  | validation (model : String) (errors : List FieldError)
  | value (message : String)
deriving DecidableEq, Repr

variable {α : Type*} {errors : α → List FieldError}

/-- Data that passes every check of its model. -/
@[ext] structure Checked (errors : α → List FieldError) where
  val : α
  valid : errors val = []

instance [DecidableEq α] : DecidableEq (Checked errors) := fun c d =>
  decidable_of_iff (c.val = d.val) ⟨Checked.ext, fun h => h ▸ rfl⟩

def modelValidate (errors : α → List FieldError) (d : α) :
    Except (List FieldError) (Checked errors) :=
  if h : errors d = [] then .ok ⟨d, h⟩ else .error (errors d)

theorem modelValidate_of_valid {d : α} (h : errors d = []) :
    modelValidate errors d = .ok ⟨d, h⟩ := dif_pos h

theorem modelValidate_eq_ok {d : α} {c : Checked errors} :
    modelValidate errors d = .ok c ↔ c.val = d := by
  unfold modelValidate
  split_ifs with h
  · rw [Except.ok.injEq]
    exact ⟨fun e => e ▸ rfl, fun e => Checked.ext e.symm⟩
  · constructor
    · intro e
      cases e
    · intro e
      exact absurd (e ▸ c.valid) h

/-! ### Field checks -/

/-- One check: `kind` at `loc` unless the condition holds. -/
def check (ok : Bool) (loc : String) (kind : ErrorKind) : List FieldError :=
  if ok then [] else [⟨loc, kind⟩]

@[simp] theorem check_eq_nil {ok : Bool} {loc : String} {kind : ErrorKind} :
    check ok loc kind = [] ↔ ok = true := by
  cases ok <;> simp [check]

/-- Checks that run only after the earlier ones have passed. -/
def thenErrors (first next : List FieldError) : List FieldError :=
  if first = [] then next else first

@[simp] theorem thenErrors_eq_nil {first next : List FieldError} :
    thenErrors first next = [] ↔ first = [] ∧ next = [] := by
  unfold thenErrors
  split_ifs with h <;> simp [h]

/-- `Annotated[str, Field(min_length=lo, max_length=hi)]`. -/
def strErrors (lo hi : ℕ) (loc : String) (s : String) : List FieldError :=
  check (decide (lo ≤ s.length)) loc .stringTooShort ++
    check (decide (s.length ≤ hi)) loc .stringTooLong

@[simp] theorem strErrors_eq_nil {lo hi : ℕ} {loc s : String} :
    strErrors lo hi loc s = [] ↔ lo ≤ s.length ∧ s.length ≤ hi := by
  simp [strErrors]

/-- A field that may be `None`. -/
def optErrors {β : Type*} (f : β → List FieldError) : Option β → List FieldError
  | none => []
  | some b => f b

@[simp] theorem optErrors_eq_nil {β : Type*} {f : β → List FieldError} {o : Option β} :
    optErrors f o = [] ↔ ∀ b ∈ o, f b = [] := by
  cases o <;> simp [optErrors]

/-- A list or tuple field: every item is checked. -/
def itemErrors {β : Type*} (f : β → List FieldError) (l : List β) : List FieldError :=
  l.flatMap f

@[simp] theorem itemErrors_eq_nil {β : Type*} {f : β → List FieldError} {l : List β} :
    itemErrors f l = [] ↔ ∀ b ∈ l, f b = [] := List.flatMap_eq_nil_iff

/-! ### Which errors the checks report -/

theorem mem_check {ok : Bool} {loc : String} {kind : ErrorKind} {e : FieldError} :
    e ∈ check ok loc kind ↔ ok = false ∧ e = ⟨loc, kind⟩ := by
  cases ok <;> simp [check]

theorem mem_thenErrors {first next : List FieldError} {e : FieldError}
    (h : e ∈ thenErrors first next) : e ∈ first ∨ e ∈ next := by
  unfold thenErrors at h
  split_ifs at h
  · exact Or.inr h
  · exact Or.inl h

theorem mem_strErrors {lo hi : ℕ} {loc s : String} {e : FieldError} (h : e ∈ strErrors lo hi loc s) :
    e = ⟨loc, .stringTooShort⟩ ∨ e = ⟨loc, .stringTooLong⟩ := by
  rcases List.mem_append.mp h with h | h
  · exact Or.inl (mem_check.mp h).2
  · exact Or.inr (mem_check.mp h).2

theorem mem_optErrors {β : Type*} {f : β → List FieldError} {o : Option β} {e : FieldError} :
    e ∈ optErrors f o ↔ ∃ b ∈ o, e ∈ f b := by
  cases o <;> simp [optErrors]

/-- A string of 1 to 256 characters. -/
abbrev BoundedString := { s : String // 1 ≤ s.length ∧ s.length ≤ 256 }

def BoundedString.validate (loc : String) (s : String) : Except (List FieldError) BoundedString :=
  if h : 1 ≤ s.length ∧ s.length ≤ 256 then .ok ⟨s, h⟩ else .error (strErrors 1 256 loc s)

theorem BoundedString.validate_eq_ok {loc s : String} {b : BoundedString} :
    BoundedString.validate loc s = .ok b ↔ b.val = s := by
  unfold BoundedString.validate
  split_ifs with h
  · rw [Except.ok.injEq]
    exact ⟨fun e => e ▸ rfl, fun e => Subtype.ext e.symm⟩
  · constructor
    · intro e
      cases e
    · intro e
      exact absurd (e ▸ b.property) h

/-! ### Chains of checked steps -/

section Except

variable {ε β γ : Type}

theorem ok_bind {b : β} {f : β → Except ε γ} : (Except.ok b >>= f) = f b := rfl

theorem bind_eq_ok {x : Except ε β} {f : β → Except ε γ} {c : γ} :
    (x >>= f) = .ok c ↔ ∃ b, x = .ok b ∧ f b = .ok c := by
  cases x with
  | error e =>
    constructor
    · intro h
      cases h
    · rintro ⟨_, h, -⟩
      cases h
  | ok b =>
    constructor
    · exact fun h => ⟨b, rfl, h⟩
    · rintro ⟨_, h, hf⟩
      cases h
      exact hf

theorem bind_eq_error {x : Except ε β} {f : β → Except ε γ} {e : ε} :
    (x >>= f) = .error e ↔ x = .error e ∨ ∃ b, x = .ok b ∧ f b = .error e := by
  cases x with
  | error e' =>
    constructor
    · intro h
      cases h
      exact Or.inl rfl
    · rintro (h | ⟨_, h, -⟩)
      · cases h
        rfl
      · cases h
  | ok b =>
    constructor
    · exact fun h => Or.inr ⟨b, rfl, h⟩
    · rintro (h | ⟨_, h, hf⟩)
      · cases h
      · cases h
        exact hf

/-- A list of steps succeeds when every step does. -/
theorem mapM_eq_ok {f : β → Except ε γ} : ∀ {l : List β} {ys : List γ},
    l.mapM f = .ok ys ↔ List.Forall₂ (fun x y => f x = .ok y) l ys
  | [], ys => by
    rw [List.mapM_nil, List.forall₂_nil_left_iff]
    constructor
    · intro h
      cases h
      rfl
    · exact fun h => h ▸ rfl
  | x :: xs, ys => by
    rw [List.mapM_cons, bind_eq_ok]
    constructor
    · rintro ⟨y, hy, h⟩
      obtain ⟨ys', hys, h⟩ := bind_eq_ok.mp h
      cases h
      exact List.Forall₂.cons hy (mapM_eq_ok.mp hys)
    · intro h
      cases h with
      | cons hy hys => exact ⟨_, hy, bind_eq_ok.mpr ⟨_, mapM_eq_ok.mpr hys, rfl⟩⟩

theorem map_eq_ok {f : β → γ} {x : Except ε β} {c : γ} :
    x.map f = .ok c ↔ ∃ b, x = .ok b ∧ f b = c := by
  cases x <;> simp [Except.map]

theorem map_ok_iff {f : β → γ} {x : Except ε β} : (∃ c, x.map f = .ok c) ↔ ∃ b, x = .ok b := by
  cases x <;> simp [Except.map]

theorem mapM_ok_iff {f : β → Except ε γ} {l : List β} :
    (∃ ys, l.mapM f = .ok ys) ↔ ∀ x ∈ l, ∃ y, f x = .ok y := by
  simp only [mapM_eq_ok]
  induction l with
  | nil => simp
  | cons x l ih =>
    rw [List.forall_mem_cons, ← ih]
    constructor
    · rintro ⟨_, h⟩
      cases h with
      | cons hy hys => exact ⟨⟨_, hy⟩, _, hys⟩
    · rintro ⟨⟨y, hy⟩, ys, hys⟩
      exact ⟨y :: ys, List.Forall₂.cons hy hys⟩

theorem mapM_eq_some {f : β → Option γ} : ∀ {l : List β} {ys : List γ},
    l.mapM f = some ys ↔ List.Forall₂ (fun x y => f x = some y) l ys
  | [], ys => by
    rw [List.mapM_nil, List.forall₂_nil_left_iff]
    exact ⟨fun h => (Option.some.inj h).symm, fun h => h ▸ rfl⟩
  | x :: xs, ys => by
    rw [List.mapM_cons, Option.bind_eq_bind, Option.bind_eq_some_iff]
    constructor
    · rintro ⟨y, hy, h⟩
      obtain ⟨ys', hys, h⟩ := Option.bind_eq_some_iff.mp h
      cases h
      exact List.Forall₂.cons hy (mapM_eq_some.mp hys)
    · intro h
      cases h with
      | cons hy hys =>
        exact ⟨_, hy, Option.bind_eq_some_iff.mpr ⟨_, mapM_eq_some.mpr hys, rfl⟩⟩

/-- The steps of a rearranged list have the rearranged results. -/
theorem mapM_perm {f : β → Except ε γ} {l l' : List β} {ys : List γ} (hl : l'.Perm l)
    (h : l.mapM f = .ok ys) : ∃ ys', l'.mapM f = .ok ys' ∧ ys'.Perm ys := by
  obtain ⟨ys', hys, hperm⟩ := List.perm_comp_forall₂ hl (mapM_eq_ok.mp h)
  exact ⟨ys', mapM_eq_ok.mpr hys, hperm⟩

/-- A fallible step with its exception translated. -/
def liftError {ε' : Type} (g : ε → ε') : Except ε β → Except ε' β
  | .ok b => .ok b
  | .error e => .error (g e)

@[simp] theorem liftError_eq_ok {ε' : Type} {g : ε → ε'} {x : Except ε β} {b : β} :
    liftError g x = .ok b ↔ x = .ok b := by
  cases x <;> simp [liftError]

/-- `None` read as an exception. -/
def orThrow (e : ε) : Option β → Except ε β
  | some b => .ok b
  | none => .error e

@[simp] theorem orThrow_eq_ok {e : ε} {o : Option β} {b : β} :
    orThrow e o = .ok b ↔ o = some b := by
  cases o <;> simp [orThrow]

@[simp] theorem orThrow_eq_error {e e' : ε} {o : Option β} :
    orThrow e o = .error e' ↔ o = none ∧ e = e' := by
  cases o <;> simp [orThrow]

/-! ### Which exceptions a step can raise -/

/-- Every exception of the step is one of these. -/
def Raises (P : ε → Prop) (x : Except ε β) : Prop := ∀ e, x = .error e → P e

variable {P : ε → Prop}

theorem Raises.ok {b : β} : Raises P (Except.ok b) := fun e h => by cases h

theorem Raises.error {e : ε} (h : P e) : Raises P (Except.error e : Except ε β) := fun e' h' => by
  cases h'
  exact h

theorem Raises.bind {x : Except ε β} {f : β → Except ε γ} (hx : Raises P x)
    (hf : ∀ b, x = .ok b → Raises P (f b)) : Raises P (x >>= f) := by
  intro e h
  cases x with
  | error e' =>
    cases h
    exact hx _ rfl
  | ok b => exact hf b rfl e h

theorem Raises.orThrow {e : ε} {o : Option β} (h : P e) : Raises P (orThrow e o) := by
  cases o with
  | none => exact Raises.error h
  | some b => exact Raises.ok

theorem Raises.liftError {ε' : Type} {g : ε' → ε} {x : Except ε' β} (h : ∀ e, P (g e)) :
    Raises P (liftError g x) := by
  cases x with
  | error e => exact Raises.error (h e)
  | ok b => exact Raises.ok

theorem Raises.mapM {f : β → Except ε γ} {l : List β} (h : ∀ b ∈ l, Raises P (f b)) :
    Raises P (l.mapM f) := by
  induction l with
  | nil => exact Raises.ok
  | cons b l ih =>
    rw [List.mapM_cons]
    have hhead := h b (List.mem_cons_self ..)
    have htail := ih fun c hc => h c (List.mem_cons_of_mem _ hc)
    exact hhead.bind fun _ _ => htail.bind fun _ _ => Raises.ok

end Except

end Lib
