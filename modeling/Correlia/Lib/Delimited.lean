import Mathlib.Data.List.Infix

/-!
# Lib.Delimited — values joined by markers

A marker begins with a separator and has it nowhere else.  Values that are joined by markers can be
read back from the text exactly when no value contains a marker it stands beside.
-/

namespace Lib

section

variable {α : Type*} {bar : α}

/-- A separator, and items that are no separator. -/
def IsMarker (bar : α) (m : List α) : Prop := ∃ rest, m = bar :: rest ∧ bar ∉ rest

/-- The first value, and each other behind its marker. -/
def weave : List α → List (List α × List α) → List α
  | v, [] => v
  | v, (m, w) :: ps => v ++ m ++ weave w ps

/-- Neither of two neighbours contains the marker between them. -/
def Clear : List α → List (List α × List α) → Prop
  | _, [] => True
  | v, (m, w) :: ps => ¬ m <:+: v ∧ ¬ m <:+: w ∧ Clear w ps

theorem weave_append (x w : List α) (ps : List (List α × List α)) :
    weave (x ++ w) ps = x ++ weave w ps := by
  cases ps with
  | nil => rfl
  | cons p ps => simp [weave]

/-- Where a marker stands before a separator of another cut, it stands before it whole. -/
theorem eq_append_of_lt {m v v' r t : List α} (hm : IsMarker bar m)
    (h : v ++ m ++ r = v' ++ bar :: t) (hlt : v.length < v'.length) :
    ∃ y, v' = v ++ m ++ y ∧ r = y ++ bar :: t := by
  obtain ⟨rest, rfl, hrest⟩ := hm
  rw [List.append_assoc] at h
  obtain ⟨a, rfl, ha⟩ | ⟨c, rfl, -⟩ := List.append_eq_append_iff.mp h
  · have hne : a ≠ [] := by
      rintro rfl
      simp at hlt
    obtain ⟨y, rfl, hy⟩ | ⟨c, hc, hct⟩ := List.append_eq_append_iff.mp ha
    · exact ⟨y, by rw [List.append_assoc], hy⟩
    · obtain ⟨x, a, rfl⟩ := List.exists_cons_of_ne_nil hne
      obtain ⟨-, rfl⟩ := List.cons_eq_cons.mp hc
      cases c with
      | nil =>
        obtain ⟨rfl, -⟩ := List.cons_eq_cons.mp hc
        exact ⟨[], by simp, by rw [List.nil_append, hct, List.nil_append]⟩
      | cons d c =>
        obtain ⟨rfl, -⟩ := List.cons_eq_cons.mp hct
        exact absurd (List.mem_append_right a List.mem_cons_self) hrest
  · rw [List.length_append] at hlt
    exact absurd hlt (by omega)

section

variable {ps : List (List α × List α)}

/-- A clear text cannot be read with one marker more in front. -/
theorem weave_ne_shifted {m w : List α} (hm : IsMarker bar m)
    (hps : ∀ p ∈ ps, IsMarker bar p.1) (hw : ¬ m <:+: w) (h : Clear w ps) (y w' : List α)
    {ps' : List (List α × List α)} (hfst : ps'.map Prod.fst = ps.map Prod.fst) :
    weave w ps ≠ weave y ((m, w') :: ps') := by
  induction ps generalizing m w y w' ps' with
  | nil =>
    intro heq
    rw [List.map_eq_nil_iff.mp hfst] at heq
    exact hw ⟨y, w', heq.symm⟩
  | cons p ps ih =>
    obtain ⟨m₂, w₂⟩ := p
    obtain ⟨p', ps', rfl, hp', htail⟩ := List.map_eq_cons_iff.mp hfst
    obtain ⟨_, w₂'⟩ := p'
    cases hp'
    obtain ⟨hm₂, hmarkers⟩ := List.forall_mem_cons.mp hps
    obtain ⟨-, hw₂, hclear⟩ := h
    intro heq
    change w ++ m₂ ++ weave w₂ ps = y ++ m ++ (w' ++ m₂ ++ weave w₂' ps') at heq
    obtain ⟨rest, rfl, hrest⟩ := hm₂
    rcases Nat.lt_or_ge y.length w.length with hlt | hge
    · rw [List.append_assoc w, List.cons_append] at heq
      obtain ⟨z, rfl, -⟩ := eq_append_of_lt hm heq.symm hlt
      exact hw ⟨y, z, rfl⟩
    · have hcut : w ++ (bar :: rest) ++ weave w₂ ps =
          (y ++ m ++ w') ++ bar :: (rest ++ weave w₂' ps') := by
        rw [heq]
        simp
      have hlen : w.length < (y ++ m ++ w').length := by
        obtain ⟨rest', rfl, -⟩ := hm
        simp
        omega
      obtain ⟨z, -, hz⟩ := eq_append_of_lt ⟨rest, rfl, hrest⟩ hcut hlen
      refine ih ⟨rest, rfl, hrest⟩ hmarkers hw₂ hclear z w₂' htail ?_
      show _ = z ++ (bar :: rest) ++ weave w₂' ps'
      rw [hz]
      simp

/-- A clear text has one reading. -/
theorem weave_injective {v : List α} (hps : ∀ p ∈ ps, IsMarker bar p.1) (h : Clear v ps)
    {v' : List α} {ps' : List (List α × List α)} (hfst : ps'.map Prod.fst = ps.map Prod.fst)
    (heq : weave v ps = weave v' ps') : v' = v ∧ ps' = ps := by
  induction ps generalizing v v' ps' with
  | nil =>
    cases List.map_eq_nil_iff.mp hfst
    exact ⟨heq.symm, rfl⟩
  | cons p ps ih =>
    obtain ⟨m, w⟩ := p
    obtain ⟨p', ps', rfl, hp', htail⟩ := List.map_eq_cons_iff.mp hfst
    obtain ⟨_, w'⟩ := p'
    cases hp'
    obtain ⟨hm, hmarkers⟩ := List.forall_mem_cons.mp hps
    obtain ⟨hv, hw, hclear⟩ := h
    change v ++ m ++ weave w ps = v' ++ m ++ weave w' ps' at heq
    have hm' := hm
    obtain ⟨rest, rfl, -⟩ := hm'
    rcases lt_trichotomy v.length v'.length with hlt | hlen | hlt
    · have hcut : v ++ (bar :: rest) ++ weave w ps = v' ++ bar :: (rest ++ weave w' ps') := by
        rw [heq]
        simp
      obtain ⟨z, -, hz⟩ := eq_append_of_lt hm hcut hlt
      refine absurd ?_ (weave_ne_shifted hm hmarkers hw hclear z w' htail)
      rw [hz]
      simp [weave]
    · rw [List.append_assoc, List.append_assoc] at heq
      obtain ⟨rfl, hrest⟩ := List.append_inj heq hlen
      obtain ⟨rfl, rfl⟩ := ih hmarkers hclear htail (List.append_cancel_left hrest)
      exact ⟨rfl, rfl⟩
    · have hcut : v' ++ (bar :: rest) ++ weave w' ps' = v ++ bar :: (rest ++ weave w ps) := by
        rw [← heq]
        simp
      obtain ⟨z, rfl, -⟩ := eq_append_of_lt hm hcut hlt
      exact absurd ⟨v', z, rfl⟩ hv

/-- A text that is not clear has another reading. -/
theorem exists_reading {v : List α} (hps : ∀ p ∈ ps, p.1 ≠ []) (h : ¬ Clear v ps) :
    ∃ v' ps', ps'.map Prod.fst = ps.map Prod.fst ∧ weave v' ps' = weave v ps ∧
      ¬ (v' = v ∧ ps' = ps) := by
  induction ps generalizing v with
  | nil => exact absurd trivial h
  | cons p ps ih =>
    obtain ⟨m, w⟩ := p
    obtain ⟨hm, hps⟩ := List.forall_mem_cons.mp hps
    have hpos : 0 < m.length := List.length_pos_iff.mpr hm
    by_cases hv : m <:+: v
    · obtain ⟨a, b, rfl⟩ := hv
      refine ⟨a, (m, b ++ m ++ w) :: ps, rfl, ?_, fun ⟨ha, _⟩ => ?_⟩
      · simp [weave, weave_append]
      · have hlen := congrArg List.length ha
        rw [List.length_append, List.length_append] at hlen
        omega
    by_cases hw : m <:+: w
    · obtain ⟨a, b, rfl⟩ := hw
      refine ⟨v ++ m ++ a, (m, b) :: ps, rfl, ?_, fun ⟨ha, _⟩ => ?_⟩
      · simp [weave, weave_append]
      · have hlen := congrArg List.length ha
        rw [List.length_append, List.length_append] at hlen
        omega
    obtain ⟨w', ps', hfst, heq, hne⟩ := ih hps fun hclear => h ⟨hv, hw, hclear⟩
    refine ⟨v, (m, w') :: ps', by rw [List.map_cons, List.map_cons, hfst], ?_, fun ⟨_, hps'⟩ => ?_⟩
    · rw [weave, weave, heq]
    · cases hps'
      exact hne ⟨rfl, rfl⟩

/-- **Unique reading.** -/
theorem clear_iff {v : List α} (hps : ∀ p ∈ ps, IsMarker bar p.1) :
    Clear v ps ↔ ∀ v' ps', ps'.map Prod.fst = ps.map Prod.fst → weave v' ps' = weave v ps →
      v' = v ∧ ps' = ps := by
  constructor
  · exact fun h v' ps' hfst heq => weave_injective hps h hfst heq.symm
  · intro h
    by_contra hnot
    have hne : ∀ p ∈ ps, p.1 ≠ [] := fun p hp => by
      obtain ⟨rest, hrest, -⟩ := hps p hp
      exact hrest ▸ List.cons_ne_nil _ _
    obtain ⟨v', ps', hfst, heq, hdiff⟩ := exists_reading hne hnot
    exact hdiff (h v' ps' hfst heq)

end

/-! ### The last separator -/

/-- Where the right parts lack the separator, it splits the list in one way. -/
theorem append_cons_inj_of_notMem_right {x y d e : List α} (hd : bar ∉ d) (he : bar ∉ e)
    (h : x ++ bar :: d = y ++ bar :: e) : x = y ∧ d = e := by
  have hlast : ∀ {z d' e' : List α}, bar ∉ d' → bar :: d' = z ++ bar :: e' → z = [] := by
    intro z d' e' hd' heq
    cases z with
    | nil => rfl
    | cons a z =>
      rw [List.cons_append, List.cons.injEq] at heq
      rw [heq.2] at hd'
      exact absurd (List.mem_append_right z List.mem_cons_self) hd'
  rcases List.append_eq_append_iff.mp h with ⟨z, hy, heq⟩ | ⟨z, hx, heq⟩
  · obtain rfl := hlast hd heq
    rw [hy, List.append_nil]
    exact ⟨rfl, (List.cons.inj heq).2⟩
  · obtain rfl := hlast he heq
    rw [hx, List.append_nil]
    exact ⟨rfl, (List.cons.inj heq).2.symm⟩

end

end Lib
