import Mathlib

/-!
# Lib.FixedWindow — counting calls in windows of a fixed width

A counter admits at most `limit` calls in a window; the first call `width` or more after the
window's start opens the next one.  `hits` is the record of the calls at the given times.  Windows
start at least `width` apart, so an interval of that length meets at most two of them
(`admitted_interval_le`), and a window that has run out may as well be forgotten (`hit_alike`).
-/

namespace Lib.FixedWindow

variable {τ : Type*} [AddCommGroup τ] [LinearOrder τ]

structure Window (τ : Type*) where
  count : ℕ
  start : τ

/-- The window has run out at `now`, or there is none. -/
def Spent (width now : τ) : Option (Window τ) → Prop
  | none => True
  | some w => width ≤ now - w.start

/-- The window a call at `now` falls into. -/
def current (width now : τ) : Option (Window τ) → Window τ
  | none => ⟨0, now⟩
  | some w => if width ≤ now - w.start then ⟨0, now⟩ else w

/-- One call: admitted, or denied with the time left until the window has run out. -/
def hit (limit : ℤ) (width now : τ) (w : Option (Window τ)) : Window τ × Option τ :=
  if limit ≤ (current width now w).count then
    (current width now w, some ((current width now w).start + width - now))
  else
    (⟨(current width now w).count + 1, (current width now w).start⟩, none)

/-- The next call of the record. -/
def advance (limit : ℤ) (width : τ) (s : Option (Window τ) × List (τ × Option τ)) (now : τ) :
    Option (Window τ) × List (τ × Option τ) :=
  (some (hit limit width now s.1).1, s.2 ++ [(now, (hit limit width now s.1).2)])

/-- Calls at these times: the last window, and each call with its answer. -/
def hits (limit : ℤ) (width : τ) (times : List τ) : Option (Window τ) × List (τ × Option τ) :=
  times.foldl (advance limit width) (none, [])

/-- The times of the admitted calls. -/
def admitted (l : List (τ × Option τ)) : List τ :=
  l.filterMap fun e => if e.2.isNone then some e.1 else none

theorem hits_concat (limit : ℤ) (width : τ) (times : List τ) (now : τ) :
    hits limit width (times ++ [now]) = advance limit width (hits limit width times) now := by
  simp [hits, List.foldl_append]

omit [AddCommGroup τ] [LinearOrder τ] in
theorem admitted_concat (l : List (τ × Option τ)) (e : τ × Option τ) :
    admitted (l ++ [e]) = admitted l ++ if e.2.isNone then [e.1] else [] := by
  rw [admitted, List.filterMap_append]
  cases h : e.2.isNone <;> simp only [admitted, h, List.filterMap_cons, List.filterMap_nil] <;> simp

/-- An admitted call is counted. -/
theorem le_hit_count (limit : ℤ) {width now : τ} {v : Option (Window τ)} {n : ℕ}
    (h : n ≤ (current width now v).count) :
    (n + if (hit limit width now v).2.isNone then 1 else 0) ≤ (hit limit width now v).1.count := by
  unfold hit
  by_cases hfull : limit ≤ (current width now v).count
  · simpa [if_pos hfull] using h
  · simpa [if_neg hfull] using h

theorem mem_of_mem_admitted {limit : ℤ} {width t : τ} {times : List τ}
    (h : t ∈ admitted (hits limit width times).2) : t ∈ times := by
  induction times using List.reverseRecOn with
  | nil => simp [hits, admitted] at h
  | append_singleton times now ih =>
    rw [hits_concat, advance, admitted_concat] at h
    rcases List.mem_append.mp h with h | h
    · exact List.mem_append_left _ (ih h)
    · by_cases hadm : (hit limit width now (hits limit width times).1).2.isNone
      · rw [if_pos hadm] at h
        exact List.mem_append_right _ h
      · rw [if_neg hadm] at h
        cases h

/-! ### A window that has run out is as good as none -/

theorem current_of_spent {width now : τ} {w : Option (Window τ)} (h : Spent width now w) :
    current width now w = ⟨0, now⟩ := by
  cases w with
  | none => rfl
  | some w => exact if_pos h

theorem current_of_not_spent {width now : τ} {w : Window τ} (h : ¬ Spent width now (some w)) :
    current width now (some w) = w := if_neg h

/-- No window counts past the limit. -/
theorem hit_count_le {limit : ℤ} {width now : τ} {v : Option (Window τ)} (hlimit : 0 ≤ limit)
    (h : ∀ w ∈ v, (w.count : ℤ) ≤ limit) : ((hit limit width now v).1.count : ℤ) ≤ limit := by
  have hcur : ((current width now v).count : ℤ) ≤ limit := by
    cases v with
    | none => exact hlimit
    | some w =>
      by_cases hspent : Spent width now (some w)
      · rw [current_of_spent hspent]
        exact hlimit
      · rw [current_of_not_spent hspent]
        exact h w rfl
  unfold hit
  by_cases hfull : limit ≤ (current width now v).count
  · rw [if_pos hfull]
    exact hcur
  · rw [if_neg hfull]
    push_cast
    omega

/-- Windows that no call from `now` on tells apart. -/
def Alike (width now : τ) (v w : Option (Window τ)) : Prop :=
  v = w ∨ Spent width now v ∧ Spent width now w

theorem Alike.trans {width now : τ} {u v w : Option (Window τ)} (h : Alike width now u v)
    (h' : Alike width now v w) : Alike width now u w := by
  rcases h with rfl | ⟨hu, hv⟩
  · exact h'
  · rcases h' with rfl | ⟨-, hw⟩
    · exact Or.inr ⟨hu, hv⟩
    · exact Or.inr ⟨hu, hw⟩

theorem hit_alike (limit : ℤ) {width now : τ} {v w : Option (Window τ)}
    (h : Alike width now v w) : hit limit width now v = hit limit width now w := by
  rcases h with rfl | ⟨hv, hw⟩
  · rfl
  · unfold hit
    rw [current_of_spent hv, current_of_spent hw]

/-! ### A full window -/

/-- The window counts as many calls as it may, and has not run out. -/
structure Full (limit : ℤ) (width now : τ) (w : Window τ) : Prop where
  count : limit ≤ w.count
  live : ¬ Spent width now (some w)

theorem hit_of_full {limit : ℤ} {width now : τ} {w : Window τ} (h : Full limit width now w) :
    hit limit width now (some w) = (w, some (w.start + width - now)) := by
  unfold hit
  rw [current_of_not_spent h.live, if_pos h.count]

theorem hit_of_spent {limit : ℤ} {width now : τ} {v : Option (Window τ)} (hlimit : 0 < limit)
    (h : Spent width now v) : (hit limit width now v).2 = none := by
  unfold hit
  rw [current_of_spent h, if_neg]
  exact not_le.mpr hlimit

/-- Only a full window denies a call. -/
theorem full_of_denied {limit : ℤ} {width now left : τ} {v : Option (Window τ)}
    (hlimit : 0 < limit) (h : (hit limit width now v).2 = some left) :
    ∃ w, v = some w ∧ Full limit width now w ∧ left = w.start + width - now := by
  have hlive : ¬ Spent width now v := by
    intro hspent
    rw [hit_of_spent hlimit hspent] at h
    cases h
  cases v with
  | none => exact absurd trivial hlive
  | some w =>
    unfold hit at h
    rw [current_of_not_spent hlive] at h
    split_ifs at h with hfull
    exact ⟨w, rfl, ⟨hfull, hlive⟩, (Option.some.inj h).symm⟩

/-- Denied calls leave the window as it is. -/
theorem hits_of_full {limit : ℤ} {width : τ} {w : Window τ} {times more : List τ}
    (h : (hits limit width times).1 = some w) (hfull : ∀ now ∈ more, Full limit width now w) :
    (hits limit width (times ++ more)).1 = some w := by
  induction more using List.reverseRecOn with
  | nil => rwa [List.append_nil]
  | append_singleton more now ih =>
    have hbefore := ih fun now' hnow => hfull now' (List.mem_append_left _ hnow)
    rw [← List.append_assoc, hits_concat, advance, hbefore]
    show some (hit limit width now (some w)).1 = some w
    rw [hit_of_full (hfull now (by simp))]

section Order

variable [IsOrderedAddMonoid τ]

theorem Spent.mono {width now now' : τ} {w : Option (Window τ)} (h : Spent width now w)
    (hle : now ≤ now') : Spent width now' w := by
  cases w with
  | none => trivial
  | some w => exact le_trans h (sub_le_sub_right hle _)

theorem Alike.mono {width now now' : τ} {v w : Option (Window τ)} (h : Alike width now v w)
    (hle : now ≤ now') : Alike width now' v w :=
  h.imp id fun ⟨hv, hw⟩ => ⟨hv.mono hle, hw.mono hle⟩

end Order

/-! ### What a window knows of the admitted calls -/

/-- The admitted calls against the running window: its own number `count`, and those before it
that an interval reaching into it still meets are one window's. -/
structure Counted (limit : ℤ) (width : τ) (times : List τ) (w : Window τ) : Prop where
  inside : ∀ t ∈ times, t < w.start + width
  count : times.countP (fun t => w.start ≤ t) = w.count
  le : (w.count : ℤ) ≤ limit
  before : ∀ a, w.start < a + width →
    (times.countP (fun t => a ≤ t ∧ t < w.start) : ℤ) ≤ limit
  interval : ∀ a, (times.countP (fun t => a ≤ t ∧ t < a + width) : ℤ) ≤ 2 * limit

variable {limit : ℤ} {width now : τ} {times : List τ} {w : Window τ}

theorem counted_nil (hlimit : 0 ≤ limit) (now : τ) : Counted limit width [] ⟨0, now⟩ where
  inside := by simp
  count := rfl
  le := hlimit
  before := fun _ _ => by simpa using hlimit
  interval := fun _ => by simpa using hlimit

theorem Counted.countP_le (h : Counted limit width times w) {p : τ → Prop} [DecidablePred p]
    (hp : ∀ t, p t → w.start ≤ t) : (times.countP (fun t => p t) : ℤ) ≤ limit := by
  have hle : times.countP (fun t => p t) ≤ times.countP fun t => w.start ≤ t :=
    List.countP_mono_left fun t _ ht => by simpa using hp t (by simpa using ht)
  have := h.count
  have := h.le
  omega

/-- A count of what two conditions cover between them. -/
theorem countP_le_add {α : Type*} {p q r : α → Prop} [DecidablePred p] [DecidablePred q]
    [DecidablePred r] (h : ∀ t, p t → q t ∨ r t) (l : List α) :
    l.countP (fun t => p t) ≤ l.countP (fun t => q t) + l.countP fun t => r t := by
  induction l with
  | nil => simp
  | cons t l ih =>
    simp only [List.countP_cons, decide_eq_true_eq]
    have := h t
    split_ifs <;> grind

variable [IsOrderedAddMonoid τ]

/-- A new window opens once the running one has run out. -/
theorem Counted.reset (h : Counted limit width times w) (hwidth : 0 < width)
    (hspent : width ≤ now - w.start) : Counted limit width times ⟨0, now⟩ where
  inside := fun t ht => by
    have hend : w.start + width ≤ now := le_sub_iff_add_le'.mp hspent
    exact (h.inside t ht).trans_le (hend.trans (le_add_of_nonneg_right hwidth.le))
  count := by
    have hend : w.start + width ≤ now := le_sub_iff_add_le'.mp hspent
    rw [List.countP_eq_zero]
    intro t ht
    simpa using (h.inside t ht).trans_le hend
  le := le_trans (by simp) h.le
  before := by
    -- an interval that reaches `now` starts inside the old window
    intro a ha
    have hend : w.start + width ≤ now := le_sub_iff_add_le'.mp hspent
    have hstart : w.start < a := lt_of_add_lt_add_right (hend.trans_lt ha)
    exact h.countP_le fun t ht => hstart.le.trans ht.1
  interval := h.interval

/-- One more admitted call of the running window. -/
theorem Counted.cons_now (h : Counted limit width times w) (hstart : w.start ≤ now)
    (hopen : ¬ width ≤ now - w.start) (hroom : (w.count : ℤ) < limit) :
    Counted limit width (times ++ [now]) ⟨w.count + 1, w.start⟩ where
  inside := by
    have hend : now < w.start + width := sub_lt_iff_lt_add'.mp (not_le.mp hopen)
    intro t ht
    rcases List.mem_append.mp ht with ht | ht
    · exact h.inside t ht
    · rw [List.mem_singleton] at ht
      rwa [ht]
  count := by
    rw [List.countP_append, h.count]
    simp [hstart]
  le := by
    push_cast
    omega
  before := by
    intro a ha
    rw [List.countP_append]
    have := h.before a ha
    simpa [not_lt.mpr hstart] using this
  interval := by
    intro a
    rw [List.countP_append]
    have hlast : List.countP (fun t => decide (a ≤ t ∧ t < a + width)) [now] ≤ 1 :=
      List.countP_le_length
    have hnonneg : (0 : ℤ) ≤ w.count := Int.natCast_nonneg _
    by_cases hin : a ≤ now ∧ now < a + width
    · by_cases hle : a ≤ w.start
      · -- the interval reaches back before this window
        have hsplit : times.countP (fun t => a ≤ t ∧ t < a + width) ≤
            times.countP (fun t => a ≤ t ∧ t < w.start) + times.countP fun t => w.start ≤ t :=
          countP_le_add (fun t ht => (lt_or_ge t w.start).imp (fun h => ⟨ht.1, h⟩) id) times
        have := h.before a (hstart.trans_lt hin.2)
        have := h.count
        push_cast
        omega
      · have : (times.countP (fun t => a ≤ t ∧ t < a + width) : ℤ) ≤ w.count := by
          have hle : times.countP (fun t => a ≤ t ∧ t < a + width) ≤
              times.countP fun t => w.start ≤ t :=
            List.countP_mono_left fun t _ ht => by
              simp only [decide_eq_true_eq] at ht ⊢
              exact (not_le.mp hle).le.trans ht.1
          have := h.count
          omega
        push_cast
        omega
    · have hzero : List.countP (fun t => decide (a ≤ t ∧ t < a + width)) [now] = 0 := by
        simpa using fun h1 => not_lt.mp fun h2 => hin ⟨h1, h2⟩
      rw [hzero]
      exact h.interval a

/-- What the record of the calls so far says of the window the next call falls into. -/
def Tracked (limit : ℤ) (width : τ) (times : List τ) : Option (Window τ) → Prop
  | none => times = []
  | some w => Counted limit width times w

theorem Tracked.current {v : Option (Window τ)} (h : Tracked limit width times v)
    (hlimit : 0 ≤ limit) (hwidth : 0 < width) (now : τ) :
    Counted limit width times (current width now v) := by
  cases v with
  | none =>
    have hnil : times = [] := h
    rw [hnil]
    exact counted_nil hlimit now
  | some w =>
    by_cases hspent : Spent width now (some w)
    · rw [current_of_spent hspent]
      exact Counted.reset h hwidth hspent
    · rwa [current_of_not_spent hspent]

omit [IsOrderedAddMonoid τ] in
theorem current_start_le (width : τ) {v : Option (Window τ)} (h : ∀ w ∈ v, w.start ≤ now) :
    (current width now v).start ≤ now ∧ (0 < width → ¬ width ≤ now - (current width now v).start) := by
  cases v with
  | none => exact ⟨le_rfl, fun hw => by simpa [current] using hw⟩
  | some w =>
    by_cases hspent : Spent width now (some w)
    · rw [current_of_spent hspent]
      exact ⟨le_rfl, fun hw => by simpa using hw⟩
    · rw [current_of_not_spent hspent]
      exact ⟨h w rfl, fun _ => hspent⟩

/-- One call keeps the count. -/
theorem tracked_hit {v : Option (Window τ)} (h : Tracked limit width times v) (hlimit : 0 ≤ limit)
    (hwidth : 0 < width) (hle : ∀ w ∈ v, w.start ≤ now) :
    Tracked limit width (times ++ if (hit limit width now v).2.isNone then [now] else [])
        (some (hit limit width now v).1) ∧
      (hit limit width now v).1.start ≤ now := by
  have hcur := h.current hlimit hwidth now
  obtain ⟨hstart, hopen⟩ := current_start_le width hle
  unfold hit
  by_cases hfull : limit ≤ (current width now v).count
  · rw [if_pos hfull]
    exact ⟨by simpa [Tracked] using hcur, hstart⟩
  · rw [if_neg hfull]
    exact ⟨hcur.cons_now hstart (hopen hwidth) (not_le.mp hfull), hstart⟩

/-- A denied call finds `limit` admitted ones within the last `width`. -/
theorem denied_count {v : Option (Window τ)} {left : τ} (h : Tracked limit width times v)
    (hlimit : 0 ≤ limit) (hwidth : 0 < width) (hle : ∀ w ∈ v, w.start ≤ now)
    (hden : (hit limit width now v).2 = some left) :
    limit ≤ times.countP fun t => now - width < t := by
  have hcur := h.current hlimit hwidth now
  obtain ⟨hstart, hopen⟩ := current_start_le width hle
  unfold hit at hden
  by_cases hfull : limit ≤ (current width now v).count
  · have hnow : now - width < (current width now v).start :=
      sub_lt_comm.mp (not_le.mp (hopen hwidth))
    have hmono : times.countP (fun t => (current width now v).start ≤ t) ≤
        times.countP fun t => now - width < t := by
      refine List.countP_mono_left fun t _ ht => ?_
      simp only [decide_eq_true_eq] at ht ⊢
      exact hnow.trans_le ht
    have := hcur.count
    omega
  · rw [if_neg hfull] at hden
    cases hden

/-! ### Runs -/

theorem hits_tracked (hlimit : 0 ≤ limit) (hwidth : 0 < width) (times : List τ)
    (hclock : times.Pairwise (· ≤ ·)) :
    Tracked limit width (admitted (hits limit width times).2) (hits limit width times).1 ∧
      ∀ now, (∀ t ∈ times, t ≤ now) → ∀ w ∈ (hits limit width times).1, w.start ≤ now := by
  induction times using List.reverseRecOn with
  | nil => exact ⟨rfl, by simp [hits]⟩
  | append_singleton times now ih =>
    obtain ⟨hbefore, -, hlast⟩ := List.pairwise_append.mp hclock
    obtain ⟨htr, hle⟩ := ih hbefore
    obtain ⟨hnext, hstart⟩ := tracked_hit htr hlimit hwidth
      (hle now fun t ht => hlast t ht now List.mem_cons_self)
    rw [hits_concat, advance, admitted_concat]
    refine ⟨hnext, fun now' hall w hw => ?_⟩
    rw [Option.mem_some_iff] at hw
    subst hw
    exact hstart.trans (hall now (by simp))

/-- **Two windows**: an interval of a window's width holds at most `2 * limit` admitted calls. -/
theorem admitted_interval_le (hlimit : 0 ≤ limit) (hwidth : 0 < width) {times : List τ}
    (hclock : times.Pairwise (· ≤ ·)) (a : τ) :
    ((admitted (hits limit width times).2).countP (fun t => a ≤ t ∧ t < a + width) : ℤ) ≤
      2 * limit := by
  have htr := (hits_tracked hlimit hwidth times hclock).1
  cases h : (hits limit width times).1 with
  | none =>
    rw [h] at htr
    have hnil : admitted (hits limit width times).2 = [] := htr
    rw [hnil, List.countP_nil]
    push_cast
    omega
  | some w =>
    rw [h] at htr
    exact Counted.interval htr a

/-- **No early denial**: a denied call finds `limit` admitted ones within the last `width`. -/
theorem le_admitted_of_denied (hlimit : 0 ≤ limit) (hwidth : 0 < width) {times : List τ}
    {now left : τ} (hclock : (times ++ [now]).Pairwise (· ≤ ·))
    (hden : (hit limit width now (hits limit width times).1).2 = some left) :
    limit ≤ (admitted (hits limit width times).2).countP fun t => now - width < t := by
  obtain ⟨hbefore, -, hlast⟩ := List.pairwise_append.mp hclock
  obtain ⟨htr, hle⟩ := hits_tracked hlimit hwidth times hbefore
  exact denied_count htr hlimit hwidth
    (hle now fun t ht => hlast t ht now List.mem_cons_self) hden

end Lib.FixedWindow
