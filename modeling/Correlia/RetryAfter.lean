import Correlia.RateLimiting

/-!
# RetryAfter — what a denied call is told

A denied call finds its key's window full, and is told the whole seconds until that window has run
out.  Until then further calls are denied and nothing moves the window (`retry_after`).
-/

namespace Correlia

open Lib FixedWindow

section

variable {limits : Limits} {key : String} {w : Window ℚ}

/-- `reset_at` -/
def resetAt (limits : Limits) (key : String) (w : Window ℚ) : ℚ := w.start + limits.window key

theorem not_spent_iff {now : ℚ} :
    ¬ Spent (limits.window key : ℚ) now (some w) ↔ now < resetAt limits key w := by
  unfold Spent resetAt
  rw [not_le, sub_lt_iff_lt_add']

theorem check_answer (limiter : InProcessRateLimiter) (now : ℚ) :
    (limiter.check now key (limits.limit key) (limits.window key)).2 =
      toResult (hit (limits.limit key) (limits.window key : ℚ) now (limiter.windowOf key)).2 :=
  congrArg Prod.snd (check_eq limiter now key _ _)

/-- The whole seconds left of a window that has not run out. -/
theorem ceil_left {limit : ℤ} {now : ℚ} (hfull : Full limit (limits.window key : ℚ) now w)
    (hstart : w.start ≤ now) :
    let r := max 1 ⌈w.start + limits.window key - now⌉
    1 ≤ r ∧ r ≤ limits.window key ∧ now + r - 1 < resetAt limits key w ∧
      resetAt limits key w ≤ now + r := by
  intro r
  have hlive := not_spent_iff.mp hfull.live
  unfold resetAt at hlive ⊢
  have hpos : 1 ≤ ⌈w.start + limits.window key - now⌉ := by
    apply Int.one_le_ceil_iff.mpr
    linarith
  have hr : r = ⌈w.start + limits.window key - now⌉ := max_eq_right hpos
  rw [hr]
  have hle := Int.le_ceil (w.start + limits.window key - now)
  have hlt := Int.ceil_lt_add_one (w.start + limits.window key - now)
  refine ⟨hpos, ?_, by linarith, by linarith⟩
  apply Int.ceil_le.mpr
  linarith

/-- The key's own counter, as it stands after a run. -/
theorem alike_after (limits : Limits) (key : String) {calls : List LimiterCall} {u : ℚ}
    (hclock : InOrder (calls ++ [.check u key])) :
    Alike (limits.window key : ℚ) u ((limiterAfter limits calls).windowOf key)
      (aloneHits limits key calls).1 := by
  obtain ⟨hbefore, -, hlast⟩ := List.pairwise_append.mp hclock
  exact (limiter_refines limits key calls hbefore).2 u fun c hc =>
    hlast c hc _ List.mem_cons_self

theorem timesOf_append (key : String) (calls more : List LimiterCall) :
    timesOf key (calls ++ more) = timesOf key calls ++ timesOf key more := List.filterMap_append

theorem mem_timesOf {calls : List LimiterCall} {u : ℚ} :
    u ∈ timesOf key calls ↔ ∃ c ∈ calls, c.key? = some key ∧ c.now = u := by
  simp only [timesOf, List.mem_filterMap, Option.ite_none_right_eq_some, Option.some.injEq]

/-- While the key's window is full, its own counter keeps it. -/
theorem alone_of_full {earlier more : List LimiterCall}
    (hw : (aloneHits limits key earlier).1 = some w) (hcount : limits.limit key ≤ w.count)
    (hmore : ∀ c ∈ more, c.key? = some key → c.now < resetAt limits key w) :
    (aloneHits limits key (earlier ++ more)).1 = some w := by
  unfold aloneHits at *
  rw [timesOf_append]
  apply hits_of_full hw
  intro now hnow
  obtain ⟨c, hc, hkey, rfl⟩ := mem_timesOf.mp hnow
  exact ⟨hcount, not_spent_iff.mpr (hmore c hc hkey)⟩

/-- After calls that all come before `e` there is time for one more. -/
theorem exists_next_check {calls : List LimiterCall} {e : ℚ} (hclock : InOrder calls)
    (hall : ∀ c ∈ calls, c.now < e) : ∃ u < e, InOrder (calls ++ [.check u key]) := by
  have hnext : ∀ u, (∀ c ∈ calls, c.now ≤ u) → InOrder (calls ++ [.check u key]) := fun u hle =>
    List.pairwise_append.mpr ⟨hclock, List.pairwise_singleton _ _, fun c hc d hd => by
      rw [List.mem_singleton.mp hd]
      exact hle c hc⟩
  rcases List.eq_nil_or_concat' calls with rfl | ⟨init, c, rfl⟩
  · exact ⟨e - 1, by linarith, hnext _ (by simp)⟩
  · refine ⟨c.now, hall c (by simp), hnext _ fun d hd => ?_⟩
    rcases List.mem_append.mp hd with hd | hd
    · exact (List.pairwise_append.mp hclock).2.2 d hd c List.mem_cons_self
    · rw [List.mem_singleton.mp hd]

end

/-- **Retry-After.**  A denied check at `t` is told seconds `r` between one and the window's length,
the whole seconds until its key's window has run out.  Before that, every check of the key is
denied and no call moves the window; the first check of the key after that is admitted. -/
theorem retry_after (limits : Limits) (key : String) (earlier : List LimiterCall) (t : ℚ)
    (retryAfter : Option ℤ) (hclock : InOrder (earlier ++ [.check t key]))
    (hdenied : ((limiterAfter limits earlier).check t key
      (limits.limit key) (limits.window key)).2 = ⟨false, retryAfter⟩) :
    ∃ (w : Window ℚ) (r : ℤ), (limiterAfter limits earlier).windowOf key = some w ∧
      retryAfter = some r ∧ 1 ≤ r ∧ r ≤ limits.window key ∧
      t + r - 1 < resetAt limits key w ∧ resetAt limits key w ≤ t + r ∧
      ∀ between : List LimiterCall, InOrder (earlier ++ .check t key :: between) →
        ((∀ c ∈ between, c.now < resetAt limits key w) →
          (limiterAfter limits (earlier ++ .check t key :: between)).windowOf key = some w) ∧
        ∀ u : ℚ, InOrder (earlier ++ .check t key :: between ++ [.check u key]) →
          (u < resetAt limits key w →
            ((limiterAfter limits (earlier ++ .check t key :: between)).check u key
              (limits.limit key) (limits.window key)).2.allowed = false) ∧
          (resetAt limits key w ≤ u →
            (∀ c ∈ between, c.key? = some key → c.now < resetAt limits key w) →
            ((limiterAfter limits (earlier ++ .check t key :: between)).check u key
              (limits.limit key) (limits.window key)).2.allowed = true) := by
  have hlimit : 0 < limits.limit key := (limits.limit_pos key).trans_lt' zero_lt_one
  rw [check_answer] at hdenied
  cases hhit : (hit (limits.limit key) (limits.window key : ℚ) t
      ((limiterAfter limits earlier).windowOf key)).2 with
  | none =>
    rw [hhit] at hdenied
    cases hdenied
  | some left =>
    rw [hhit] at hdenied
    cases hdenied
    obtain ⟨w, hw, hfull, rfl⟩ := full_of_denied hlimit hhit
    have hlive := not_spent_iff.mp hfull.live
    -- the counter of this key alone holds the same window
    have halone : (aloneHits limits key earlier).1 = some w := by
      have halike := alike_after limits key hclock
      rw [hw] at halike
      rcases halike with heq | ⟨hspent, -⟩
      · exact heq.symm
      · exact absurd hspent hfull.live
    have hstart : w.start ≤ t := by
      obtain ⟨hbefore, -, hlast⟩ := List.pairwise_append.mp hclock
      have hwidth : (0 : ℚ) < limits.window key := by
        exact_mod_cast (limits.window_pos key).trans_lt' zero_lt_one
      refine (hits_tracked hlimit.le hwidth _ (timesOf_clock hbefore)).2 t (fun u hu => ?_) w halone
      obtain ⟨c, hc, -, rfl⟩ := mem_timesOf.mp hu
      exact hlast c hc _ List.mem_cons_self
    obtain ⟨hone, hwindow, hlt, hle⟩ := ceil_left hfull hstart
    refine ⟨w, _, hw, rfl, hone, hwindow, hlt, hle, fun between hbetween => ?_⟩
    have hkept : (∀ c ∈ between, c.key? = some key → c.now < resetAt limits key w) →
        (aloneHits limits key (earlier ++ .check t key :: between)).1 = some w := fun hall =>
      alone_of_full halone hfull.count (List.forall_mem_cons.mpr ⟨fun _ => hlive, hall⟩)
    -- what the limiter holds at a time before the reset
    have hheld : (∀ c ∈ between, c.now < resetAt limits key w) → ∀ u, u < resetAt limits key w →
        InOrder (earlier ++ .check t key :: between ++ [.check u key]) →
        (limiterAfter limits (earlier ++ .check t key :: between)).windowOf key = some w := by
      intro hall u hu horder
      have halike := alike_after limits key horder
      rw [hkept fun c hc _ => hall c hc] at halike
      rcases halike with heq | ⟨-, hspent⟩
      · exact heq
      · exact absurd hspent (not_spent_iff.mpr hu)
    refine ⟨fun hall => ?_, fun u horder => ⟨fun hu => ?_, fun hu hall => ?_⟩⟩
    · have hbefore : ∀ c ∈ earlier ++ .check t key :: between, c.now < resetAt limits key w := by
        intro c hc
        rcases List.mem_append.mp hc with hc | hc
        · have hle := (List.pairwise_append.mp hbetween).2.2 c hc _ List.mem_cons_self
          exact hle.trans_lt hlive
        · rcases List.mem_cons.mp hc with rfl | hc
          · exact hlive
          · exact hall c hc
      obtain ⟨u, hu, horder⟩ := exists_next_check hbetween hbefore
      exact hheld hall u hu horder
    · have hall : ∀ c ∈ between, c.now < resetAt limits key w := fun c hc => by
        have hlast := (List.pairwise_append.mp horder).2.2 c (by simp [hc]) _ List.mem_cons_self
        exact lt_of_le_of_lt hlast hu
      rw [check_answer, hheld hall u hu horder,
        hit_of_full ⟨hfull.count, not_spent_iff.mpr hu⟩]
      rfl
    · have halike := alike_after limits key horder
      rw [hkept hall] at halike
      have hspent : Spent (limits.window key : ℚ) u (some w) := by
        by_contra hnot
        exact absurd (not_spent_iff.mp hnot) (not_lt.mpr hu)
      rw [check_answer, hit_alike _ halike, hit_of_spent hlimit hspent]
      rfl

/-! ### A check between the reset and the announced time -/

theorem tenSeconds_pos (_ : String) : 1 ≤ (10 : ℤ) := by decide

def onePerTen : Limits := ⟨fun _ => 1, fun _ => 10, fun _ => by decide, tenSeconds_pos⟩

/-- Told to come back after ten seconds at 1/2, where the window runs out at 10: a check at 51/5 is
admitted, and the one at 21/2, ten seconds later, denied. -/
theorem retry_overtaken :
    answersTo "a" (limiterLog onePerTen
        [.check 0 "a", .check (1 / 2) "a", .check (51 / 5) "a", .check (21 / 2) "a"]) =
      [(0, ⟨true, none⟩), (1 / 2, ⟨false, some 10⟩), (51 / 5, ⟨true, none⟩),
        (21 / 2, ⟨false, some 10⟩)] := by
  decide +kernel

theorem retry_after_sample : ∃ (w : Window ℚ) (r : ℤ), (10 : ℤ) = r ∧
    (1 / 2 : ℚ) + r - 1 < resetAt onePerTen "a" w := by
  have hclock : InOrder ([.check 0 "a"] ++ [.check (1 / 2) "a"]) := by
    simp [InOrder, LimiterCall.now]
  have hdenied : ((limiterAfter onePerTen [.check 0 "a"]).check (1 / 2) "a" 1 10).2 =
      ⟨false, some 10⟩ := by
    decide +kernel
  obtain ⟨w, r, -, hr, -, -, hlt, -⟩ :=
    retry_after onePerTen "a" [.check 0 "a"] (1 / 2) (some 10) hclock hdenied
  exact ⟨w, r, Option.some.inj hr, hlt⟩

end Correlia
