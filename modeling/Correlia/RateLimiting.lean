import Correlia.Lib.FixedWindow
import Correlia.Lib.Run
import Correlia.Middleware.RateLimit

/-!
# RateLimiting — what the limiter admits over whole runs

The counters of all keys, swept at any time, answer each key as one window counter of its own
would that is never swept (`limiter_refines`).
-/

namespace Correlia

open Lib FixedWindow

/-- A limit and a window for each key. -/
structure Limits where
  limit : String → ℤ
  window : String → ℤ
  limit_pos : ∀ key, 1 ≤ limit key
  window_pos : ∀ key, 1 ≤ window key

inductive LimiterCall
  | check (now : ℚ) (key : String)
  | sweepExpired (now : ℚ)

def LimiterCall.now : LimiterCall → ℚ
  | .check now _ => now
  | .sweepExpired now => now

/-- The clock does not go back. -/
def InOrder (calls : List LimiterCall) : Prop := calls.Pairwise fun c d => c.now ≤ d.now

/-- The key a call checks. -/
def LimiterCall.key? : LimiterCall → Option String
  | .check _ key => some key
  | .sweepExpired _ => none

inductive LimiterReply
  | checked (result : CheckResult)
  | swept (removed : ℕ)

def limiterStep (limits : Limits) :
    LimiterCall → InProcessRateLimiter → Except Empty (InProcessRateLimiter × LimiterReply)
  | .check now key, limiter =>
    let r := limiter.check now key (limits.limit key) (limits.window key)
    .ok (r.1, .checked r.2)
  | .sweepExpired now, limiter =>
    .ok ((limiter.sweepExpired now).1, .swept (limiter.sweepExpired now).2)

def limiterAfter (limits : Limits) (calls : List LimiterCall) : InProcessRateLimiter :=
  run (limiterStep limits) {} calls

def limiterLog (limits : Limits) (calls : List LimiterCall) : List (LimiterCall × LimiterReply) :=
  log (limiterStep limits) {} calls

/-- The checks of a key, each with its time and its answer. -/
def answersTo (key : String) (l : List (LimiterCall × LimiterReply)) : List (ℚ × CheckResult) :=
  l.filterMap fun
    | (.check now k, .checked result) => if k = key then some (now, result) else none
    | _ => none

/-- The times at which calls of a key were admitted. -/
def admittedTimes (key : String) (l : List (LimiterCall × LimiterReply)) : List ℚ :=
  (answersTo key l).filterMap fun e => if e.2.allowed then some e.1 else none

/-- A check of the key at `now` starts its window anew. -/
def opensWindow (limits : Limits) (limiter : InProcessRateLimiter) (now : ℚ) (key : String) :
    Prop :=
  ∀ c ∈ limiter.counters.get key, (limits.window key : ℚ) ≤ now - c.windowStart

/-! ### One call against the window counter -/

namespace InProcessRateLimiter

def windowOf (limiter : InProcessRateLimiter) (key : String) : Option (Window ℚ) :=
  (limiter.counters.get key).map fun c => ⟨c.count, c.windowStart⟩

end InProcessRateLimiter

/-- The answer of a window counter as `check` gives it. -/
def toResult : Option ℚ → CheckResult
  | none => ⟨true, none⟩
  | some left => ⟨false, some (max 1 ⌈left⌉)⟩

section Limiter

variable {limits : Limits} {limiter : InProcessRateLimiter} {now : ℚ} {key : String}

theorem opensWindow_iff :
    opensWindow limits limiter now key ↔ Spent (limits.window key : ℚ) now (limiter.windowOf key) := by
  unfold opensWindow InProcessRateLimiter.windowOf
  cases limiter.counters.get key with
  | none => simp [Spent]
  | some c => simp [Spent]

/-- The counter `check` goes on with is the window a call at `now` falls into. -/
theorem check_current (limiter : InProcessRateLimiter) (now : ℚ) (key : String) (window : ℤ) :
    let found := (limiter.counters.get key).getD ⟨0, now, window⟩
    (if now - found.windowStart ≥ window then (⟨0, now, window⟩ : Counter)
      else ⟨found.count, found.windowStart, window⟩) =
      ⟨(current (window : ℚ) now (limiter.windowOf key)).count,
        (current (window : ℚ) now (limiter.windowOf key)).start, window⟩ := by
  unfold InProcessRateLimiter.windowOf
  cases limiter.counters.get key with
  | none => simp [current]
  | some c =>
    simp only [Option.getD_some, Option.map_some, current, ge_iff_le]
    by_cases h : (window : ℚ) ≤ now - c.windowStart
    · rw [if_pos h, if_pos h]
    · rw [if_neg h, if_neg h]

theorem check_eq (limiter : InProcessRateLimiter) (now : ℚ) (key : String) (limit window : ℤ) :
    limiter.check now key limit window =
      (⟨limiter.counters.set key
        ⟨(hit limit (window : ℚ) now (limiter.windowOf key)).1.count,
          (hit limit (window : ℚ) now (limiter.windowOf key)).1.start, window⟩⟩,
        toResult (hit limit (window : ℚ) now (limiter.windowOf key)).2) := by
  unfold InProcessRateLimiter.check
  dsimp only
  rw [check_current limiter now key window]
  unfold hit
  dsimp only
  by_cases h : limit ≤ (current (window : ℚ) now (limiter.windowOf key)).count
  · rw [if_pos h, if_pos h]
    rfl
  · rw [if_neg h, if_neg h]
    rfl

/-- Every entry has its key's window and at most its key's limit. -/
def Kept (limits : Limits) (limiter : InProcessRateLimiter) : Prop :=
  ∀ key c, limiter.counters.get key = some c →
    c.windowSeconds = limits.window key ∧ (c.count : ℤ) ≤ limits.limit key

theorem mem_expired (hkept : Kept limits limiter) :
    key ∈ limiter.expired now ↔
      limiter.windowOf key ≠ none ∧ Spent (limits.window key : ℚ) now (limiter.windowOf key) := by
  unfold InProcessRateLimiter.expired InProcessRateLimiter.windowOf
  rw [List.mem_map]
  constructor
  · rintro ⟨⟨k, c⟩, he, rfl⟩
    obtain ⟨hmem, hspent⟩ := List.mem_filter.mp he
    have hget := Items.get_eq_some.mpr hmem
    obtain ⟨hwin, -⟩ := hkept k c hget
    rw [hget]
    exact ⟨by simp, by simpa [Spent, hwin] using hspent⟩
  · rintro ⟨hsome, hspent⟩
    cases hget : limiter.counters.get key with
    | none => simp [hget] at hsome
    | some c =>
      obtain ⟨hwin, -⟩ := hkept key c hget
      rw [hget] at hspent
      refine ⟨(key, c), List.mem_filter.mpr ⟨Items.get_eq_some.mp hget, ?_⟩, rfl⟩
      simpa [Spent, hwin] using hspent

theorem windowOf_check (limiter : InProcessRateLimiter) (now : ℚ) (k key : String)
    (limit window : ℤ) :
    (limiter.check now k limit window).1.windowOf key =
      if k = key then some (hit limit (window : ℚ) now (limiter.windowOf key)).1
      else limiter.windowOf key := by
  rw [check_eq, InProcessRateLimiter.windowOf, Items.get_set]
  by_cases h : k = key
  · subst h
    rw [if_pos rfl, if_pos rfl]
    rfl
  · rw [if_neg h, if_neg h]
    rfl

/-- A sweep forgets the windows that have run out. -/
theorem windowOf_sweep (hkept : Kept limits limiter) (now : ℚ) (key : String) :
    Alike (limits.window key : ℚ) now (((limiter.sweepExpired now).1).windowOf key)
        (limiter.windowOf key) ∧
      (((limiter.sweepExpired now).1).windowOf key = none ∨
        ((limiter.sweepExpired now).1).windowOf key = limiter.windowOf key) := by
  have hget : ((limiter.sweepExpired now).1).windowOf key =
      if key ∈ limiter.expired now then none else limiter.windowOf key := by
    unfold InProcessRateLimiter.sweepExpired InProcessRateLimiter.windowOf
    rw [Items.get_delete]
    by_cases h : key ∈ limiter.expired now
    · rw [if_pos h, if_pos h]
      rfl
    · rw [if_neg h, if_neg h]
  rw [hget]
  by_cases h : key ∈ limiter.expired now
  · rw [if_pos h]
    exact ⟨Or.inr ⟨trivial, ((mem_expired hkept).mp h).2⟩, Or.inl rfl⟩
  · rw [if_neg h]
    exact ⟨Or.inl rfl, Or.inr rfl⟩

theorem kept_check (hkept : Kept limits limiter) (now : ℚ) (k : String) :
    Kept limits (limiter.check now k (limits.limit k) (limits.window k)).1 := by
  intro key c hc
  rw [check_eq, Items.get_set] at hc
  by_cases h : k = key
  · subst h
    rw [if_pos rfl, Option.some.injEq] at hc
    subst hc
    refine ⟨rfl, hit_count_le (by linarith [limits.limit_pos k]) fun w hw => ?_⟩
    obtain ⟨c, hget, rfl⟩ := Option.map_eq_some_iff.mp hw
    exact (hkept k c hget).2
  · rw [if_neg h] at hc
    exact hkept key c hc

theorem kept_sweep (hkept : Kept limits limiter) (now : ℚ) :
    Kept limits (limiter.sweepExpired now).1 := by
  intro key c hc
  unfold InProcessRateLimiter.sweepExpired at hc
  rw [Items.get_delete] at hc
  by_cases h : key ∈ limiter.expired now
  · rw [if_pos h] at hc
    cases hc
  · rw [if_neg h] at hc
    exact hkept key c hc

/-! ### Runs -/

theorem kept_after (limits : Limits) (calls : List LimiterCall) :
    Kept limits (limiterAfter limits calls) := by
  refine run_invariant (P := Kept limits) ?_ ?_ calls
  · intro key c hc
    cases hc
  · rintro s (⟨now, k⟩ | now) s' o hs hstep
    · cases hstep
      exact kept_check hs now k
    · cases hstep
      exact kept_sweep hs now

theorem limiter_concat_check (limits : Limits) (calls : List LimiterCall) (now : ℚ) (k : String) :
    limiterAfter limits (calls ++ [.check now k]) =
        ((limiterAfter limits calls).check now k (limits.limit k) (limits.window k)).1 ∧
      limiterLog limits (calls ++ [.check now k]) = limiterLog limits calls ++
        [(.check now k, .checked
          ((limiterAfter limits calls).check now k (limits.limit k) (limits.window k)).2)] :=
  run_concat_ok rfl

theorem limiter_concat_sweep (limits : Limits) (calls : List LimiterCall) (now : ℚ) :
    limiterAfter limits (calls ++ [.sweepExpired now]) =
        ((limiterAfter limits calls).sweepExpired now).1 ∧
      limiterLog limits (calls ++ [.sweepExpired now]) = limiterLog limits calls ++
        [(.sweepExpired now, .swept ((limiterAfter limits calls).sweepExpired now).2)] :=
  run_concat_ok rfl

/-- The times at which a key is checked. -/
def timesOf (key : String) (calls : List LimiterCall) : List ℚ :=
  calls.filterMap fun c => if c.key? = some key then some c.now else none

theorem timesOf_check (calls : List LimiterCall) (now : ℚ) (k : String) :
    timesOf key (calls ++ [.check now k]) =
      timesOf key calls ++ if k = key then [now] else [] := by
  unfold timesOf
  rw [List.filterMap_append]
  by_cases h : k = key <;> simp [LimiterCall.key?, LimiterCall.now, h]

theorem timesOf_sweep (calls : List LimiterCall) (now : ℚ) :
    timesOf key (calls ++ [.sweepExpired now]) = timesOf key calls := by
  unfold timesOf
  rw [List.filterMap_append]
  simp [LimiterCall.key?]

theorem answersTo_concat (l : List (LimiterCall × LimiterReply)) (now : ℚ) (k : String)
    (result : CheckResult) :
    answersTo key (l ++ [(.check now k, .checked result)]) =
      answersTo key l ++ if k = key then [(now, result)] else [] := by
  unfold answersTo
  rw [List.filterMap_append]
  by_cases h : k = key <;> simp [h]

theorem answersTo_concat_sweep (l : List (LimiterCall × LimiterReply)) (now : ℚ) (n : ℕ) :
    answersTo key (l ++ [(.sweepExpired now, .swept n)]) = answersTo key l := by
  unfold answersTo
  rw [List.filterMap_append]
  simp

/-- The record of a window counter for one key alone. -/
def aloneHits (limits : Limits) (key : String) (calls : List LimiterCall) :
    Option (Window ℚ) × List (ℚ × Option ℚ) :=
  hits (limits.limit key) (limits.window key : ℚ) (timesOf key calls)

/-- **Refinement**: the limiter answers a key as a window counter for that key alone, never swept,
and holds its window or has forgotten it once it ran out. -/
theorem limiter_refines (limits : Limits) (key : String) (calls : List LimiterCall)
    (hclock : InOrder calls) :
    answersTo key (limiterLog limits calls) =
        (aloneHits limits key calls).2.map (fun e => (e.1, toResult e.2)) ∧
      ∀ now, (∀ c ∈ calls, c.now ≤ now) →
        Alike (limits.window key : ℚ) now ((limiterAfter limits calls).windowOf key)
          (aloneHits limits key calls).1 := by
  induction calls using List.reverseRecOn with
  | nil => exact ⟨rfl, fun _ _ => Or.inl rfl⟩
  | append_singleton calls c ih =>
    obtain ⟨hbefore, -, hlast⟩ := List.pairwise_append.mp hclock
    obtain ⟨hans, halike⟩ := ih hbefore
    have hnow : ∀ d ∈ calls, d.now ≤ c.now := fun d hd => hlast d hd c List.mem_cons_self
    have hc := halike c.now hnow
    unfold aloneHits at *
    cases c with
    | sweepExpired t =>
      obtain ⟨hafter, hlog⟩ := limiter_concat_sweep limits calls t
      rw [hafter, hlog, answersTo_concat_sweep, timesOf_sweep]
      refine ⟨hans, fun now hall => ?_⟩
      have hle : t ≤ now := hall (.sweepExpired t) (by simp)
      exact ((windowOf_sweep (kept_after limits calls) t key).1.trans hc).mono hle
    | check t k =>
      obtain ⟨hafter, hlog⟩ := limiter_concat_check limits calls t k
      rw [hafter, hlog, answersTo_concat, timesOf_check]
      by_cases hk : k = key
      · subst hk
        have hc' : Alike (limits.window k : ℚ) t _ _ := hc
        rw [if_pos rfl, if_pos rfl, hits_concat, FixedWindow.advance, List.map_append, hans, check_eq,
          hit_alike (limits.limit k) hc']
        refine ⟨rfl, fun now _ => Or.inl ?_⟩
        rw [InProcessRateLimiter.windowOf, Items.get_set, if_pos rfl]
        rfl
      · rw [if_neg hk, if_neg hk, List.append_nil, List.append_nil, windowOf_check, if_neg hk]
        exact ⟨hans, fun now hall => halike now fun d hd => hall d (List.mem_append_left _ hd)⟩

/-- The answers for a key depend on the times of its own checks only. -/
theorem answersTo_congr {calls calls' : List LimiterCall}
    (hclock : InOrder calls)
    (hclock' : InOrder calls')
    (htimes : timesOf key calls' = timesOf key calls) :
    answersTo key (limiterLog limits calls') = answersTo key (limiterLog limits calls) := by
  rw [(limiter_refines limits key calls hclock).1, (limiter_refines limits key calls' hclock').1,
    aloneHits, aloneHits, htimes]

/-- Calls that are not checks of the key leave no mark on its times. -/
theorem timesOf_filter {p : LimiterCall → Bool} (hp : ∀ c, c.key? = some key → p c = true)
    (calls : List LimiterCall) : timesOf key (calls.filter p) = timesOf key calls := by
  unfold timesOf
  rw [List.filterMap_filter]
  congr 1
  ext c
  by_cases h : c.key? = some key
  · simp [hp c h]
  · simp [h]

theorem admittedTimes_eq (calls : List LimiterCall)
    (hclock : InOrder calls) :
    admittedTimes key (limiterLog limits calls) = admitted (aloneHits limits key calls).2 := by
  unfold admittedTimes admitted
  rw [(limiter_refines limits key calls hclock).1, List.filterMap_map]
  congr 1
  ext ⟨t, answer⟩
  cases answer <;> rfl

theorem timesOf_clock {calls : List LimiterCall}
    (hclock : InOrder calls) :
    (timesOf key calls).Pairwise (· ≤ ·) := by
  unfold timesOf
  refine List.Pairwise.filterMap _ (fun c d hcd t ht u hu => ?_) hclock
  simp only [Option.ite_none_right_eq_some, Option.some.injEq] at ht hu
  rw [← ht.2, ← hu.2]
  exact hcd

/-! ### Between two resets -/

/-- No check of the key among these calls starts its window anew. -/
def ResetFree (limits : Limits) (limiter : InProcessRateLimiter) (key : String)
    (calls : List LimiterCall) : Prop :=
  ∀ before now after, calls = before ++ .check now key :: after →
    ¬ opensWindow limits (run (limiterStep limits) limiter before) now key

theorem admittedTimes_check (l : List (LimiterCall × LimiterReply)) (now : ℚ) (k : String)
    (result : CheckResult) :
    admittedTimes key (l ++ [(.check now k, .checked result)]) =
      admittedTimes key l ++ if k = key ∧ result.allowed = true then [now] else [] := by
  unfold admittedTimes
  rw [answersTo_concat, List.filterMap_append]
  by_cases hk : k = key
  · cases h : result.allowed <;> simp [hk, h]
  · simp [hk]

theorem admittedTimes_sweep (l : List (LimiterCall × LimiterReply)) (now : ℚ) (n : ℕ) :
    admittedTimes key (l ++ [(.sweepExpired now, .swept n)]) = admittedTimes key l := by
  unfold admittedTimes
  rw [answersTo_concat_sweep]

theorem toResult_allowed (answer : Option ℚ) : (toResult answer).allowed = answer.isNone := by
  cases answer <;> rfl

/-- `n` calls of the running window are among the counted ones. -/
def Within (limits : Limits) (limiter : InProcessRateLimiter) (key : String) (n : ℕ) : Prop :=
  (n : ℤ) ≤ limits.limit key ∧ ∀ w ∈ limiter.windowOf key, n ≤ w.count

theorem within_check (hkept : Kept limits limiter) {n : ℕ} (h : Within limits limiter key n)
    (hfree : n = 0 ∨ ¬ opensWindow limits limiter now key) :
    let r := limiter.check now key (limits.limit key) (limits.window key)
    Within limits r.1 key (n + if r.2.allowed then 1 else 0) := by
  have hcur : n ≤ (current (limits.window key : ℚ) now (limiter.windowOf key)).count := by
    rcases hfree with rfl | hopen
    · exact Nat.zero_le _
    · rw [opensWindow_iff] at hopen
      cases hv : limiter.windowOf key with
      | none =>
        rw [hv] at hopen
        exact absurd trivial hopen
      | some w =>
        rw [hv] at hopen
        rw [current_of_not_spent hopen]
        exact h.2 w hv
  have hle := le_hit_count (limits.limit key) hcur
  have hkept' := kept_check hkept now key
  intro r
  have hwindow : r.1.windowOf key =
      some (hit (limits.limit key) (limits.window key : ℚ) now (limiter.windowOf key)).1 := by
    rw [windowOf_check, if_pos rfl]
  have hallowed : r.2.allowed =
      (hit (limits.limit key) (limits.window key : ℚ) now (limiter.windowOf key)).2.isNone := by
    rw [← toResult_allowed]
    exact congrArg (fun p => p.2.allowed) (check_eq limiter now key _ _)
  rw [← hallowed] at hle
  obtain ⟨c, hget, hc⟩ := Option.map_eq_some_iff.mp hwindow
  have hmax := (hkept' key c hget).2
  have hcount : c.count =
      (hit (limits.limit key) (limits.window key : ℚ) now (limiter.windowOf key)).1.count := by
    rw [← hc]
  refine ⟨?_, fun w hw => ?_⟩
  · exact le_trans (by exact_mod_cast hcount ▸ hle) hmax
  · rw [hwindow, Option.mem_some_iff] at hw
    rw [← hw]
    exact hle

theorem within_other (n : ℕ) {limiter' : InProcessRateLimiter} (h : Within limits limiter key n)
    (hw : limiter'.windowOf key = none ∨ limiter'.windowOf key = limiter.windowOf key) :
    Within limits limiter' key n := by
  refine ⟨h.1, fun w hmem => ?_⟩
  rcases hw with hw | hw
  · rw [hw] at hmem
    cases hmem
  · exact h.2 w (hw ▸ hmem)

/-- One call counts on: only a call that opens the window may start from nothing. -/
theorem within_step (hkept : Kept limits limiter) {l : List (LimiterCall × LimiterReply)}
    (h : Within limits limiter key (admittedTimes key l).length) (c : LimiterCall)
    (hfree : ∀ now, c = .check now key →
      admittedTimes key l = [] ∨ ¬ opensWindow limits limiter now key)
    {limiter' : InProcessRateLimiter} {o : LimiterReply}
    (hstep : limiterStep limits c limiter = .ok (limiter', o)) :
    Within limits limiter' key (admittedTimes key (l ++ [(c, o)])).length := by
  cases c with
  | sweepExpired now =>
    cases hstep
    rw [admittedTimes_sweep]
    exact within_other _ h (windowOf_sweep hkept now key).2
  | check now k =>
    cases hstep
    rw [admittedTimes_check, List.length_append]
    by_cases hk : k = key
    · subst hk
      have hlen : ∀ b : Bool, (if k = k ∧ b = true then [now] else []).length =
          if b then 1 else 0 := fun b => by cases b <;> simp
      rw [hlen]
      exact within_check hkept h ((hfree now rfl).imp (congrArg List.length) id)
    · rw [if_neg (fun hand => hk hand.1)]
      refine within_other _ h (Or.inr ?_)
      rw [windowOf_check, if_neg hk]

/-- The calls from `first` on, of which only the first may open the key's window. -/
theorem within_segment (hkept : Kept limits limiter) (first : LimiterCall)
    (rest : List LimiterCall)
    (hfree : ResetFree limits (run (limiterStep limits) limiter [first]) key rest) :
    Kept limits (run (limiterStep limits) limiter (first :: rest)) ∧
      Within limits (run (limiterStep limits) limiter (first :: rest)) key
        (admittedTimes key (log (limiterStep limits) limiter (first :: rest))).length := by
  have hnone : Within limits limiter key (admittedTimes key []).length :=
    ⟨(limits.limit_pos key).trans' zero_le_one, fun _ _ => Nat.zero_le _⟩
  -- one more call after `cs`
  have hnext : ∀ cs c, Kept limits (run (limiterStep limits) limiter cs) →
      Within limits (run (limiterStep limits) limiter cs) key
        (admittedTimes key (log (limiterStep limits) limiter cs)).length →
      (∀ now, c = .check now key → admittedTimes key (log (limiterStep limits) limiter cs) = [] ∨
        ¬ opensWindow limits (run (limiterStep limits) limiter cs) now key) →
      Kept limits (run (limiterStep limits) limiter (cs ++ [c])) ∧
        Within limits (run (limiterStep limits) limiter (cs ++ [c])) key
          (admittedTimes key (log (limiterStep limits) limiter (cs ++ [c]))).length := by
    intro cs c hk hw hopen
    cases hstep : limiterStep limits c (run (limiterStep limits) limiter cs) with
    | error e => cases e
    | ok p =>
      obtain ⟨h1, h2⟩ := run_concat_ok hstep
      rw [h1, h2]
      refine ⟨?_, within_step hk hw c hopen hstep⟩
      cases c with
      | check now k =>
        cases hstep
        exact kept_check hk now k
      | sweepExpired now =>
        cases hstep
        exact kept_sweep hk now
  induction rest using List.reverseRecOn with
  | nil => exact hnext [] first hkept hnone fun _ _ => Or.inl rfl
  | append_singleton rest c ih =>
    obtain ⟨hk, hw⟩ := ih fun before now after h =>
      hfree before now (after ++ [c]) (by rw [h]; simp)
    refine hnext (first :: rest) c hk hw fun now hc => Or.inr ?_
    have := hfree rest now [] (by rw [hc])
    rwa [← (run_append [first] rest).1] at this

theorem limit_le_of_denied {earlier later : List LimiterCall}
    (hclock : InOrder (earlier ++ .check now key :: later))
    (hden : ((limiterAfter limits earlier).check now key
      (limits.limit key) (limits.window key)).2.allowed = false) :
    limits.limit key ≤ (admittedTimes key (limiterLog limits earlier)).countP
      fun t => now - limits.window key < t ∧ t ≤ now := by
  have hlimit : 0 ≤ limits.limit key := (limits.limit_pos key).trans' zero_le_one
  have hwidth : (0 : ℚ) < limits.window key := by
    exact_mod_cast (limits.window_pos key).trans_lt' zero_lt_one
  have hupto : InOrder (earlier ++ [.check now key]) := by
    rw [InOrder, List.append_cons] at hclock
    exact (List.pairwise_append.mp hclock).1
  obtain ⟨hbefore, -, hlast⟩ := List.pairwise_append.mp hupto
  have hnow : ∀ c ∈ earlier, c.now ≤ now := fun c hc => hlast c hc _ List.mem_cons_self
  have htimes : (timesOf key earlier ++ [now]).Pairwise (· ≤ ·) := by
    have : (timesOf key (earlier ++ [.check now key])).Pairwise (· ≤ ·) := timesOf_clock hupto
    rwa [timesOf_check, if_pos rfl] at this
  -- the counter of this key alone denies it too
  rw [check_eq, toResult_allowed,
    hit_alike _ ((limiter_refines limits key earlier hbefore).2 now hnow)] at hden
  obtain ⟨left, hleft⟩ := Option.isSome_iff_exists.mp (Option.isNone_eq_false_iff.mp hden)
  have hle := le_admitted_of_denied hlimit hwidth htimes hleft
  rw [admittedTimes_eq earlier hbefore]
  refine hle.trans_eq (congrArg Nat.cast (List.countP_congr fun t ht => ?_))
  have hmem : t ≤ now :=
    (List.pairwise_append.mp htimes).2.2 t (mem_of_mem_admitted ht) now List.mem_cons_self
  simp [hmem]

/-- **Rate limiting over whole runs.**  With a limit and a window fixed for each key, and calls in
clock order: between two resets of a key's window at most `limit` of its calls are admitted, in
any half-open interval of the window's length at most `2 * limit`; a call is denied only after
`limit` admitted ones within the window's length; and the answers for a key are the same without
the sweeps and without the other keys' calls. -/
theorem rate_limiting (limits : Limits) (key : String) :
    (∀ (earlier : List LimiterCall) (first : LimiterCall) (rest : List LimiterCall),
      ResetFree limits (limiterAfter limits (earlier ++ [first])) key rest →
      ((admittedTimes key
        (log (limiterStep limits) (limiterAfter limits earlier) (first :: rest))).length : ℤ) ≤
        limits.limit key) ∧
    ∀ calls : List LimiterCall, InOrder calls →
      (∀ a : ℚ, ((admittedTimes key (limiterLog limits calls)).countP
        (fun t => a ≤ t ∧ t < a + limits.window key) : ℤ) ≤ 2 * limits.limit key) ∧
      (∀ earlier now later, calls = earlier ++ .check now key :: later →
        ((limiterAfter limits earlier).check now key
          (limits.limit key) (limits.window key)).2.allowed = false →
        limits.limit key ≤ (admittedTimes key (limiterLog limits earlier)).countP
          fun t => now - limits.window key < t ∧ t ≤ now) ∧
      answersTo key (limiterLog limits (calls.filter fun c => c.key?.isSome)) =
        answersTo key (limiterLog limits calls) ∧
      answersTo key
          (limiterLog limits (calls.filter fun c => c.key? = none ∨ c.key? = some key)) =
        answersTo key (limiterLog limits calls) ∧
      answersTo key (limiterLog limits (calls.filter fun c => c.key? = some key)) =
        answersTo key (limiterLog limits calls) := by
  have hlimit : 0 ≤ limits.limit key := (limits.limit_pos key).trans' zero_le_one
  have hwidth : (0 : ℚ) < limits.window key := by
    exact_mod_cast (limits.window_pos key).trans_lt' zero_lt_one
  constructor
  · intro earlier first rest hfree
    rw [limiterAfter, (run_append earlier [first]).1] at hfree
    exact (within_segment (kept_after limits earlier) first rest hfree).2.1
  · intro calls hclock
    have hsame : ∀ p : LimiterCall → Bool, (∀ c, c.key? = some key → p c = true) →
        answersTo key (limiterLog limits (calls.filter p)) =
          answersTo key (limiterLog limits calls) := fun p hp =>
      answersTo_congr hclock (hclock.sublist List.filter_sublist) (timesOf_filter hp calls)
    refine ⟨fun a => ?_, ?_, hsame _ fun c hc => by simp [hc], hsame _ fun c hc => by simp [hc],
      hsame _ fun c hc => by simp [hc]⟩
    · rw [admittedTimes_eq calls hclock]
      exact admitted_interval_le hlimit hwidth (timesOf_clock hclock) a
    · rintro earlier now later rfl hden
      exact limit_le_of_denied hclock hden

def sampleLimits : Limits := ⟨fun _ => 2, fun _ => 10, fun _ => by decide, fun _ => by decide⟩

def sampleLimiterCalls : List LimiterCall :=
  [.check 0 "a", .check 5 "b", .check 7 "a", .check (15 / 2) "a", .sweepExpired 10, .check 10 "a"]

example : answersTo "a" (limiterLog sampleLimits sampleLimiterCalls) =
    [(0, ⟨true, none⟩), (7, ⟨true, none⟩), (15 / 2, ⟨false, some 3⟩), (10, ⟨true, none⟩)] := by
  decide +kernel

theorem rate_limiting_sample :
    InOrder sampleLimiterCalls ∧
      answersTo "a" (limiterLog sampleLimits (sampleLimiterCalls.filter fun c => c.key?.isSome)) =
        answersTo "a" (limiterLog sampleLimits sampleLimiterCalls) ∧
      ((admittedTimes "a" (log (limiterStep sampleLimits) (limiterAfter sampleLimits [])
        [.check 0 "a", .check 7 "a"])).length : ℤ) ≤ 2 := by
  have hclock : InOrder sampleLimiterCalls := by
    simp [InOrder, sampleLimiterCalls, LimiterCall.now]
    norm_num
  refine ⟨hclock, ((rate_limiting sampleLimits "a").2 sampleLimiterCalls hclock).2.2.1, ?_⟩
  refine (rate_limiting sampleLimits "a").1 [] (.check 0 "a") [.check 7 "a"] ?_
  intro before now after h
  -- the only check of the rest comes at 7, in the window opened at 0
  cases before with
  | nil =>
    obtain rfl : (7 : ℚ) = now := (LimiterCall.check.inj (List.cons.inj h).1).1
    intro hopen
    have hget : (limiterAfter sampleLimits [.check 0 "a"]).counters.get "a" = some ⟨1, 0, 10⟩ := by
      decide +kernel
    have hlate := hopen _ hget
    norm_num [sampleLimits] at hlate
  | cons c cs => simp at h

end Limiter

/-! ### The middleware's calls -/

/-- The route class a key begins with. -/
def classOfKey (key : String) : Option RouteClass :=
  [.operator, .ingress, .metrics, .readyz, .health].find? fun c : RouteClass =>
    (c.text ++ ":").toList.isPrefixOf key.toList

theorem classOfKey_rateLimitKey (routeClass : RouteClass) (identity : IdentityType × String) :
    classOfKey (rateLimitKey routeClass identity) = some routeClass := by
  have hkey : (rateLimitKey routeClass identity).toList =
      (routeClass.text ++ ":").toList ++ (identity.1.text ++ ":" ++ identity.2).toList := by
    simp [rateLimitKey]
  unfold classOfKey
  rw [hkey]
  cases routeClass <;> rfl

namespace RateLimiterMiddleware

variable (sha256 : String → String) (middleware : RateLimiterMiddleware)

theorem limitOf_pos {routeClass : RouteClass} {config : RateLimitConfig}
    (h : middleware.limitOf routeClass = some config) :
    1 ≤ config.requests ∧ 1 ≤ config.windowSeconds := by
  obtain ⟨-, h⟩ := Option.filter_eq_some_iff.mp h
  simp only [Bool.and_eq_true, Bool.not_eq_true', decide_eq_false_iff_not] at h
  omega

/-- The configured limits, by the class a key begins with. -/
def limits : Limits where
  limit key := (((classOfKey key).bind middleware.limitOf).map RateLimitConfig.requests).getD 1
  window key :=
    (((classOfKey key).bind middleware.limitOf).map RateLimitConfig.windowSeconds).getD 1
  limit_pos key := by
    cases h : (classOfKey key).bind middleware.limitOf with
    | none => simp
    | some config =>
      obtain ⟨c, -, hc⟩ := Option.bind_eq_some_iff.mp h
      exact (middleware.limitOf_pos hc).1
  window_pos key := by
    cases h : (classOfKey key).bind middleware.limitOf with
    | none => simp
    | some config =>
      obtain ⟨c, -, hc⟩ := Option.bind_eq_some_iff.mp h
      exact (middleware.limitOf_pos hc).2

/-- The check a request makes, if its class is limited. -/
def call (now : ℚ) (request : Request) : Option LimiterCall :=
  (middleware.limitOf (classifyPath request.path)).map fun _ =>
    .check now (rateLimitKey (classifyPath request.path)
      (identityForRequest sha256 request (classifyPath request.path) middleware.validTokens))

/-- A request checks its key with the key's own limit and window. -/
theorem dispatch_limiter (now : ℚ) (request : Request) (limiter : InProcessRateLimiter) :
    (middleware.dispatch sha256 now request limiter).1 =
      run (limiterStep middleware.limits) limiter (middleware.call sha256 now request).toList := by
  unfold dispatch call
  dsimp only
  cases h : middleware.limitOf (classifyPath request.path) with
  | none => rfl
  | some config =>
    have hstep : ∀ identity, (middleware.limits).limit
          (rateLimitKey (classifyPath request.path) identity) = config.requests ∧
        (middleware.limits).window
          (rateLimitKey (classifyPath request.path) identity) = config.windowSeconds := by
      intro identity
      simp only [limits, classOfKey_rateLimitKey, Option.bind_some, h, Option.map_some,
        Option.getD_some, and_self]
    obtain ⟨hlimit, hwindow⟩ := hstep
      (identityForRequest sha256 request (classifyPath request.path) middleware.validTokens)
    rw [Option.map_some, Option.toList_some, ← List.nil_append [_],
      (run_concat_ok rfl).1, hlimit, hwindow]
    dsimp only
    split_ifs <;> rfl

/-- A request, or the turn of the sweep worker. -/
def turn (limiter : InProcessRateLimiter) (r : ℚ × Option Request) : InProcessRateLimiter :=
  match r.2 with
  | some request => (middleware.dispatch sha256 r.1 request limiter).1
  | none => (limiter.sweepExpired r.1).1

def callOf (r : ℚ × Option Request) : Option LimiterCall :=
  match r.2 with
  | some request => middleware.call sha256 r.1 request
  | none => some (.sweepExpired r.1)

/-- **The middleware keeps to the limiter's contract**: requests and sweeps in any order act on
the limiter as calls with a limit and a window fixed for each key. -/
theorem dispatch_run (turns : List (ℚ × Option Request)) :
    turns.foldl (middleware.turn sha256) {} =
      limiterAfter middleware.limits (turns.filterMap (middleware.callOf sha256)) := by
  induction turns using List.reverseRecOn with
  | nil => rfl
  | append_singleton turns r ih =>
    rw [List.foldl_append, List.filterMap_append, limiterAfter, (run_append _ _).1, ih]
    obtain ⟨now, request⟩ := r
    cases request with
    | none => rfl
    | some request =>
      have h := dispatch_limiter sha256 middleware now request
        (limiterAfter middleware.limits (turns.filterMap (middleware.callOf sha256)))
      have hcall : List.filterMap (middleware.callOf sha256) [(now, some request)] =
          (middleware.call sha256 now request).toList := by
        rw [List.filterMap_cons, List.filterMap_nil]
        cases hc : middleware.call sha256 now request <;> simp [callOf, hc]
      rw [hcall]
      exact h

end RateLimiterMiddleware

end Correlia
