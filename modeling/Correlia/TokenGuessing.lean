import Correlia.RateLimiting

/-!
# TokenGuessing — the buckets a client without a token can reach

A request is counted under its route class and either the class's valid token or its address.  The
key determines all three (`rateLimitKey_injective`), so what is sent in place of the token changes
nothing.
-/

namespace Correlia

open Lib FixedWindow

/-- The address a request is counted under. -/
def Request.address (request : Request) : String := request.client.getD "unknown"

namespace RateLimiterMiddleware

variable (sha256 : String → String) (middleware : RateLimiterMiddleware)

/-- The request carries the valid token of its own route class. -/
def carriesToken (request : Request) : Prop :=
  ∃ token ∈ bearerToken (request.authorization.getD ""),
    getItem (classifyPath request.path) middleware.validTokens = some token

instance (request : Request) : Decidable (middleware.carriesToken request) :=
  inferInstanceAs (Decidable (∃ token ∈ bearerToken (request.authorization.getD ""),
    getItem (classifyPath request.path) middleware.validTokens = some token))

/-- The key a request is counted under. -/
def bucket (request : Request) : String :=
  rateLimitKey (classifyPath request.path)
    (identityForRequest sha256 request (classifyPath request.path) middleware.validTokens)

/-- A request of the class, from the address, without the class's token. -/
def IsGuess (routeClass : RouteClass) (address : String) (request : Request) : Prop :=
  classifyPath request.path = routeClass ∧ request.address = address ∧
    ¬ middleware.carriesToken request

instance (routeClass : RouteClass) (address : String) (request : Request) :
    Decidable (middleware.IsGuess routeClass address request) :=
  inferInstanceAs (Decidable (_ ∧ _ ∧ _))

/-- A request, or the turn of the sweep worker, with the response. -/
def step (r : ℚ × Option Request) (limiter : InProcessRateLimiter) :
    Except Empty (InProcessRateLimiter × Option JSONResponse) :=
  match r.2 with
  | some request => .ok (middleware.dispatch sha256 r.1 request limiter)
  | none => .ok ((limiter.sweepExpired r.1).1, none)

/-- The times at which guesses went on to the application. -/
def admittedGuesses (routeClass : RouteClass) (address : String)
    (l : List ((ℚ × Option Request) × Option JSONResponse)) : List ℚ :=
  l.filterMap fun
    | ((now, some request), none) =>
      if middleware.IsGuess routeClass address request then some now else none
    | _ => none

/-- No guess among these turns starts the window of the address anew. -/
def NoGuessOpens (routeClass : RouteClass) (address : String) (limiter : InProcessRateLimiter)
    (turns : List (ℚ × Option Request)) : Prop :=
  ∀ before now request after, turns = before ++ (now, some request) :: after →
    middleware.IsGuess routeClass address request →
    ¬ opensWindow middleware.limits (run (middleware.step sha256) limiter before) now
      (rateLimitKey routeClass (.ip, address))

end RateLimiterMiddleware

/-! ### Keys -/

theorem rateLimitKey_injective {c c' : RouteClass} {i i' : IdentityType × String}
    (h : rateLimitKey c i = rateLimitKey c' i') : c = c' ∧ i = i' := by
  obtain rfl : c = c' := by
    have hclass := congrArg classOfKey h
    rw [classOfKey_rateLimitKey, classOfKey_rateLimitKey] at hclass
    exact Option.some.inj hclass
  refine ⟨rfl, ?_⟩
  obtain ⟨t, v⟩ := i
  obtain ⟨t', v'⟩ := i'
  have hlist := congrArg String.toList h
  simp only [rateLimitKey, String.toList_append, List.append_assoc, List.append_cancel_left_eq]
    at hlist
  -- the two kinds differ in their first letter
  have hkind : t = t' := by
    cases t <;> cases t' <;> first | rfl | simp [IdentityType.text] at hlist
  subst hkind
  simp only [List.append_cancel_left_eq] at hlist
  rw [String.toList_inj.mp hlist]

namespace RateLimiterMiddleware

variable {sha256 : String → String} {middleware : RateLimiterMiddleware}

theorem bucket_of_not_carries {request : Request} (h : ¬ middleware.carriesToken request) :
    middleware.bucket sha256 request =
      rateLimitKey (classifyPath request.path) (.ip, request.address) := by
  unfold bucket identityForRequest
  dsimp only
  cases hb : bearerToken (request.authorization.getD "") with
  | none => rfl
  | some token =>
    dsimp only
    rw [if_neg fun hv => h ⟨token, hb, hv⟩]
    rfl

theorem bucket_of_carries (sha256 : String → String) {request : Request}
    (h : middleware.carriesToken request) :
    ∃ token, getItem (classifyPath request.path) middleware.validTokens = some token ∧
      middleware.bucket sha256 request =
        rateLimitKey (classifyPath request.path) (.tokenHash, sha256 token) := by
  obtain ⟨token, hb, hv⟩ := h
  refine ⟨token, hv, ?_⟩
  unfold bucket identityForRequest
  rw [Option.mem_def.mp hb]
  dsimp only
  rw [if_pos hv]

/-- An address's bucket holds its guesses and nothing else. -/
theorem bucket_eq_iff {routeClass : RouteClass} {address : String} {request : Request} :
    middleware.bucket sha256 request = rateLimitKey routeClass (.ip, address) ↔
      middleware.IsGuess routeClass address request := by
  constructor
  · intro h
    by_cases hcarries : middleware.carriesToken request
    · obtain ⟨token, -, htoken⟩ := bucket_of_carries sha256 hcarries
      rw [htoken] at h
      cases (rateLimitKey_injective h).2
    · rw [bucket_of_not_carries hcarries] at h
      obtain ⟨hclass, hid⟩ := rateLimitKey_injective h
      exact ⟨hclass, (Prod.mk.inj hid).2, hcarries⟩
  · rintro ⟨rfl, rfl, hnot⟩
    exact bucket_of_not_carries hnot

/-! ### Guesses as calls of one key -/

section Guesses

variable {routeClass : RouteClass} {address : String} {config : RateLimitConfig}

theorem limits_key (hlim : middleware.limitOf routeClass = some config)
    (identity : IdentityType × String) :
    middleware.limits.limit (rateLimitKey routeClass identity) = config.requests ∧
      middleware.limits.window (rateLimitKey routeClass identity) = config.windowSeconds := by
  simp only [limits, classOfKey_rateLimitKey, Option.bind_some, hlim, Option.map_some,
    Option.getD_some, and_self]

/-- One turn is what its call does to the limiter. -/
theorem step_limiter (r : ℚ × Option Request) (limiter : InProcessRateLimiter) :
    run (middleware.step sha256) limiter [r] =
      run (limiterStep middleware.limits) limiter (middleware.callOf sha256 r).toList := by
  obtain ⟨now, _ | request⟩ := r
  · rfl
  · exact dispatch_limiter sha256 middleware now request limiter

/-- A guess that goes on was admitted under the key of its address. -/
theorem step_admitted (sha256 : String → String) (address : String)
    (hlim : middleware.limitOf routeClass = some config)
    (r : ℚ × Option Request) (limiter : InProcessRateLimiter) :
    (middleware.admittedGuesses routeClass address
        (log (middleware.step sha256) limiter [r])).Sublist
      (admittedTimes (rateLimitKey routeClass (.ip, address))
        (log (limiterStep middleware.limits) limiter (middleware.callOf sha256 r).toList)) := by
  obtain ⟨now, _ | request⟩ := r
  · exact List.nil_sublist _
  have hlog : log (middleware.step sha256) limiter [(now, some request)] =
      [((now, some request), (middleware.dispatch sha256 now request limiter).2)] := rfl
  rw [hlog]
  by_cases hguess : middleware.IsGuess routeClass address request
  · have hclass := hguess.1
    have hkey : middleware.bucket sha256 request = rateLimitKey routeClass (.ip, address) :=
      bucket_eq_iff.mpr hguess
    rw [bucket, hclass] at hkey
    have hconfig := limits_key hlim (.ip, address)
    have hcall : middleware.callOf sha256 (now, some request) =
        some (.check now (rateLimitKey routeClass (.ip, address))) := by
      simp only [callOf, call, hclass, hlim, Option.map_some, hkey]
    rw [hcall, Option.toList_some, ← List.nil_append [LimiterCall.check _ _],
      (run_concat_ok rfl).2, log_nil, admittedTimes_check, hconfig.1, hconfig.2]
    have hresponse : (middleware.dispatch sha256 now request limiter).2 = none →
        (limiter.check now (rateLimitKey routeClass (.ip, address)) config.requests
          config.windowSeconds).2.allowed = true := by
      unfold dispatch
      dsimp only
      rw [hclass, hlim]
      dsimp only
      rw [hkey]
      split_ifs with hall
      · exact fun _ => hall
      · intro h
        cases h
    cases hd : (middleware.dispatch sha256 now request limiter).2 with
    | none =>
      rw [if_pos ⟨rfl, hresponse hd⟩]
      simp [admittedGuesses, hguess]
    | some response => simp [admittedGuesses]
  · have hnil : middleware.admittedGuesses routeClass address
        [((now, some request), (middleware.dispatch sha256 now request limiter).2)] = [] := by
      cases (middleware.dispatch sha256 now request limiter).2 <;> simp [admittedGuesses, hguess]
    rw [hnil]
    exact List.nil_sublist _

theorem admittedTimes_append (key : String) (l l' : List (LimiterCall × LimiterReply)) :
    admittedTimes key (l ++ l') = admittedTimes key l ++ admittedTimes key l' := by
  unfold admittedTimes answersTo
  rw [List.filterMap_append, List.filterMap_append]

/-- **The limiter sees the guesses of an address as calls of one key**, over any turns. -/
theorem step_run (sha256 : String → String) (address : String)
    (hlim : middleware.limitOf routeClass = some config)
    (turns : List (ℚ × Option Request)) (limiter : InProcessRateLimiter) :
    run (middleware.step sha256) limiter turns =
        run (limiterStep middleware.limits) limiter
          (turns.filterMap (middleware.callOf sha256)) ∧
      (middleware.admittedGuesses routeClass address
        (log (middleware.step sha256) limiter turns)).Sublist
        (admittedTimes (rateLimitKey routeClass (.ip, address))
          (log (limiterStep middleware.limits) limiter
            (turns.filterMap (middleware.callOf sha256)))) := by
  induction turns using List.reverseRecOn with
  | nil => exact ⟨rfl, List.nil_sublist _⟩
  | append_singleton turns r ih =>
    obtain ⟨hrun, hsub⟩ := ih
    have hcall : List.filterMap (middleware.callOf sha256) [r] =
        (middleware.callOf sha256 r).toList := by
      cases hc : middleware.callOf sha256 r <;> simp [hc]
    have hone := step_admitted sha256 address hlim r
      (run (middleware.step sha256) limiter turns)
    rw [List.filterMap_append, hcall, (run_append turns [r]).1, (run_append _ _).1,
      (run_append turns [r]).2, (run_append _ _).2, step_limiter, hrun, admittedTimes_append]
    refine ⟨rfl, ?_⟩
    rw [hrun] at hone
    unfold admittedGuesses at hsub hone ⊢
    rw [List.filterMap_append]
    exact hsub.append hone

/-- The call of a guess, found back among the calls of the turns. -/
theorem resetFree_of_noGuessOpens (hlim : middleware.limitOf routeClass = some config)
    {limiter : InProcessRateLimiter} {turns : List (ℚ × Option Request)}
    (h : middleware.NoGuessOpens sha256 routeClass address limiter turns) :
    ResetFree middleware.limits limiter (rateLimitKey routeClass (.ip, address))
      (turns.filterMap (middleware.callOf sha256)) := by
  intro before now after heq
  obtain ⟨ts, us, rfl, hbefore, hrest⟩ := List.filterMap_eq_append_iff.mp heq
  obtain ⟨skipped, r, later, rfl, hskipped, hr, -⟩ := List.filterMap_eq_cons_iff.mp hrest
  obtain ⟨t, _ | request⟩ := r
  · cases hr
  obtain ⟨-, -, hcall⟩ := Option.map_eq_some_iff.mp hr
  obtain ⟨rfl, hkey⟩ := LimiterCall.check.inj hcall
  have hcalls : (ts ++ skipped).filterMap (middleware.callOf sha256) = before := by
    rw [List.filterMap_append, hbefore, List.filterMap_eq_nil_iff.mpr hskipped, List.append_nil]
  have hrun := (step_run sha256 address hlim (ts ++ skipped) limiter).1
  rw [hcalls] at hrun
  rw [← hrun]
  exact h (ts ++ skipped) t request later (by simp) (bucket_eq_iff.mp hkey)

theorem callOf_now {r : ℚ × Option Request} {c : LimiterCall}
    (h : middleware.callOf sha256 r = some c) : c.now = r.1 := by
  obtain ⟨now, _ | request⟩ := r
  · cases h
    rfl
  · obtain ⟨-, -, rfl⟩ := Option.map_eq_some_iff.mp h
    rfl

theorem inOrder_calls {turns : List (ℚ × Option Request)}
    (h : turns.Pairwise fun r r' => r.1 ≤ r'.1) :
    InOrder (turns.filterMap (middleware.callOf sha256)) := by
  refine List.Pairwise.filterMap _ (fun r r' hle c hc c' hc' => ?_) h
  rw [callOf_now hc, callOf_now hc']
  exact hle

/-- At most `requests` guesses between two openings of the address's window. -/
theorem admittedGuesses_window (hlim : middleware.limitOf routeClass = some config)
    (earlier : List (ℚ × Option Request)) (first : ℚ × Option Request)
    (rest : List (ℚ × Option Request))
    (hopen : middleware.NoGuessOpens sha256 routeClass address
      (run (middleware.step sha256) {} (earlier ++ [first])) rest) :
    ((middleware.admittedGuesses routeClass address (log (middleware.step sha256)
      (run (middleware.step sha256) {} earlier) (first :: rest))).length : ℤ) ≤
        config.requests := by
  have hrun := (step_run sha256 address hlim earlier {}).1
  have hfree := resetFree_of_noGuessOpens hlim hopen
  obtain ⟨-, hsub⟩ := step_run sha256 address hlim (first :: rest)
    (run (middleware.step sha256) {} earlier)
  rw [(run_append earlier [first]).1, step_limiter, hrun] at hfree
  rw [hrun] at hsub ⊢
  refine le_trans (Int.ofNat_le.mpr hsub.length_le) ?_
  rw [← (limits_key hlim (.ip, address)).1]
  have hkept := kept_after middleware.limits (earlier.filterMap (middleware.callOf sha256))
  rw [List.filterMap_cons]
  cases hc : middleware.callOf sha256 first with
  | some c =>
    rw [hc] at hfree
    exact (within_segment hkept c _ hfree).2.1
  | none =>
    rw [hc] at hfree
    -- the first turn is not limited, so the next call may be the first of the segment
    cases hcs : rest.filterMap (middleware.callOf sha256) with
    | nil => exact (middleware.limits.limit_pos _).trans' zero_le_one
    | cons c cs =>
      rw [hcs] at hfree
      refine (within_segment hkept c cs ?_).2.1
      intro before now after heq
      have := hfree (c :: before) now after (by rw [heq, List.cons_append])
      rwa [Option.toList_none, run_nil, ← List.singleton_append, (run_append [c] before).1] at this

end Guesses

end RateLimiterMiddleware

/-- **Guessing tokens gains nothing.**  Requests of one class and address without the class's
token share a bucket, whatever their headers; those with the token share one of their own, which is
no address's; classes share none.  So between two openings of that bucket's window at most
`requests` guesses go on, and in any interval of the window's length at most twice as many. -/
theorem token_guessing (sha256 : String → String) (middleware : RateLimiterMiddleware) :
    (∀ r r' : Request, classifyPath r.path = classifyPath r'.path → r.address = r'.address →
      ¬ middleware.carriesToken r → ¬ middleware.carriesToken r' →
      middleware.bucket sha256 r = middleware.bucket sha256 r') ∧
    (∀ r r' : Request, classifyPath r.path = classifyPath r'.path →
      middleware.carriesToken r → middleware.carriesToken r' →
      middleware.bucket sha256 r = middleware.bucket sha256 r') ∧
    (∀ r : Request, middleware.carriesToken r → ∀ routeClass address,
      middleware.bucket sha256 r ≠ rateLimitKey routeClass (.ip, address)) ∧
    (∀ r r' : Request, classifyPath r.path ≠ classifyPath r'.path →
      middleware.bucket sha256 r ≠ middleware.bucket sha256 r') ∧
    ∀ routeClass address config, middleware.limitOf routeClass = some config →
      (∀ earlier first rest,
        middleware.NoGuessOpens sha256 routeClass address
          (run (middleware.step sha256) {} (earlier ++ [first])) rest →
        ((middleware.admittedGuesses routeClass address (log (middleware.step sha256)
          (run (middleware.step sha256) {} earlier) (first :: rest))).length : ℤ) ≤
            config.requests) ∧
      ∀ turns : List (ℚ × Option Request), (turns.Pairwise fun t t' => t.1 ≤ t'.1) → ∀ a : ℚ,
        ((middleware.admittedGuesses routeClass address
          (log (middleware.step sha256) {} turns)).countP
            (fun t => a ≤ t ∧ t < a + config.windowSeconds) : ℤ) ≤ 2 * config.requests := by
  refine ⟨fun r r' hclass haddress h h' => ?_, fun r r' hclass h h' => ?_, fun r h c a heq => ?_,
    fun r r' hne heq => hne (rateLimitKey_injective heq).1,
    fun routeClass address config hlim => ⟨fun earlier first rest hopen =>
      RateLimiterMiddleware.admittedGuesses_window hlim earlier first rest hopen,
      fun turns hclock a => ?_⟩⟩
  · rw [RateLimiterMiddleware.bucket_of_not_carries h,
      RateLimiterMiddleware.bucket_of_not_carries h', hclass, haddress]
  · obtain ⟨token, hv, hb⟩ := RateLimiterMiddleware.bucket_of_carries sha256 h
    obtain ⟨token', hv', hb'⟩ := RateLimiterMiddleware.bucket_of_carries sha256 h'
    rw [hclass, hv', Option.some.injEq] at hv
    rw [hb, hb', hclass, hv]
  · exact (RateLimiterMiddleware.bucket_eq_iff.mp heq).2.2 h
  · obtain ⟨hlimit, hwindow⟩ :=
      RateLimiterMiddleware.limits_key hlim (.ip, address)
    obtain ⟨-, hsub⟩ := RateLimiterMiddleware.step_run sha256 address hlim turns {}
    have hcalls : InOrder (turns.filterMap (middleware.callOf sha256)) :=
      RateLimiterMiddleware.inOrder_calls hclock
    obtain ⟨hrequests, hseconds⟩ := middleware.limitOf_pos hlim
    have hwidth : (0 : ℚ) < config.windowSeconds := by exact_mod_cast hseconds
    refine le_trans (Int.ofNat_le.mpr (hsub.countP_le)) ?_
    have htimes : admittedTimes (rateLimitKey routeClass (.ip, address))
        (log (limiterStep middleware.limits) {} _) = _ := admittedTimes_eq _ hcalls
    rw [htimes, aloneHits, hlimit, hwindow]
    exact admitted_interval_le (by omega) hwidth (timesOf_clock hcalls) a

def sampleMiddleware : RateLimiterMiddleware where
  configs := [(.operator, ⟨true, 2, 10⟩)]
  validTokens := [(.operator, "s3cret"), (.metrics, "m3trics")]

/-- A request from one fixed address. -/
def sampleRequest (authorization : Option String) : Request :=
  ⟨"/v1/incidents", authorization, some "10.0.0.7"⟩

/-- A request without a token, a guess, the metrics token and the operator's own. -/
def sampleTurns : List (ℚ × Option Request) :=
  [(0, some (sampleRequest none)), (1, some (sampleRequest (some "Bearer guess"))),
    (2, some (sampleRequest (some "bearer m3trics"))),
    (3, some (sampleRequest (some "Bearer s3cret")))]

example : sampleMiddleware.admittedGuesses .operator "10.0.0.7"
    (log (sampleMiddleware.step id) {} sampleTurns) = [0, 1] := by
  decide +kernel

theorem token_guessing_sample :
    sampleMiddleware.bucket id (sampleRequest none) =
        sampleMiddleware.bucket id (sampleRequest (some "bearer m3trics")) ∧
      sampleMiddleware.bucket id (sampleRequest (some "Bearer s3cret")) ≠
        rateLimitKey .operator (.ip, "10.0.0.7") ∧
      ((sampleMiddleware.admittedGuesses .operator "10.0.0.7"
        (log (sampleMiddleware.step id) {} sampleTurns)).countP
          (fun t => 0 ≤ t ∧ t < 0 + ((10 : ℤ) : ℚ)) : ℤ) ≤ 2 * 2 := by
  obtain ⟨hshared, -, hown, -, hguesses⟩ := token_guessing id sampleMiddleware
  have hnone : ¬ sampleMiddleware.carriesToken (sampleRequest none) := by decide +kernel
  have hother : ¬ sampleMiddleware.carriesToken (sampleRequest (some "bearer m3trics")) := by
    decide +kernel
  have htoken : sampleMiddleware.carriesToken (sampleRequest (some "Bearer s3cret")) := by
    decide +kernel
  have hlimit : sampleMiddleware.limitOf .operator = some ⟨true, 2, 10⟩ := rfl
  have hclock : sampleTurns.Pairwise fun t t' => t.1 ≤ t'.1 := by
    simp [sampleTurns]
    norm_num
  exact ⟨hshared _ _ rfl rfl hnone hother, hown _ htoken _ _,
    (hguesses .operator "10.0.0.7" _ hlimit).2 sampleTurns hclock 0⟩

end Correlia
