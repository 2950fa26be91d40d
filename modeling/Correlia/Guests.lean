import Correlia.Api.App
import Correlia.Lib.Unwinding
import Correlia.TokenGuessing

/-!
# Guests — what requests without a token can do

A call is admitted with the one token its router asks for, and handled at most once
(`calls_are_authorised`).  A request without the token of its route class is counted under its address
and admitted to open endpoints only, so by unwinding it can be taken out of every run
(`guests_change_nothing`): all that others can notice of it are the gauges that open probes set.
-/

namespace Correlia

open Lib

/-! ### Routes and their classes -/

/-- The endpoints that ask for no token. -/
def Settings.isOpen (s : Settings) : Endpoint → Bool
  | .health => true
  | .readyz => s.val.exposeReadyz
  | .metrics => s.val.exposeMetrics
  | .call _ => false

/-- The token of an endpoint that asks for one. -/
def Settings.tokenFor (s : Settings) : Endpoint → Option String
  | .call (.ingest _) => s.val.ingressApiToken
  | _ => s.val.operatorApiToken

/-- The class of an endpoint's path. -/
def Endpoint.routeClass : Endpoint → RouteClass
  | .health => .health
  | .readyz => .readyz
  | .metrics => .metrics
  | .call (.ingest _) => .ingress
  | .call _ => .operator

theorem classifyPath_incident (rest : String) :
    classifyPath ("/v1/incidents/" ++ rest) = .operator := by
  have hpath : ("/v1/incidents/" ++ rest).toList = "/v1/incidents/".toList ++ rest.toList :=
    String.toList_append
  unfold classifyPath
  split
  · rename_i e he
    have hmatch := List.find?_some he
    have hprefix : e.1.toList.isPrefixOf ("/v1/incidents/" ++ rest).toList = true := by
      rw [List.isPrefixOf_iff_prefix]
      rcases Bool.or_eq_true_iff.mp hmatch with heq | hslash
      · rw [eq_of_beq heq]
      · rw [List.isPrefixOf_iff_prefix, String.toList_append] at hslash
        exact (List.prefix_append _ _).trans hslash
    rw [hpath] at hprefix
    have hmem := List.mem_of_find?_eq_some he
    simp only [ROUTE_CLASS_PREFIXES, List.mem_cons, List.not_mem_nil, or_false] at hmem
    rcases hmem with rfl | rfl | rfl | rfl | rfl | rfl | rfl | rfl | rfl <;>
      first | rfl | cases hprefix
  · rfl

theorem classifyPath_endpoint (e : Endpoint) : classifyPath e.path = e.routeClass := by
  cases e with
  | health => decide +kernel
  | readyz => decide +kernel
  | metrics => decide +kernel
  | call c =>
    cases c with
    | page p => cases p <;> decide +kernel
    | incident rest q => exact classifyPath_incident rest
    | ingest call =>
      show classifyPath "/v1/icinga2/events" = .ingress
      decide +kernel

/-- The limiter counts a request for a closed endpoint under the token that the endpoint asks for. -/
theorem validTokens_endpoint (s : Settings) {e : Endpoint} (hclosed : s.isOpen e = false) :
    getItem e.routeClass (normalizeValidTokens s.validTokens) = s.tokenFor e := by
  have hvalue : ∀ (operator ingress : Option String) (c : RouteClass),
      getItem c ([(RouteClass.operator, operator), (.ingress, ingress), (.metrics, operator),
        (.readyz, operator), (.health, none)].filterMap fun e =>
          e.2.map fun token => (e.1, token)) =
        match c with
        | .health => none
        | .ingress => ingress
        | _ => operator := by
    intro operator ingress c
    cases operator <;> cases ingress <;> cases c <;> rfl
  refine (hvalue s.val.operatorApiToken s.val.ingressApiToken e.routeClass).trans ?_
  cases e with
  | health => cases hclosed
  | call c => cases c <;> rfl
  | _ => rfl

/-- Who asks for a token asks for the endpoint's. -/
theorem guard_eq {settings : Settings} (hauth : settings.val.apiAuthEnabled = true) (e : Endpoint)
    (hclosed : settings.isOpen e = false) :
    (createApp settings).guard e = some (settings.tokenFor e) := by
  have hprotect : ∀ exposed : Bool, exposed = false →
      (!exposed && settings.val.apiAuthEnabled) = true := by
    rintro exposed rfl
    rw [hauth]
    rfl
  cases e with
  | health => cases hclosed
  | readyz => exact if_pos (hprotect _ hclosed)
  | metrics => exact if_pos (hprotect _ hclosed)
  | call c => cases c <;> rfl

/-! ### The limiter, key by key -/

section Limiter

variable {limiter other : InProcessRateLimiter} {now : ℚ} {key k : String} {limit window : ℤ}

theorem check_other (h : k ≠ key) :
    (limiter.check now k limit window).1.counters.get key = limiter.counters.get key := by
  unfold InProcessRateLimiter.check
  dsimp only
  split_ifs <;> rw [Items.get_set, if_neg h]

theorem check_congr (h : limiter.counters.get k = other.counters.get k) :
    (limiter.check now k limit window).2 = (other.check now k limit window).2 ∧
      (limiter.check now k limit window).1.counters.get k =
        (other.check now k limit window).1.counters.get k := by
  unfold InProcessRateLimiter.check
  dsimp only
  rw [h]
  split_ifs <;> exact ⟨rfl, by rw [Items.get_set, Items.get_set, if_pos rfl, if_pos rfl]⟩

theorem sweep_congr (h : limiter.counters.get key = other.counters.get key) :
    (limiter.sweepExpired now).1.counters.get key = (other.sweepExpired now).1.counters.get key := by
  have hexpired : ∀ l : InProcessRateLimiter, key ∈ l.expired now ↔
      ∃ c, l.counters.get key = some c ∧ now - c.windowStart ≥ c.windowSeconds := by
    intro l
    constructor
    · intro hkey
      obtain ⟨e, he, rfl⟩ := List.mem_map.mp hkey
      obtain ⟨hmem, hover⟩ := List.mem_filter.mp he
      exact ⟨e.2, Items.get_eq_some.mpr hmem, of_decide_eq_true hover⟩
    · rintro ⟨c, hget, hover⟩
      exact List.mem_map.mpr ⟨(key, c),
        List.mem_filter.mpr ⟨Items.get_eq_some.mp hget, decide_eq_true hover⟩, rfl⟩
  have hiff : key ∈ limiter.expired now ↔ key ∈ other.expired now := by
    rw [hexpired, hexpired, h]
  unfold InProcessRateLimiter.sweepExpired
  rw [Items.get_delete, Items.get_delete, h]
  by_cases hkey : key ∈ other.expired now
  · rw [if_pos hkey, if_pos (hiff.mpr hkey)]
  · rw [if_neg hkey, if_neg fun h => hkey (hiff.mp h)]

end Limiter

namespace RateLimiterMiddleware

variable {sha256 : String → String} {middleware : RateLimiterMiddleware} {now : ℚ}
  {request : Request} {limiter other : InProcessRateLimiter}

/-- A request is counted under its bucket alone. -/
theorem dispatch_other {key : String} (h : middleware.bucket sha256 request ≠ key) :
    (middleware.dispatch sha256 now request limiter).1.counters.get key =
      limiter.counters.get key := by
  unfold dispatch
  dsimp only
  cases middleware.limitOf (classifyPath request.path) with
  | none => rfl
  | some config =>
    dsimp only
    have hcheck : (limiter.check now (middleware.bucket sha256 request) config.requests
        config.windowSeconds).1.counters.get key = limiter.counters.get key := check_other h
    split_ifs <;> exact hcheck

/-- The bucket decides the response. -/
theorem dispatch_congr (h : limiter.counters.get (middleware.bucket sha256 request) =
      other.counters.get (middleware.bucket sha256 request)) :
    (middleware.dispatch sha256 now request limiter).2 =
        (middleware.dispatch sha256 now request other).2 ∧
      (middleware.dispatch sha256 now request limiter).1.counters.get
          (middleware.bucket sha256 request) =
        (middleware.dispatch sha256 now request other).1.counters.get
          (middleware.bucket sha256 request) := by
  unfold dispatch
  dsimp only
  cases middleware.limitOf (classifyPath request.path) with
  | none => exact ⟨rfl, h⟩
  | some config =>
    dsimp only
    have hcheck : _ ∧ (limiter.check now (middleware.bucket sha256 request) config.requests
        config.windowSeconds).1.counters.get _ = (other.check now _ _ _).1.counters.get _ :=
      check_congr h
    obtain ⟨hresult, hget⟩ := hcheck
    unfold bucket at hresult hget
    rw [hresult]
    split_ifs <;> exact ⟨rfl, hget⟩

end RateLimiterMiddleware

/-! ### Guests -/

/-- The header is read alike by the guards and by the limiter: the token stands after one blank. -/
def HttpTurn.Plain (lib : HttpLibraries) : HttpTurn → Prop
  | .arrive _ r _ => ∀ token, lib.credentials r.authorization = some token →
      bearerToken (r.authorization.getD "") = some token
  | _ => True

/-- Everything but the arrival of a request without the token of its class. -/
def App.counts (app : App) : HttpTurn → Bool
  | .arrive _ r _ => decide (app.rateLimiter.carriesToken r.head)
  | _ => true

/-- A metrics page without what open endpoints let guests set: the readiness gauges if the readiness
probe is open, and the report that is remembered if the page itself is. -/
def MetricsPage.apart (s : Settings) (page : MetricsPage) : MetricsPage :=
  ⟨if s.val.exposeReadyz then [] else page.readiness,
    ⟨page.report.status, if s.val.exposeMetrics then none else page.report.summary⟩, page.work⟩

def ProbeReply.apart (s : Settings) : ProbeReply → ProbeReply
  | .metrics (.ok page) => .metrics (.ok (page.apart s))
  | reply => reply

def HttpOutput.apart (s : Settings) : HttpOutput → HttpOutput
  | .arrived a reply => .arrived a (reply.map (ProbeReply.apart s))
  | o => o

/-- The same gauges, as far as guests cannot set them. -/
structure Published.Alike (settings : Settings) (p q : Published) : Prop where
  readiness : settings.val.exposeReadyz = false → p.readiness = q.readiness
  summary : settings.val.exposeMetrics = false → p.report.summary = q.report.summary

/-- The same calls in flight, the same database, the same work done, the same counters for tokens, and
gauges that are alike. -/
structure Alike (settings : Settings) (s t : HttpState) : Prop where
  world : s.world = t.world
  inFlight : s.inFlight = t.inFlight
  work : s.work = t.work
  counters : ∀ c v, s.limiter.counters.get (rateLimitKey c (.tokenHash, v)) =
    t.limiter.counters.get (rateLimitKey c (.tokenHash, v))
  published : s.published.Alike settings t.published

section

variable {settings : Settings} {lib : HttpLibraries} {now : ℚ} {r : HttpRequest}
  {limiter other : InProcessRateLimiter}

/-- Who is admitted has passed the guard. -/
theorem gate_admitted {app : App} {e : Endpoint}
    (h : (app.gate lib now r limiter).2 = .admitted e) :
    r.target = .route e ∧ app.passes (lib.credentials r.authorization) e = true := by
  have henter : app.enter (lib.credentials r.authorization) r.target = .admitted e := by
    unfold App.gate at h
    dsimp only at h
    split_ifs at h
    split at h
    · cases h
    · exact h
  unfold App.enter at henter
  split at henter
  · cases henter
  · rename_i e' htarget
    split_ifs at henter with hpasses
    cases henter
    exact ⟨htarget, hpasses⟩

/-- The guard is passed with its token. -/
theorem passes_token (hauth : settings.val.apiAuthEnabled = true) {e : Endpoint}
    {credentials expected : Option String} (hguard : (createApp settings).guard e = some expected)
    (h : (createApp settings).passes credentials e = true) :
    ∃ token, credentials = some token ∧ expected = some token := by
  unfold App.passes at h
  rw [hguard] at h
  have henters : (!settings.val.apiAuthEnabled || tokenMatches credentials expected) = true := h
  rw [hauth, Bool.not_true, Bool.false_or, tokenMatches_iff] at henters
  obtain ⟨token, hcredentials, hexpected, -⟩ := henters
  exact ⟨token, hcredentials, hexpected⟩

/-- Guests are admitted to open endpoints only. -/
theorem guest_open (hauth : settings.val.apiAuthEnabled = true) {around : Surroundings}
    (hplain : (HttpTurn.arrive now r around).Plain lib)
    (hguest : ¬(createApp settings).rateLimiter.carriesToken r.head) {e : Endpoint}
    (h : ((createApp settings).gate lib now r limiter).2 = .admitted e) :
    settings.isOpen e = true := by
  by_contra hopen
  have hclosed : settings.isOpen e = false := Bool.eq_false_iff.mpr hopen
  obtain ⟨htarget, hpasses⟩ := gate_admitted h
  obtain ⟨token, hcredentials, htoken⟩ := passes_token hauth (guard_eq hauth e hclosed) hpasses
  refine hguest ⟨token, hplain token hcredentials, ?_⟩
  have hpath : r.head.path = e.path := congrArg Target.path htarget
  rw [hpath, classifyPath_endpoint, ← htoken]
  exact validTokens_endpoint settings hclosed

/-- A guest is not admitted to a call. -/
theorem guest_calls (hauth : settings.val.apiAuthEnabled = true) {around : Surroundings}
    (hplain : (HttpTurn.arrive now r around).Plain lib)
    (hguest : ¬(createApp settings).rateLimiter.carriesToken r.head) :
    ((createApp settings).gate lib now r limiter).2.calls = [] := by
  cases hadmission : ((createApp settings).gate lib now r limiter).2 with
  | admitted e =>
    have hopen := guest_open hauth hplain hguest hadmission
    cases e with
    | call c => cases hopen
    | _ => rfl
  | _ => rfl

/-- A guest leaves the counters of tokens alone. -/
theorem guest_counters (app : App) (hguest : ¬app.rateLimiter.carriesToken r.head) (c : RouteClass)
    (v : String) :
    (app.gate lib now r limiter).1.counters.get (rateLimitKey c (.tokenHash, v)) =
      limiter.counters.get (rateLimitKey c (.tokenHash, v)) := by
  have hbucket : app.rateLimiter.bucket lib.sha256 r.head ≠ rateLimitKey c (.tokenHash, v) := by
    rw [RateLimiterMiddleware.bucket_of_not_carries hguest]
    intro h
    cases (rateLimitKey_injective h).2
  have hother : (app.rateLimiter.dispatch lib.sha256 now r.head limiter).1.counters.get _ =
      limiter.counters.get _ := RateLimiterMiddleware.dispatch_other hbucket
  unfold App.gate
  dsimp only
  split_ifs
  · rfl
  · rfl
  · generalize app.rateLimiter.dispatch lib.sha256 now r.head limiter = d at hother
    obtain ⟨l, response⟩ := d
    cases response with
    | none => exact hother
    | some response => exact hother

/-- Requests with the token of their class fare alike where the counters of tokens are. -/
theorem carrier_congr (app : App) (lib : HttpLibraries) (now : ℚ)
    (hcarries : app.rateLimiter.carriesToken r.head)
    (h : ∀ c v, limiter.counters.get (rateLimitKey c (.tokenHash, v)) =
      other.counters.get (rateLimitKey c (.tokenHash, v))) :
    (app.gate lib now r limiter).2 = (app.gate lib now r other).2 ∧
      ∀ c v, (app.gate lib now r limiter).1.counters.get (rateLimitKey c (.tokenHash, v)) =
        (app.gate lib now r other).1.counters.get (rateLimitKey c (.tokenHash, v)) := by
  obtain ⟨token, -, hbucket⟩ := RateLimiterMiddleware.bucket_of_carries lib.sha256 hcarries
  have hsame := h (classifyPath r.head.path) (lib.sha256 token)
  rw [← hbucket] at hsame
  have hdispatch : (app.rateLimiter.dispatch lib.sha256 now r.head limiter).2 = _ ∧ _ :=
    RateLimiterMiddleware.dispatch_congr hsame
  obtain ⟨hresponse, hget⟩ := hdispatch
  have hcounters : ∀ c v,
      (app.rateLimiter.dispatch lib.sha256 now r.head limiter).1.counters.get
          (rateLimitKey c (.tokenHash, v)) =
        (app.rateLimiter.dispatch lib.sha256 now r.head other).1.counters.get
          (rateLimitKey c (.tokenHash, v)) := by
    intro c v
    by_cases hkey : app.rateLimiter.bucket lib.sha256 r.head = rateLimitKey c (.tokenHash, v)
    · rw [← hkey]
      exact hget
    · rw [RateLimiterMiddleware.dispatch_other hkey, RateLimiterMiddleware.dispatch_other hkey]
      exact h c v
  unfold App.gate
  dsimp only
  split_ifs
  · exact ⟨rfl, h⟩
  · exact ⟨rfl, h⟩
  · generalize app.rateLimiter.dispatch lib.sha256 now r.head limiter = d at hresponse hcounters
    generalize app.rateLimiter.dispatch lib.sha256 now r.head other = d' at hresponse hcounters
    obtain ⟨l, response⟩ := d
    obtain ⟨l', response'⟩ := d'
    obtain rfl : response = response' := hresponse
    cases response with
    | none => exact ⟨rfl, hcounters⟩
    | some response => exact ⟨rfl, hcounters⟩

end

/-! ### The probes -/

section

variable {settings : Settings} {lib : HttpLibraries} {p q : Published}

/-- A scrape reads the file anew, and adds what it remembers. -/
theorem refreshProjection_congr {loads : String → Loads}
    {fromisoformat : String → Option ParsedDatetime} {now : Instant} {file : Option ReportFile}
    {p q : ReportProjection} :
    (∃ e, refreshProjection loads fromisoformat now file p = .error e ∧
      refreshProjection loads fromisoformat now file q = .error e) ∨
    ∃ p' q', refreshProjection loads fromisoformat now file p = .ok p' ∧
      refreshProjection loads fromisoformat now file q = .ok q' ∧ p'.status = q'.status ∧
      (p.summary = q.summary → p'.summary = q'.summary) := by
  unfold refreshProjection
  cases file with
  | none => exact Or.inr ⟨_, _, rfl, rfl, rfl, id⟩
  | some file =>
    dsimp only
    cases readSnapshot loads fromisoformat now file with
    | error e => exact Or.inl ⟨e, rfl, rfl⟩
    | ok verdict =>
      refine Or.inr ⟨_, _, rfl, rfl, rfl, fun h => ?_⟩
      show verdict.2.or p.summary = verdict.2.or q.summary
      rw [h]

/-- A probe is answered alike where the gauges are alike, and leaves them alike. -/
theorem answer_alike (lib : HttpLibraries) (h : p.Alike settings q) (around : Surroundings)
    (work : List Work) (e : Endpoint) :
    (e.answer lib around work p).1.Alike settings (e.answer lib around work q).1 ∧
      (e.answer lib around work p).2.map (ProbeReply.apart settings) =
        (e.answer lib around work q).2.map (ProbeReply.apart settings) := by
  cases e with
  | health => exact ⟨h, rfl⟩
  | readyz => exact ⟨⟨fun _ => rfl, h.summary⟩, rfl⟩
  | call c => exact ⟨h, rfl⟩
  | metrics =>
    unfold Endpoint.answer
    dsimp only
    rcases refreshProjection_congr (p := p.report) (q := q.report) with
      ⟨e, hp, hq⟩ | ⟨p', q', hp, hq, hstatus, hsummary⟩
    · rw [hp, hq]
      exact ⟨h, rfl⟩
    · rw [hp, hq]
      refine ⟨⟨h.readiness, fun hclosed => hsummary (h.summary hclosed)⟩, ?_⟩
      have hreadiness : (if settings.val.exposeReadyz then [] else p.readiness) =
          if settings.val.exposeReadyz then [] else q.readiness := by
        split_ifs with hopen
        · rfl
        · exact h.readiness (Bool.eq_false_iff.mpr hopen)
      have hreport : (if settings.val.exposeMetrics then none else p'.summary) =
          if settings.val.exposeMetrics then none else q'.summary := by
        split_ifs with hopen
        · rfl
        · exact hsummary (h.summary (Bool.eq_false_iff.mpr hopen))
      show some (ProbeReply.metrics (.ok (MetricsPage.apart settings _))) =
        some (ProbeReply.metrics (.ok (MetricsPage.apart settings _)))
      unfold MetricsPage.apart
      dsimp only
      rw [hreadiness, hreport, hstatus]

/-- An open endpoint sets only what is open. -/
theorem answer_open {e : Endpoint} (hopen : settings.isOpen e = true) (h : p.Alike settings q)
    (around : Surroundings) (work : List Work) :
    (e.answer lib around work p).1.Alike settings q := by
  cases e with
  | health => exact h
  | call c => cases hopen
  | readyz =>
    exact ⟨fun hclosed => absurd (hclosed.symm.trans hopen) Bool.false_ne_true, h.summary⟩
  | metrics =>
    unfold Endpoint.answer
    dsimp only
    cases refreshProjection lib.jsonLoads lib.fromisoformat around.utcNow around.reportFile
      p.report with
    | error e => exact h
    | ok report =>
      exact ⟨h.readiness, fun hclosed => absurd (hclosed.symm.trans hopen) Bool.false_ne_true⟩

end

/-! ### Taking guests out -/

section

variable {settings : Settings} {lib : HttpLibraries}

theorem turn_arrive {app : App} {now : ℚ} {r : HttpRequest} {around : Surroundings}
    {s : HttpState} :
    app.turn lib (.arrive now r around) s =
      .ok (⟨(app.gate lib now r s.limiter).1,
        s.inFlight ++ (app.gate lib now r s.limiter).2.calls, s.world, s.work,
        ((app.gate lib now r s.limiter).2.answer lib around s.work s.published).1⟩,
        .arrived (app.gate lib now r s.limiter).2
          ((app.gate lib now r s.limiter).2.answer lib around s.work s.published).2) :=
  rfl

/-- What the process does of itself depends on the database alone, and touches neither the limiter nor
the calls in flight nor the gauges. -/
theorem turn_internal (app : App) (lib : HttpLibraries) (a : Activity) (world : World) :
    (∃ world' work, ∀ s : HttpState, s.world = world →
      app.turn lib (.internal a) s =
        .ok ({ s with world := world', work := s.work ++ work }, .done)) ∨
    ∀ s : HttpState, s.world = world → app.turn lib (.internal a) s = .error .notDue := by
  by_cases hinternal : a.isInternal = true
  · cases hserve : serve a world with
    | ok p =>
      refine Or.inl ⟨p.1, [.internal a true], ?_⟩
      rintro s rfl
      simp only [App.turn, if_pos hinternal, hserve]
    | error e =>
      cases e with
      | notDue =>
        refine Or.inr ?_
        rintro s rfl
        simp only [App.turn, if_pos hinternal, hserve]
      | _ =>
        refine Or.inl ⟨world, [.internal a false], ?_⟩
        rintro s rfl
        simp only [App.turn, if_pos hinternal, hserve]
  · refine Or.inr ?_
    rintro s -
    simp only [App.turn, if_neg hinternal]

/-- A turn that counts, from states that are alike. -/
theorem turn_alike {t : HttpTurn} {s s₁ : HttpState}
    (hcounts : (createApp settings).counts t = true) (hs : Alike settings s s₁) :
    (∃ s' s₁' o o₁, (createApp settings).turn lib t s = .ok (s', o) ∧
      (createApp settings).turn lib t s₁ = .ok (s₁', o₁) ∧ Alike settings s' s₁' ∧
      o.apart settings = o₁.apart settings) ∨
    ∃ e e₁, (createApp settings).turn lib t s = .error e ∧
      (createApp settings).turn lib t s₁ = .error e₁ := by
  obtain ⟨limiter, inFlight, world, work, published⟩ := s
  obtain ⟨limiter₁, inFlight₁, world₁, work₁, published₁⟩ := s₁
  obtain ⟨hworld, hinFlight, hwork, hcounters, hpublished⟩ := hs
  obtain rfl : world = world₁ := hworld
  obtain rfl : inFlight = inFlight₁ := hinFlight
  obtain rfl : work = work₁ := hwork
  cases t with
  | arrive now r around =>
    obtain ⟨hadmission, hcounters'⟩ := carrier_congr (createApp settings) lib now
      (of_decide_eq_true hcounts) hcounters
    refine Or.inl ⟨_, _, _, _, turn_arrive, turn_arrive, ?_⟩
    dsimp only at hadmission hcounters' ⊢
    rw [← hadmission]
    cases hgate : ((createApp settings).gate lib now r limiter).2 with
    | admitted e =>
      obtain ⟨halike, hreply⟩ := answer_alike lib hpublished around work e
      exact ⟨⟨rfl, rfl, rfl, hcounters', halike⟩, congrArg (HttpOutput.arrived _) hreply⟩
    | _ => exact ⟨⟨rfl, rfl, rfl, hcounters', hpublished⟩, rfl⟩
  | sweepLimiter now =>
    exact Or.inl ⟨_, _, _, _, rfl, rfl,
      ⟨rfl, rfl, rfl, fun c v => sweep_congr (hcounters c v), hpublished⟩, rfl⟩
  | perform n =>
    cases hcall : inFlight[n]? with
    | none =>
      refine Or.inr ⟨.notDue, .notDue, ?_, ?_⟩
      · simp only [App.turn, hcall]
      · simp only [App.turn, hcall]
    | some c =>
      refine Or.inl ⟨⟨limiter, inFlight.eraseIdx n, (c.perform world).1,
          work ++ [.call c (c.perform world).2], published⟩,
        ⟨limiter₁, inFlight.eraseIdx n, (c.perform world).1,
          work ++ [.call c (c.perform world).2], published₁⟩,
        .performed c (c.perform world).2, .performed c (c.perform world).2, ?_, ?_, ?_, rfl⟩
      · simp only [App.turn, hcall]
      · simp only [App.turn, hcall]
      · exact ⟨rfl, rfl, rfl, hcounters, hpublished⟩
  | internal a =>
    rcases turn_internal (createApp settings) lib a world with ⟨world', done, hturn⟩ | hturn
    · exact Or.inl ⟨_, _, _, _, hturn _ rfl, hturn _ rfl,
        ⟨rfl, rfl, rfl, hcounters, hpublished⟩, rfl⟩
    · exact Or.inr ⟨_, _, hturn _ rfl, hturn _ rfl⟩

theorem guests_unwind (hauth : settings.val.apiAuthEnabled = true) :
    Unwinds ((createApp settings).turn lib) (HttpTurn.Plain lib) (createApp settings).counts
      (HttpOutput.apart settings) (Alike settings) where
  hidden := by
    intro t s s₁ s' o hplain hcounts hs h
    cases t with
    | arrive now r around =>
      have hguest : ¬(createApp settings).rateLimiter.carriesToken r.head :=
        of_decide_eq_false hcounts
      rw [turn_arrive] at h
      cases h
      refine ⟨hs.world, ?_, hs.work, fun c v => ?_, ?_⟩
      · rw [guest_calls hauth hplain hguest, List.append_nil]
        exact hs.inFlight
      · rw [guest_counters (createApp settings) hguest c v]
        exact hs.counters c v
      · cases hadmission : ((createApp settings).gate lib now r s.limiter).2 with
        | admitted e =>
          exact answer_open (guest_open hauth hplain hguest hadmission) hs.published around s.work
        | _ => exact hs.published
    | _ => cases hcounts
  ok := by
    intro t s s₁ s' o _ hcounts hs h
    have halike : (∃ s₂ s₁' o' o₁, (createApp settings).turn lib t s = .ok (s₂, o') ∧ _) ∨ _ :=
      turn_alike hcounts hs
    rcases halike with ⟨s₂, s₁', o', o₁, h₂, h', halike, hview⟩ | ⟨e, e₁, h₂, -⟩
    · rw [h] at h₂
      cases h₂
      exact ⟨s₁', o₁, h', halike, hview⟩
    · rw [h] at h₂
      cases h₂
  error := by
    intro t s s₁ e _ hcounts hs h
    have halike : (∃ s₂ s₁' o' o₁, (createApp settings).turn lib t s = .ok (s₂, o') ∧ _) ∨ _ :=
      turn_alike hcounts hs
    rcases halike with ⟨s₂, s₁', o', o₁, h₂, -⟩ | ⟨-, e₁, -, h'⟩
    · rw [h] at h₂
      cases h₂
    · exact ⟨e₁, h'⟩

/-- Where neither is open, nothing is left out. -/
theorem apart_eq (hreadyz : settings.val.exposeReadyz = false)
    (hmetrics : settings.val.exposeMetrics = false) (o : HttpOutput) : o.apart settings = o := by
  have hpage : ∀ page : MetricsPage, page.apart settings = page := by
    intro page
    unfold MetricsPage.apart
    rw [hreadyz, hmetrics]
    rfl
  have hreply : ProbeReply.apart settings = id := by
    funext reply
    cases reply with
    | metrics page =>
      cases page with
      | error e => rfl
      | ok page => exact congrArg (fun page => ProbeReply.metrics (.ok page)) (hpage page)
    | _ => rfl
  cases o with
  | arrived a reply =>
    unfold HttpOutput.apart
    rw [hreply, Option.map_id]
    rfl
  | _ => rfl

end

/-- **Guests change nothing.**  With authentication enabled, take the arrivals of requests without the
token of their route class out of any run, in which every header is read alike: the database and the
calls in flight are the same, and everyone else has the same answers, to arrivals and to calls, but
for two things that `/v1/metrics` shows: the readiness gauges where the readiness probe is open, and
the report remembered from earlier scrapes where the page itself is.  Where both ask for the token,
the answers are the same altogether. -/
theorem guests_change_nothing (settings : Settings) (lib : HttpLibraries) (turns : List HttpTurn)
    (hauth : settings.val.apiAuthEnabled = true) (hplain : ∀ t ∈ turns, t.Plain lib) :
    (httpAfter (createApp settings) lib turns).world =
        (httpAfter (createApp settings) lib (turns.filter (createApp settings).counts)).world ∧
    (httpAfter (createApp settings) lib turns).inFlight =
        (httpAfter (createApp settings) lib (turns.filter (createApp settings).counts)).inFlight ∧
    viewed (HttpOutput.apart settings)
        ((httpLog (createApp settings) lib turns).filter fun e => (createApp settings).counts e.1) =
      viewed (HttpOutput.apart settings)
        (httpLog (createApp settings) lib (turns.filter (createApp settings).counts)) ∧
    (settings.val.exposeReadyz = false → settings.val.exposeMetrics = false →
      ((httpLog (createApp settings) lib turns).filter fun e => (createApp settings).counts e.1) =
        httpLog (createApp settings) lib (turns.filter (createApp settings).counts)) := by
  have hstart : Alike settings {} {} := ⟨rfl, rfl, rfl, fun _ _ => rfl, fun _ => rfl, fun _ => rfl⟩
  obtain ⟨halike, hlog⟩ := (guests_unwind hauth).run_filter hstart hplain
  refine ⟨halike.world, halike.inFlight, hlog, fun hreadyz hmetrics => ?_⟩
  have hwhole : ∀ l : List (HttpTurn × HttpOutput), viewed (HttpOutput.apart settings) l = l := by
    intro l
    have hid : ∀ e ∈ l, (e.1, e.2.apart settings) = e := fun e _ => by
      rw [apart_eq hreadyz hmetrics]
    exact (List.map_congr_left hid).trans l.map_id
  rw [hwhole, hwhole] at hlog
  exact hlog

def sampleSettings : Settings where
  val := ⟨.production, 30, 100, true, some "op", some "in", false, false, 1048576, none, none, none,
    none, none, true, 60, 60, 120, 60, 30, 60, 60, 60, 120, 60, 60, 65536, "key"⟩
  valid := by decide +kernel

/-- The probes are open, as they are by default. -/
def openSettings : Settings where
  val := ⟨.test, 30, 100, true, some "op", some "in", true, true, 1048576, none, none, none,
    none, none, true, 60, 60, 120, 60, 30, 60, 60, 60, 120, 60, 60, 65536, "key"⟩
  valid := by decide +kernel

def sampleLibraries : HttpLibraries where
  sha256 := id
  parseInt := fun s => s.toInt?
  credentials := fun header => bearerToken (header.getD "")
  jsonLoads := fun _ => .jsonDecodeError
  fromisoformat := fun _ => none

/-- The page of incidents and the probes are asked for by a guest, then by the operator, whose page is
read. -/
def sampleGuestTurns : List HttpTurn :=
  let around : Surroundings :=
    ⟨⟨false, true, true, true, true, true, some [], some true⟩, some .absent, 0⟩
  let arrive (e : Endpoint) (authorization : Option String) : HttpTurn :=
    .arrive 0 ⟨.route e, authorization, some "10.0.0.1", none, [.request (some []) (some false)]⟩
      around
  [arrive (.call (.page .incidents)) none, arrive .readyz none, arrive .metrics none,
    arrive (.call (.page .incidents)) (some "Bearer op"), arrive .metrics (some "Bearer op"),
    .perform 0]

theorem guests_change_nothing_sample :
    viewed (HttpOutput.apart openSettings)
        ((httpLog (createApp openSettings) sampleLibraries sampleGuestTurns).filter fun e =>
          (createApp openSettings).counts e.1) =
      viewed (HttpOutput.apart openSettings) (httpLog (createApp openSettings) sampleLibraries
        (sampleGuestTurns.filter (createApp openSettings).counts)) ∧
    ((httpLog (createApp sampleSettings) sampleLibraries sampleGuestTurns).filter fun e =>
        (createApp sampleSettings).counts e.1) =
      httpLog (createApp sampleSettings) sampleLibraries
        (sampleGuestTurns.filter (createApp sampleSettings).counts) := by
  have hplain : ∀ t ∈ sampleGuestTurns, t.Plain sampleLibraries := by
    intro t ht
    simp only [sampleGuestTurns, List.mem_cons, List.not_mem_nil, or_false] at ht
    rcases ht with rfl | rfl | rfl | rfl | rfl | rfl
    · exact fun _ h => h
    · exact fun _ h => h
    · exact fun _ h => h
    · exact fun _ h => h
    · exact fun _ h => h
    · trivial
  exact ⟨(guests_change_nothing openSettings sampleLibraries sampleGuestTurns rfl hplain).2.2.1,
    (guests_change_nothing sampleSettings sampleLibraries sampleGuestTurns rfl hplain).2.2.2 rfl rfl⟩

/-! ### Calls and their tokens -/

/-- The calls that a turn has admitted. -/
def HttpOutput.admittedCalls : HttpOutput → List RouteCall
  | .arrived a _ => a.calls
  | _ => []

/-- The calls that a turn has performed. -/
def HttpOutput.performedCalls : HttpOutput → List RouteCall
  | .performed c _ => [c]
  | _ => []

def Endpoint.isIngest : Endpoint → Bool
  | .call (.ingest _) => true
  | _ => false

/-- The request is for the endpoint, and has sent its token, which is none of the endpoints on the
other side, unless the endpoint asks for none. -/
def HttpRequest.Authorised (settings : Settings) (lib : HttpLibraries) (r : HttpRequest)
    (e : Endpoint) : Prop :=
  r.target = .route e ∧ (settings.isOpen e = true ∨
    ∃ token, lib.credentials r.authorization = some token ∧ settings.tokenFor e = some token ∧
      ∀ e' : Endpoint, e'.isIngest ≠ e.isIngest → settings.tokenFor e' ≠ some token)

section

variable {settings : Settings} {lib : HttpLibraries}

/-- The two tokens are for different endpoints. -/
theorem tokenFor_isIngest (hauth : settings.val.apiAuthEnabled = true) {e e' : Endpoint}
    (h : settings.tokenFor e = settings.tokenFor e') : e.isIngest = e'.isIngest := by
  obtain ⟨operator, ingress, hoperator, hingress, hne⟩ := settings.tokens hauth
  have htoken : ∀ e, settings.tokenFor e = some (if e.isIngest then ingress else operator) := by
    intro e
    cases e with
    | call c =>
      cases c with
      | ingest call => exact hingress
      | _ => exact hoperator
    | _ => exact hoperator
  rw [htoken, htoken, Option.some_inj] at h
  cases he : e.isIngest <;> cases he' : e'.isIngest <;> rw [he, he'] at h
  · exact absurd h hne
  · exact absurd h.symm hne

/-- What a turn does to the calls in flight, and what it answers. -/
theorem turn_cases {app : App} {t : HttpTurn} {s s' : HttpState} {o : HttpOutput}
    (h : app.turn lib t s = .ok (s', o)) :
    (∃ now r around, t = .arrive now r around ∧
      s'.inFlight = s.inFlight ++ (app.gate lib now r s.limiter).2.calls ∧
      ∃ reply, o = .arrived (app.gate lib now r s.limiter).2 reply) ∨
    (∃ n c, t = .perform n ∧ s.inFlight[n]? = some c ∧ s'.inFlight = s.inFlight.eraseIdx n ∧
      ∃ reply, o = .performed c reply) ∨
    (s'.inFlight = s.inFlight ∧ o = .done) := by
  cases t with
  | arrive now r around =>
    rw [turn_arrive] at h
    cases h
    exact Or.inl ⟨now, r, around, rfl, rfl, _, rfl⟩
  | sweepLimiter now =>
    cases h
    exact Or.inr (Or.inr ⟨rfl, rfl⟩)
  | perform n =>
    cases hcall : s.inFlight[n]? with
    | none =>
      simp only [App.turn, hcall] at h
      cases h
    | some c =>
      simp only [App.turn, hcall] at h
      cases h
      exact Or.inr (Or.inl ⟨n, c, rfl, hcall, rfl, _, rfl⟩)
  | internal a =>
    rcases turn_internal app lib a s.world with ⟨world, work, hturn⟩ | hturn
    · rw [hturn s rfl] at h
      cases h
      exact Or.inr (Or.inr ⟨rfl, rfl⟩)
    · rw [hturn s rfl] at h
      cases h

/-- What a turn admits stays in flight until it is performed. -/
theorem turn_conserves {app : App} {t : HttpTurn} {s s' : HttpState} {o : HttpOutput}
    (h : app.turn lib t s = .ok (s', o)) :
    (s.inFlight ++ o.admittedCalls).Perm (o.performedCalls ++ s'.inFlight) := by
  rcases turn_cases h with ⟨now, r, around, -, hinFlight, reply, rfl⟩ |
    ⟨n, c, -, hcall, hinFlight, reply, rfl⟩ | ⟨hinFlight, rfl⟩
  · rw [hinFlight]
    exact List.Perm.refl _
  · obtain ⟨hn, rfl⟩ := List.getElem?_eq_some_iff.mp hcall
    rw [hinFlight]
    show (s.inFlight ++ []).Perm (s.inFlight[n] :: s.inFlight.eraseIdx n)
    rw [List.append_nil]
    exact (List.getElem_cons_eraseIdx_perm hn).symm
  · rw [hinFlight]
    simp [HttpOutput.admittedCalls, HttpOutput.performedCalls]

/-- An admission is an arrival's. -/
theorem turn_arrived {app : App} {t : HttpTurn} {s s' : HttpState} {a : Admission}
    {reply : Option ProbeReply} (h : app.turn lib t s = .ok (s', .arrived a reply)) :
    ∃ now r around, t = .arrive now r around ∧ (app.gate lib now r s.limiter).2 = a := by
  rcases turn_cases h with ⟨now, r, around, ht, -, reply', ho⟩ |
    ⟨n, c, -, -, -, reply', ho⟩ | ⟨-, ho⟩
  · cases ho
    exact ⟨now, r, around, ht, rfl⟩
  · cases ho
  · cases ho

/-- A call that is performed was in flight. -/
theorem turn_performed {app : App} {t : HttpTurn} {s s' : HttpState} {c : RouteCall}
    {reply : RouteReply} (h : app.turn lib t s = .ok (s', .performed c reply)) :
    c ∈ s.inFlight := by
  rcases turn_cases h with ⟨now, r, around, -, -, reply', ho⟩ |
    ⟨n, c', -, hcall, -, reply', ho⟩ | ⟨-, ho⟩
  · cases ho
  · cases ho
    exact List.mem_of_getElem? hcall
  · cases ho

/-- Who is admitted is authorised. -/
theorem gate_authorised (hauth : settings.val.apiAuthEnabled = true) {now : ℚ} {r : HttpRequest}
    {limiter : InProcessRateLimiter} {e : Endpoint}
    (h : ((createApp settings).gate lib now r limiter).2 = .admitted e) :
    r.Authorised settings lib e := by
  obtain ⟨htarget, hpasses⟩ := gate_admitted h
  refine ⟨htarget, ?_⟩
  cases hopen : settings.isOpen e with
  | true => exact Or.inl rfl
  | false =>
    obtain ⟨token, hcredentials, htoken⟩ := passes_token hauth (guard_eq hauth e hopen) hpasses
    refine Or.inr ⟨token, hcredentials, htoken, fun e' hne h' => hne ?_⟩
    exact tokenFor_isIngest hauth (h'.trans htoken.symm)

/-- The calls that a run has admitted are those it has performed and those in flight. -/
theorem admitted_perm (turns : List HttpTurn) :
    ((httpLog (createApp settings) lib turns).flatMap fun c => c.2.admittedCalls).Perm
      (((httpLog (createApp settings) lib turns).flatMap fun c => c.2.performedCalls) ++
        (httpAfter (createApp settings) lib turns).inFlight) := by
  refine run_induction (R := fun (l : List (HttpTurn × HttpOutput)) (s : HttpState) =>
    (l.flatMap fun c => c.2.admittedCalls).Perm
      ((l.flatMap fun c => c.2.performedCalls) ++ s.inFlight)) (List.Perm.refl _) ?_ turns
  intro is i s' o ih h
  rw [List.flatMap_append, List.flatMap_append, List.flatMap_singleton, List.flatMap_singleton,
    List.append_assoc]
  refine (ih.append_right _).trans ?_
  rw [List.append_assoc]
  exact (turn_conserves h).append_left _

/-- Who has been admitted was authorised. -/
theorem arrivals_authorised (hauth : settings.val.apiAuthEnabled = true) (turns : List HttpTurn) :
    ∀ t e reply, (t, .arrived (.admitted e) reply) ∈ httpLog (createApp settings) lib turns →
      ∃ now r around, t = .arrive now r around ∧ r.Authorised settings lib e := by
  refine run_induction (R := fun (l : List (HttpTurn × HttpOutput)) (_ : HttpState) =>
    ∀ t e reply, (t, .arrived (.admitted e) reply) ∈ l →
      ∃ now r around, t = .arrive now r around ∧ r.Authorised settings lib e)
    (fun t e reply hmem => absurd hmem List.not_mem_nil) ?_ turns
  intro is i s' o ih h t e reply hmem
  rcases List.mem_append.mp hmem with hmem | hmem
  · exact ih t e reply hmem
  · obtain ⟨rfl, rfl⟩ := Prod.mk.inj (List.mem_singleton.mp hmem)
    obtain ⟨now, r, around, rfl, hadmitted⟩ := turn_arrived h
    exact ⟨now, r, around, rfl, gate_authorised hauth hadmitted⟩

/-- A call in flight has been admitted. -/
theorem inFlight_authorised (hauth : settings.val.apiAuthEnabled = true) {turns : List HttpTurn}
    {c : RouteCall} (h : c ∈ (httpAfter (createApp settings) lib turns).inFlight) :
    ∃ now r around reply, (.arrive now r around, .arrived (.admitted (.call c)) reply) ∈
      httpLog (createApp settings) lib turns ∧ r.Authorised settings lib (.call c) := by
  have hmem := (admitted_perm turns).mem_iff.mpr (List.mem_append_right _ h)
  obtain ⟨⟨t, o⟩, hlog, hadmitted⟩ := List.mem_flatMap.mp hmem
  cases o with
  | arrived a reply =>
    cases a with
    | admitted e =>
      cases e with
      | call c' =>
        obtain rfl := List.mem_singleton.mp hadmitted
        obtain ⟨now, r, around, rfl, hauthorised⟩ := arrivals_authorised hauth turns _ _ _ hlog
        exact ⟨now, r, around, reply, hlog, hauthorised⟩
      | _ => cases hadmitted
    | _ => cases hadmitted
  | _ => cases hadmitted

end

/-- **Calls are authorised.**  With authentication enabled, the calls that any run has admitted are
those it has performed and those in flight, each as often as it was admitted; whoever was admitted
was authorised, so that a call is performed only after the arrival of an authorised request for it;
and in production only the liveness probe is open. -/
theorem calls_are_authorised (settings : Settings) (lib : HttpLibraries) (turns : List HttpTurn)
    (hauth : settings.val.apiAuthEnabled = true) :
    ((httpLog (createApp settings) lib turns).flatMap fun c => c.2.admittedCalls).Perm
      (((httpLog (createApp settings) lib turns).flatMap fun c => c.2.performedCalls) ++
        (httpAfter (createApp settings) lib turns).inFlight) ∧
    (∀ t e reply, (t, .arrived (.admitted e) reply) ∈ httpLog (createApp settings) lib turns →
      ∃ now r around, t = .arrive now r around ∧ r.Authorised settings lib e) ∧
    (∀ before t c reply after,
      httpLog (createApp settings) lib turns = before ++ (t, .performed c reply) :: after →
      ∃ now r around answer,
        (.arrive now r around, .arrived (.admitted (.call c)) answer) ∈ before ∧
        r.Authorised settings lib (.call c)) ∧
    (settings.val.environment = .production → ∀ e, settings.isOpen e = true → e = .health) := by
  refine ⟨admitted_perm turns, arrivals_authorised hauth turns, ?_, fun hproduction e hopen => ?_⟩
  · refine run_induction (R := fun (l : List (HttpTurn × HttpOutput)) (_ : HttpState) =>
      ∀ before t c reply after, l = before ++ (t, .performed c reply) :: after →
        ∃ now r around answer,
          (.arrive now r around, .arrived (.admitted (.call c)) answer) ∈ before ∧
          r.Authorised settings lib (.call c)) ?_ ?_ turns
    · intro before t c reply after h
      simp at h
    · intro is i s' o ih h before t c reply after hsplit
      -- The call is the last one, and was in flight, or it stands further in front.
      rcases List.eq_nil_or_concat after with rfl | ⟨after, last, rfl⟩
      · obtain ⟨rfl, hlast⟩ := List.append_inj' hsplit rfl
        obtain ⟨rfl, rfl⟩ := Prod.mk.inj (List.singleton_inj.mp hlast)
        exact inFlight_authorised hauth (turn_performed h)
      · rw [List.concat_eq_append, ← List.cons_append, ← List.append_assoc] at hsplit
        exact ih before t c reply after (List.append_inj' hsplit rfl).1
  · obtain ⟨-, hreadyz, hmetrics⟩ := settings.production hproduction
    cases e with
    | health => rfl
    | readyz => exact absurd (hreadyz.symm.trans hopen) Bool.false_ne_true
    | metrics => exact absurd (hmetrics.symm.trans hopen) Bool.false_ne_true
    | call c => cases hopen

/-- The page that is read in the sample. -/
theorem calls_are_authorised_sample :
    ((httpLog (createApp sampleSettings) sampleLibraries sampleGuestTurns).flatMap fun c =>
      c.2.performedCalls).length = 1 ∧
    ∀ before t c reply after,
      httpLog (createApp sampleSettings) sampleLibraries sampleGuestTurns =
        before ++ (t, .performed c reply) :: after →
      ∃ now r around answer,
        (.arrive now r around, .arrived (.admitted (.call c)) answer) ∈ before ∧
        r.Authorised sampleSettings sampleLibraries (.call c) :=
  ⟨by decide +kernel,
    (calls_are_authorised sampleSettings sampleLibraries sampleGuestTurns rfl).2.2.1⟩

end Correlia
