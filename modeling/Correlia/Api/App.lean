import Correlia.Api.Health
import Correlia.Api.Incidents
import Correlia.Api.Security
import Correlia.Middleware.SizeLimit
import Correlia.Processing.Metrics

/-!
# Api.App — the application and the way of a request to its route (`create_app` in `app/main.py`)

The size limiter was added last, so it is asked first; then the rate limiter, then the token of the
route.  Routing, and reading a body into the model of its route, is the framework's: a request comes
with the route it is meant for, or with none when the framework answers it.
-/

namespace Correlia

open Lib

/-- The routers that only read. -/
inductive OperatorPage
  | incidents | incidentEvents | plugins | rules | topology
deriving DecidableEq

def OperatorPage.path : OperatorPage → String
  | incidents => "/v1/incidents"
  | incidentEvents => "/v1/incident-events"
  | plugins => "/v1/plugins"
  | rules => "/v1/rules"
  | topology => "/v1/topology"

/-- A call of a route that works on the database. -/
inductive RouteCall
  | page (p : OperatorPage)
  /-- The path goes on after `/v1/incidents/`. -/
  | incident (rest : String) (q : IncidentRequest)
  | ingest (call : PayloadCall)

def RouteCall.path : RouteCall → String
  | page p => p.path
  | incident rest _ => "/v1/incidents/" ++ rest
  | ingest _ => "/v1/icinga2/events"

inductive Endpoint
  | health
  | readyz
  | metrics
  | call (c : RouteCall)

def Endpoint.path : Endpoint → String
  | health => "/v1/health"
  | readyz => "/v1/readyz"
  | metrics => "/v1/metrics"
  | call c => c.path

inductive Target
  | route (e : Endpoint)
  /-- No route, or a body that is none of its route. -/
  | framework (path : String)

def Target.path : Target → String
  | route e => e.path
  | framework path => path

structure HttpRequest where
  target : Target
  authorization : Option String := none
  client : Option String := none
  contentLength : Option String := none
  messages : List RequestSizeLimiterMiddleware.Message := []

/-- What the rate limiter reads of it. -/
def HttpRequest.head (r : HttpRequest) : Request := ⟨r.target.path, r.authorization, r.client⟩

/-- The libraries in a request's way: `hashlib`, `int`, the credentials in a header, and what reads a
migration report. -/
structure HttpLibraries where
  sha256 : String → String
  parseInt : String → Option ℤ
  credentials : Option String → Option String
  jsonLoads : String → Loads
  fromisoformat : String → Option ParsedDatetime

/-! ### The application -/

namespace Settings

variable (s : Settings)

/-- `_body_size_limits_from_settings` -/
def bodySizeLimits : List (RouteClass × Option ℤ) :=
  [(.operator, s.val.maxBodyBytesOperator), (.ingress, s.val.maxBodyBytesIngress),
    (.metrics, s.val.maxBodyBytesMetrics), (.readyz, s.val.maxBodyBytesReadyz),
    (.health, s.val.maxBodyBytesHealth)]

/-- `_rate_limit_configs_from_settings` -/
def rateLimitConfigs : List (RouteClass × RateLimitConfig) :=
  let config (requests windowSeconds : ℤ) : RateLimitConfig :=
    ⟨s.val.rateLimitEnabled, requests, windowSeconds⟩
  [(.operator, config s.val.rateLimitRequestsOperator s.val.rateLimitWindowSecondsOperator),
    (.ingress, config s.val.rateLimitRequestsIngress s.val.rateLimitWindowSecondsIngress),
    (.metrics, config s.val.rateLimitRequestsMetrics s.val.rateLimitWindowSecondsMetrics),
    (.readyz, config s.val.rateLimitRequestsReadyz s.val.rateLimitWindowSecondsReadyz),
    (.health, config s.val.rateLimitRequestsHealth s.val.rateLimitWindowSecondsHealth)]

/-- `_valid_tokens_for_rate_limit` -/
def validTokens : List (RouteClass × Option String) :=
  [(.operator, s.val.operatorApiToken), (.ingress, s.val.ingressApiToken),
    (.metrics, s.val.operatorApiToken), (.readyz, s.val.operatorApiToken), (.health, none)]

end Settings

structure App where
  settings : Settings
  sizeLimiter : RequestSizeLimiterMiddleware
  rateLimiter : RateLimiterMiddleware
  protectReadyz : Bool
  protectMetrics : Bool

def createApp (s : Settings) : App where
  settings := s
  sizeLimiter := .init s.val.maxBodyBytes s.bodySizeLimits
  rateLimiter := ⟨s.rateLimitConfigs, normalizeValidTokens s.validTokens⟩
  protectReadyz := !s.val.exposeReadyz && s.val.apiAuthEnabled
  protectMetrics := !s.val.exposeMetrics && s.val.apiAuthEnabled

/-! ### The way of a request -/

/-- What becomes of a request before its route is called. -/
inductive Admission
  | tooLarge
  /-- The client is gone, or the body has not come. -/
  | unread
  | refused (response : JSONResponse)
  | framework
  | admitted (e : Endpoint)

namespace App

variable (app : App)

/-- The token that a call's router asks for. -/
def tokenOf : RouteCall → Option String
  | .page _ => app.settings.val.operatorApiToken
  | .incident _ _ => app.settings.val.operatorApiToken
  | .ingest _ => app.settings.val.ingressApiToken

/-- The guard of a route: the token it asks for, if it asks. -/
def guard : Endpoint → Option (Option String)
  | .health => none
  | .readyz => if app.protectReadyz then some app.settings.val.operatorApiToken else none
  | .metrics => if app.protectMetrics then some app.settings.val.operatorApiToken else none
  | .call c => some (app.tokenOf c)

/-- The credentials pass the guard. -/
def passes (credentials : Option String) (e : Endpoint) : Bool :=
  match app.guard e with
  | some expected => app.settings.admits credentials expected
  | none => true

/-- The route's turn. -/
def enter (credentials : Option String) : Target → Admission
  | .framework _ => .framework
  | .route e => if app.passes credentials e then .admitted e else .refused unauthorized

/-- The size limiter, the rate limiter, the guard. -/
def gate (lib : HttpLibraries) (now : ℚ) (r : HttpRequest) (limiter : InProcessRateLimiter) :
    InProcessRateLimiter × Admission :=
  let handled := app.sizeLimiter.call lib.parseInt ⟨"http", r.target.path, r.contentLength⟩ r.messages
  if handled.calls = [] then
    (limiter, if handled.sent = [] then .unread else .tooLarge)
  else
    match app.rateLimiter.dispatch lib.sha256 now r.head limiter with
    | (limiter, some response) => (limiter, .refused response)
    | (limiter, none) => (limiter, app.enter (lib.credentials r.authorization) r.target)

end App

/-! ### The service behind it -/

inductive RouteReply
  | incident (reply : IncidentReply)
  | ingested (committed : Bool)
  /-- A page is computed from the database. -/
  | page (database : Database)

/-- The work of a route. -/
def RouteCall.perform : RouteCall → World → World × RouteReply
  | .incident _ q, w => ((q.handle w).1, .incident (q.handle w).2)
  | .ingest call, w =>
    match serve (.ingress call) w with
    | .ok (w', _) => (w', .ingested true)
    | .error _ => (w, .ingested false)
  | .page _, w => (w, .page w.database)

/-- What the counters of the process count: the calls performed, with their replies, and what the
process has done of itself. -/
inductive Work
  | call (c : RouteCall) (reply : RouteReply)
  | internal (a : Activity) (committed : Bool)

/-- What `/v1/metrics` renders: the readiness gauges, the migration report, and the work behind the
counters.  The plugin loads and the gauge of the worker, which no request touches, are left out. -/
structure MetricsPage where
  readiness : ReadinessGauges
  report : ReportProjection
  work : List Work

/-- What probes leave in the process: the log of the readiness checks, and the two sets of gauges. -/
structure Published where
  readinessLog : ReadinessLog := {}
  readiness : ReadinessGauges := []
  report : ReportProjection := ⟨.disabled, none⟩

/-- What a probe finds: the process, the file of the report if a path is set, and the clock. -/
structure Surroundings where
  probe : Probe
  reportFile : Option ReportFile
  utcNow : Instant

inductive ProbeReply
  | health
  | readyz (statusCode : ℕ) (checks : List (ReadinessCheck × ReadinessState))
  /-- Reading the report can raise; the response is then the server's 500. -/
  | metrics (page : Except SnapshotError MetricsPage)

/-- A probe is answered at once; a call of a route waits for its turn. -/
def Endpoint.answer (lib : HttpLibraries) (around : Surroundings) (work : List Work) :
    Endpoint → Published → Published × Option ProbeReply
  | .health, p => (p, some .health)
  | .readyz, p =>
    let (readinessLog, statusCode, checks) := Correlia.readyz around.probe p.readinessLog
    (⟨readinessLog, recordReadinessEvaluation checks, p.report⟩, some (.readyz statusCode checks))
  | .metrics, p =>
    match refreshProjection lib.jsonLoads lib.fromisoformat around.utcNow around.reportFile
      p.report with
    | .ok report =>
      (⟨p.readinessLog, p.readiness, report⟩, some (.metrics (.ok ⟨p.readiness, report, work⟩)))
    | .error e => (p, some (.metrics (.error e)))
  | .call _, p => (p, none)

namespace Admission

/-- What an admission adds to the calls in flight. -/
def calls : Admission → List RouteCall
  | .admitted (.call c) => [c]
  | _ => []

def answer (lib : HttpLibraries) (around : Surroundings) (work : List Work) :
    Admission → Published → Published × Option ProbeReply
  | .admitted e, p => e.answer lib around work p
  | _, p => (p, none)

end Admission

/-- The limiter, the calls that are being handled, the database, and what is kept for the probes. -/
structure HttpState where
  limiter : InProcessRateLimiter := {}
  inFlight : List RouteCall := []
  world : World := ⟨⟨[], []⟩, []⟩
  work : List Work := []
  published : Published := {}

inductive HttpTurn
  | arrive (now : ℚ) (r : HttpRequest) (around : Surroundings)
  /-- The sweep worker of the limiter. -/
  | sweepLimiter (now : ℚ)
  /-- A call in flight does its work. -/
  | perform (n : ℕ)
  /-- A delivery is recorded, or incidents expire. -/
  | internal (a : Activity)

inductive HttpOutput
  /-- A probe has its reply at once. -/
  | arrived (a : Admission) (reply : Option ProbeReply)
  | performed (c : RouteCall) (reply : RouteReply)
  | done

/-- What the process does of itself: it records a delivery, or expires incidents. -/
def Activity.isInternal : Activity → Bool
  | .complete _ _ => true
  | .expire _ _ _ => true
  | _ => false

namespace App

def turn (app : App) (lib : HttpLibraries) : HttpTurn → HttpState →
    Except Refusal (HttpState × HttpOutput)
  | .arrive now r around, s =>
    let (limiter, admission) := app.gate lib now r s.limiter
    let (published, reply) := admission.answer lib around s.work s.published
    .ok (⟨limiter, s.inFlight ++ admission.calls, s.world, s.work, published⟩,
      .arrived admission reply)
  | .sweepLimiter now, s => .ok ({ s with limiter := (s.limiter.sweepExpired now).1 }, .done)
  | .perform n, s =>
    match s.inFlight[n]? with
    | some c =>
      let (world, reply) := c.perform s.world
      .ok (⟨s.limiter, s.inFlight.eraseIdx n, world, s.work ++ [.call c reply], s.published⟩,
        .performed c reply)
    | none => .error .notDue
  | .internal a, s =>
    if a.isInternal then
      match serve a s.world with
      | .ok (world, _) => .ok ({ s with world, work := s.work ++ [.internal a true] }, .done)
      | .error .notDue => .error .notDue
      | .error _ => .ok ({ s with work := s.work ++ [.internal a false] }, .done)
    else .error .notDue

end App

/-- The state after a run. -/
def httpAfter (app : App) (lib : HttpLibraries) (turns : List HttpTurn) : HttpState :=
  run (app.turn lib) {} turns

def httpLog (app : App) (lib : HttpLibraries) (turns : List HttpTurn) : List (HttpTurn × HttpOutput) :=
  log (app.turn lib) {} turns

end Correlia
