import Correlia.Lib.Sorted
import Correlia.Lib.Text
import Correlia.Middleware.Classification

/-!
# Middleware.RateLimit — the in-process rate limiter and the middleware around it

`check` and `sweepExpired` are one critical section each, under the limiter's lock.  Times are
readings of the monotonic clock in seconds, taken exact.
-/

namespace Correlia

open Lib

structure RateLimitConfig where
  enabled : Bool
  requests : ℤ
  windowSeconds : ℤ

/-- An entry of `_counters`. -/
structure Counter where
  count : ℕ
  windowStart : ℚ
  windowSeconds : ℤ
deriving DecidableEq

structure InProcessRateLimiter where
  counters : Items String Counter := Items.empty

/-- What `check` returns. -/
structure CheckResult where
  allowed : Bool
  retryAfter : Option ℤ
deriving DecidableEq

namespace InProcessRateLimiter

def check (now : ℚ) (key : String) (limit windowSeconds : ℤ) (limiter : InProcessRateLimiter) :
    InProcessRateLimiter × CheckResult :=
  let found := (limiter.counters.get key).getD ⟨0, now, windowSeconds⟩
  let counter : Counter :=
    if now - found.windowStart ≥ windowSeconds then ⟨0, now, windowSeconds⟩
    else ⟨found.count, found.windowStart, windowSeconds⟩
  if (counter.count : ℤ) ≥ limit then
    let resetAt := counter.windowStart + windowSeconds
    (⟨limiter.counters.set key counter⟩, ⟨false, some (max 1 ⌈resetAt - now⌉)⟩)
  else
    (⟨limiter.counters.set key { counter with count := counter.count + 1 }⟩, ⟨true, none⟩)

/-- The keys whose window has run out. -/
def expired (now : ℚ) (limiter : InProcessRateLimiter) : List String :=
  (limiter.counters.entries.filter fun e => now - e.2.windowStart ≥ e.2.windowSeconds).map Prod.fst

def sweepExpired (now : ℚ) (limiter : InProcessRateLimiter) : InProcessRateLimiter × ℕ :=
  (⟨limiter.counters.delete (limiter.expired now)⟩, (limiter.expired now).length)

end InProcessRateLimiter

/-! ### The middleware -/

/-- What the middleware reads of a request. -/
structure Request where
  path : String
  authorization : Option String
  client : Option String

/-- Tokens that are set, by route class.  Comparing their UTF-8 bytes is comparing the texts. -/
def normalizeValidTokens (tokens : List (RouteClass × Option String)) :
    List (RouteClass × String) :=
  tokens.filterMap fun e => e.2.map fun token => (e.1, token)

inductive IdentityType
  | tokenHash
  | ip
deriving DecidableEq, Repr

def IdentityType.text : IdentityType → String
  | .tokenHash => "token_hash"
  | .ip => "ip"

/-- `auth_header[7:]`, of a bearer header. -/
def bearerToken (authHeader : String) : Option String :=
  if "bearer ".toList.isPrefixOf (lower authHeader) then
    some (String.ofList (authHeader.toList.drop 7))
  else none

def identityForRequest (sha256 : String → String) (request : Request) (routeClass : RouteClass)
    (validTokens : List (RouteClass × String)) : IdentityType × String :=
  let byAddress := (IdentityType.ip, request.client.getD "unknown")
  match bearerToken (request.authorization.getD "") with
  | some token =>
    if getItem routeClass validTokens = some token then (.tokenHash, sha256 token)
    else byAddress
  | none => byAddress

structure RateLimiterMiddleware where
  configs : List (RouteClass × RateLimitConfig)
  validTokens : List (RouteClass × String)

structure JSONResponse where
  statusCode : ℕ
  detail : String
  headers : List (String × String)
deriving DecidableEq

def rateLimitKey (routeClass : RouteClass) (identity : IdentityType × String) : String :=
  routeClass.text ++ ":" ++ identity.1.text ++ ":" ++ identity.2

/-- The configuration a request is limited by. -/
def RateLimiterMiddleware.limitOf (middleware : RateLimiterMiddleware) (routeClass : RouteClass) :
    Option RateLimitConfig :=
  (getItem routeClass middleware.configs).filter fun config =>
    config.enabled && !decide (config.requests ≤ 0) && !decide (config.windowSeconds ≤ 0)

/-- `dispatch`: `none` where the request goes on to the application. -/
def RateLimiterMiddleware.dispatch (sha256 : String → String)
    (middleware : RateLimiterMiddleware) (now : ℚ) (request : Request)
    (limiter : InProcessRateLimiter) : InProcessRateLimiter × Option JSONResponse :=
  let routeClass := classifyPath request.path
  match middleware.limitOf routeClass with
  | none => (limiter, none)
  | some config =>
    let identity := identityForRequest sha256 request routeClass middleware.validTokens
    let r :=
      limiter.check now (rateLimitKey routeClass identity) config.requests config.windowSeconds
    if r.2.allowed then (r.1, none)
    else
      (r.1, some ⟨429, "rate limit exceeded",
        r.2.retryAfter.toList.map fun seconds => ("Retry-After", toString seconds)⟩)

end Correlia
