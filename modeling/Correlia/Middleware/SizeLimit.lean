import Correlia.Lib.Sorted
import Correlia.Middleware.Classification

/-!
# Middleware.SizeLimit — the request size limiter (`app/middleware/size_limit.py`)

The messages that `receive` yields are a list; where it ends before the body does, the call waits
for the next message.  `int` of a header's text is a parameter, nothing where it raises.
-/

namespace Correlia

open Lib

namespace RequestSizeLimiterMiddleware

/-- What the middleware reads of a scope. -/
structure Scope where
  type : String
  path : String
  contentLength : Option String

/-- A received message: of a request its `body` and `more_body`, where they are there. -/
inductive Message
  | request (body : Option (List UInt8)) (moreBody : Option Bool)
  | other (type : String)

inductive SentMessage
  | start (status : ℕ) (headers : List (String × String))
  | body (text : String)
deriving DecidableEq

/-- A call of the application, by the `receive` it is given. -/
inductive AppCall
  | received
  | replayed (body : List UInt8)
deriving DecidableEq

/-- `buffered_body` and `total`. -/
structure Buffer where
  body : List UInt8 := []
  total : ℕ := 0

/-- Where the loop stands after a message. -/
inductive Turn
  | reading (b : Buffer)
  | complete (b : Buffer)
  | tooLarge (total : ℕ)
  | gone

/-- One round of the loop. -/
def receiveTurn (limit : ℤ) (b : Buffer) : Message → Turn
  | .other _ => .gone
  | .request body moreBody =>
    let chunk := body.getD []
    let total := b.total + chunk.length
    if limit < total then .tooLarge total
    else if moreBody.getD false then .reading ⟨b.body ++ chunk, total⟩
    else .complete ⟨b.body ++ chunk, total⟩

/-- The loop. -/
def readBody (limit : ℤ) : Buffer → List Message → Turn
  | b, [] => .reading b
  | b, message :: rest =>
    match receiveTurn limit b message with
    | .reading b' => readBody limit b' rest
    | turn => turn

/-- `_send_413`. -/
def send413 : List SentMessage :=
  [.start 413 [("content-type", "application/json")],
    .body "\x7b\"detail\":\"request body too large\"\x7d"]

/-- `replay_receive`, with `replayed`. -/
def replayReceive (body : List UInt8) (replayed : Bool) : Message × Bool :=
  if replayed then (.request (some []) (some false), true)
  else (.request (some body) (some false), true)

/-- What a call has sent and called. -/
structure Handled where
  sent : List SentMessage := []
  calls : List AppCall := []
deriving DecidableEq

/-- What follows the loop. -/
def Turn.handled : Turn → Handled
  | .reading _ => {}
  | .gone => {}
  | .tooLarge _ => { sent := send413 }
  | .complete b => { calls := [.replayed b.body] }

end RequestSizeLimiterMiddleware

open RequestSizeLimiterMiddleware

structure RequestSizeLimiterMiddleware where
  defaultLimit : ℤ
  classLimits : List (RouteClass × Option ℤ)

namespace RequestSizeLimiterMiddleware

/-- `__init__`. -/
def init (defaultLimit : ℤ) (classLimits : List (RouteClass × Option ℤ)) :
    RequestSizeLimiterMiddleware :=
  ⟨max defaultLimit 0, classLimits⟩

/-- `_limit_for`. -/
def limitFor (m : RequestSizeLimiterMiddleware) (routeClass : RouteClass) : ℤ :=
  ((getItem routeClass m.classLimits).getD none).getD m.defaultLimit

/-- A header that is there is read as a number, or as zero. -/
def claimsMore (parseInt : String → Option ℤ) (limit : ℤ) : Option String → Bool
  | none => false
  | some text => decide (limit < (parseInt text).getD 0)

/-- `__call__`. -/
def call (m : RequestSizeLimiterMiddleware) (parseInt : String → Option ℤ) (scope : Scope)
    (messages : List Message) : Handled :=
  let limit := m.limitFor (classifyPath scope.path)
  if scope.type ≠ "http" then { calls := [.received] }
  else if limit ≤ 0 then { calls := [.received] }
  else if claimsMore parseInt limit scope.contentLength then { sent := send413 }
  else (readBody limit {} messages).handled

end RequestSizeLimiterMiddleware

end Correlia
