import Mathlib

/-!
# Middleware.Classification — the route class of a path
-/

namespace Correlia

inductive RouteClass
  | operator
  | ingress
  | metrics
  | readyz
  | health
deriving DecidableEq, Repr

def RouteClass.text : RouteClass → String
  | .operator => "operator"
  | .ingress => "ingress"
  | .metrics => "metrics"
  | .readyz => "readyz"
  | .health => "health"

def ROUTE_CLASS_PREFIXES : List (String × RouteClass) :=
  [("/v1/icinga2/events", .ingress), ("/v1/incident-events", .operator),
    ("/v1/incidents", .operator), ("/v1/rules", .operator), ("/v1/topology", .operator),
    ("/v1/plugins", .operator), ("/v1/metrics", .metrics), ("/v1/readyz", .readyz),
    ("/v1/health", .health)]

def classifyPath (path : String) : RouteClass :=
  match ROUTE_CLASS_PREFIXES.find? fun e =>
      path == e.1 || (e.1 ++ "/").toList.isPrefixOf path.toList with
  | some e => e.2
  | none => .operator

example : classifyPath "/v1/incidents/7" = .operator ∧ classifyPath "/v1/metrics" = .metrics := by
  decide +kernel

end Correlia
