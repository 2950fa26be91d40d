import Correlia.Config.Settings
import Correlia.Middleware.RateLimit

/-!
# Api.Security — the token a route asks for (`app/api/security.py`)

What `HTTPBearer` makes of the header is given as `credentials`.
-/

namespace Correlia

open Lib

def isAscii (s : String) : Bool := s.toList.all fun c => decide (c.toNat < 128)

/-- `_token_matches`: `compare_digest` raises for texts that are not ASCII. -/
def tokenMatches (credentials expected : Option String) : Bool :=
  match expected, credentials with
  | some expected, some token => isAscii token && isAscii expected && decide (token = expected)
  | _, _ => false

/-- `require_operator_token` and `require_ingress_token`, by the token they ask for. -/
def Settings.admits (s : Settings) (credentials expected : Option String) : Bool :=
  !s.val.apiAuthEnabled || tokenMatches credentials expected

/-- `Unauthorized` -/
def unauthorized : JSONResponse := ⟨401, "unauthorized", [("WWW-Authenticate", "Bearer")]⟩

theorem tokenMatches_iff {credentials expected : Option String} :
    tokenMatches credentials expected = true ↔
      ∃ token, credentials = some token ∧ expected = some token ∧ isAscii token = true := by
  unfold tokenMatches
  split
  · simp only [Bool.and_eq_true, decide_eq_true_eq, Option.some.injEq]
    constructor
    · rintro ⟨⟨htoken, -⟩, rfl⟩
      exact ⟨_, rfl, rfl, htoken⟩
    · rintro ⟨token, rfl, rfl, htoken⟩
      exact ⟨⟨htoken, htoken⟩, rfl⟩
  · rename_i hnot
    constructor
    · exact fun h => by cases h
    · rintro ⟨token, rfl, rfl, -⟩
      exact absurd rfl (hnot token token rfl)

end Correlia
