import Correlia.Lib.Model
import Correlia.Lib.Text

/-!
# Config.Settings — the settings of a process (`app/config/settings.py`)

The paths, the database and the log level are left out.  The two validators of the whole model run
once the fields have passed, the second once the first has.
-/

namespace Correlia

open Lib

inductive Environment
  | «local» | test | production
deriving DecidableEq

structure SettingsFields where
  environment : Environment := .«local»
  lifecycleScanIntervalSeconds : ℤ := 30
  lifecycleBatchSize : ℤ := 100
  apiAuthEnabled : Bool := true
  operatorApiToken : Option String := none
  ingressApiToken : Option String := none
  exposeReadyz : Bool := true
  exposeMetrics : Bool := true
  maxBodyBytes : ℤ := 1048576
  maxBodyBytesOperator : Option ℤ := none
  maxBodyBytesIngress : Option ℤ := none
  maxBodyBytesMetrics : Option ℤ := none
  maxBodyBytesReadyz : Option ℤ := none
  maxBodyBytesHealth : Option ℤ := none
  rateLimitEnabled : Bool := true
  rateLimitRequestsOperator : ℤ := 60
  rateLimitWindowSecondsOperator : ℤ := 60
  rateLimitRequestsIngress : ℤ := 120
  rateLimitWindowSecondsIngress : ℤ := 60
  rateLimitRequestsMetrics : ℤ := 30
  rateLimitWindowSecondsMetrics : ℤ := 60
  rateLimitRequestsReadyz : ℤ := 60
  rateLimitWindowSecondsReadyz : ℤ := 60
  rateLimitRequestsHealth : ℤ := 120
  rateLimitWindowSecondsHealth : ℤ := 60
  rateLimitSweepIntervalSeconds : ℤ := 60
  auditRawPayloadMaxBytes : ℤ := 65536
  auditRawPayloadHmacKey : String

/-- `Field(ge=lo)` -/
def atLeastErrors (lo : ℤ) (loc : String) (v : ℤ) : List FieldError :=
  check (decide (lo ≤ v)) loc .greaterThanEqual

/-- `Field(ge=lo, le=hi)` -/
def betweenErrors (lo hi : ℤ) (loc : String) (v : ℤ) : List FieldError :=
  atLeastErrors lo loc v ++ check (decide (v ≤ hi)) loc .lessThanEqual

namespace SettingsFields

variable (s : SettingsFields)

def fieldErrors : List FieldError :=
  betweenErrors 1 86400 "lifecycle_scan_interval_seconds" s.lifecycleScanIntervalSeconds ++
  betweenErrors 1 1000 "lifecycle_batch_size" s.lifecycleBatchSize ++
  atLeastErrors 1024 "max_body_bytes" s.maxBodyBytes ++
  optErrors (atLeastErrors 1024 "max_body_bytes_operator") s.maxBodyBytesOperator ++
  optErrors (atLeastErrors 1024 "max_body_bytes_ingress") s.maxBodyBytesIngress ++
  optErrors (atLeastErrors 1024 "max_body_bytes_metrics") s.maxBodyBytesMetrics ++
  optErrors (atLeastErrors 1024 "max_body_bytes_readyz") s.maxBodyBytesReadyz ++
  optErrors (atLeastErrors 1024 "max_body_bytes_health") s.maxBodyBytesHealth ++
  atLeastErrors 1 "rate_limit_requests_operator" s.rateLimitRequestsOperator ++
  atLeastErrors 1 "rate_limit_window_seconds_operator" s.rateLimitWindowSecondsOperator ++
  atLeastErrors 1 "rate_limit_requests_ingress" s.rateLimitRequestsIngress ++
  atLeastErrors 1 "rate_limit_window_seconds_ingress" s.rateLimitWindowSecondsIngress ++
  atLeastErrors 1 "rate_limit_requests_metrics" s.rateLimitRequestsMetrics ++
  atLeastErrors 1 "rate_limit_window_seconds_metrics" s.rateLimitWindowSecondsMetrics ++
  atLeastErrors 1 "rate_limit_requests_readyz" s.rateLimitRequestsReadyz ++
  atLeastErrors 1 "rate_limit_window_seconds_readyz" s.rateLimitWindowSecondsReadyz ++
  atLeastErrors 1 "rate_limit_requests_health" s.rateLimitRequestsHealth ++
  atLeastErrors 1 "rate_limit_window_seconds_health" s.rateLimitWindowSecondsHealth ++
  betweenErrors 1 3600 "rate_limit_sweep_interval_seconds" s.rateLimitSweepIntervalSeconds ++
  betweenErrors 1024 1048576 "audit_raw_payload_max_bytes" s.auditRawPayloadMaxBytes

/-- The names for which the condition holds. -/
def named (l : List (Bool × String)) : List String := (l.filter Prod.fst).map Prod.snd

theorem named_eq_nil {l : List (Bool × String)} : named l = [] ↔ ∀ e ∈ l, e.1 = false := by
  rw [named, List.map_eq_nil_iff, List.filter_eq_nil_iff]
  simp only [Bool.not_eq_true]

/-- `_require_security_tokens_when_enabled`: the error it raises. -/
def requireSecurityTokensWhenEnabled : Option String :=
  let exposed := named
    [(!s.apiAuthEnabled, "api_auth_enabled=true"), (s.exposeReadyz, "expose_readyz=false"),
      (s.exposeMetrics, "expose_metrics=false")]
  if s.environment = .production ∧ exposed ≠ [] then
    some ("production requires: " ++ ", ".intercalate exposed)
  else if !s.apiAuthEnabled then none
  else
    let missing := named
      [(s.operatorApiToken.all isBlank, "operator_api_token"),
        (s.ingressApiToken.all isBlank, "ingress_api_token")]
    if missing ≠ [] then
      some ("api_auth_enabled requires non-empty values for: " ++ ", ".intercalate missing)
    else if s.operatorApiToken = s.ingressApiToken then
      some "api_auth_enabled requires distinct operator_api_token and ingress_api_token"
    else none

/-- `_require_audit_hmac_key`: the error it raises. -/
def requireAuditHmacKey : Option String :=
  if isBlank s.auditRawPayloadHmacKey then some "audit_raw_payload_hmac_key must be non-empty"
  else if s.operatorApiToken = some s.auditRawPayloadHmacKey then
    some "audit_raw_payload_hmac_key must differ from operator_api_token"
  else if s.ingressApiToken = some s.auditRawPayloadHmacKey then
    some "audit_raw_payload_hmac_key must differ from ingress_api_token"
  else none

/-- The error of a validator of the whole model. -/
def modelErrors (raised : Option String) : List FieldError :=
  (raised.map fun message => ⟨"", .valueError message⟩).toList

@[simp] theorem modelErrors_eq_nil {raised : Option String} :
    modelErrors raised = [] ↔ raised = none := by
  cases raised <;> simp [modelErrors]

def errors : List FieldError :=
  thenErrors s.fieldErrors (thenErrors (modelErrors s.requireSecurityTokensWhenEnabled)
    (modelErrors s.requireAuditHmacKey))

end SettingsFields

abbrev Settings := Checked SettingsFields.errors

namespace Settings

variable (s : Settings)

theorem validated : s.val.requireSecurityTokensWhenEnabled = none ∧ s.val.requireAuditHmacKey = none := by
  have hvalid := s.valid
  simp only [SettingsFields.errors, thenErrors_eq_nil, SettingsFields.modelErrors_eq_nil] at hvalid
  exact hvalid.2

/-- In production nothing is exposed. -/
theorem production (h : s.val.environment = .production) :
    s.val.apiAuthEnabled = true ∧ s.val.exposeReadyz = false ∧ s.val.exposeMetrics = false := by
  have hnone := s.validated.1
  unfold SettingsFields.requireSecurityTokensWhenEnabled at hnone
  dsimp only at hnone
  by_cases hexposed : SettingsFields.named [(!s.val.apiAuthEnabled, "api_auth_enabled=true"),
      (s.val.exposeReadyz, "expose_readyz=false"), (s.val.exposeMetrics, "expose_metrics=false")] = []
  · have hset := SettingsFields.named_eq_nil.mp hexposed
    refine ⟨by simpa using hset _ List.mem_cons_self, ?_, ?_⟩
    · exact hset (_, "expose_readyz=false") (by simp)
    · exact hset (_, "expose_metrics=false") (by simp)
  · rw [if_pos ⟨h, hexposed⟩] at hnone
    cases hnone

/-- With authentication there are two tokens, and they differ. -/
theorem tokens (h : s.val.apiAuthEnabled = true) : ∃ operator ingress,
    s.val.operatorApiToken = some operator ∧ s.val.ingressApiToken = some ingress ∧
      operator ≠ ingress := by
  have hnone := s.validated.1
  unfold SettingsFields.requireSecurityTokensWhenEnabled at hnone
  dsimp only at hnone
  rw [h] at hnone
  split_ifs at hnone with hexposed hoff hmissing hsame
  · cases hoff
  · have hset := SettingsFields.named_eq_nil.mp (not_not.mp hmissing)
    cases hoperator : s.val.operatorApiToken with
    | none =>
      rw [hoperator] at hset
      cases hset _ List.mem_cons_self
    | some operator =>
      cases hingress : s.val.ingressApiToken with
      | none =>
        rw [hingress] at hset
        cases hset _ (List.mem_cons_of_mem _ List.mem_cons_self)
      | some ingress =>
        refine ⟨operator, ingress, rfl, rfl, fun heq => hsame ?_⟩
        rw [hoperator, hingress, heq]

end Settings

end Correlia
