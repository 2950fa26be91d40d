import Correlia.Persistence.Listing

/-!
# Processing.Metrics — reading the migration report (`app/processing/metrics.py`)

A report is what `json.loads` makes of the file; `json.loads` and `datetime.fromisoformat` are
parameters.  A membership test of an unhashable value raises `TypeError`.
-/

namespace Correlia

open Lib

def migrationReportMaxBytes : ℕ := 65536
def migrationReportVersion : ℤ := 1
def migrationReportMaxIssueCount : ℤ := 1000

/-- `datetime(2020, 1, 1, tzinfo=timezone.utc)`. -/
def migrationReportMinCompletedAt : Instant := seconds (737424 * 86400)

inductive MigrationReportStatus
  | disabled | absent | valid | malformed | oversized | unsupportedVersion | futureTimestamp
  | invalidSummary | unsafeFile | readError
deriving DecidableEq, Repr

inductive MigrationOutcome
  | success | failure
deriving DecidableEq, Repr

def MigrationOutcome.value : MigrationOutcome → String
  | success => "success"
  | failure => "failure"

inductive MigrationFailureCode
  | none | argument | inputValidation | sourceValidation | catalogedIncompatibility
  | stagedValidation | promotionFailure
deriving DecidableEq, Repr

def MigrationFailureCode.value : MigrationFailureCode → String
  | none => "none"
  | argument => "argument"
  | inputValidation => "input_validation"
  | sourceValidation => "source_validation"
  | catalogedIncompatibility => "cataloged_incompatibility"
  | stagedValidation => "staged_validation"
  | promotionFailure => "promotion_failure"

def migrationOutcomes : List (String × MigrationOutcome) :=
  [.success, .failure].map fun o => (o.value, o)

def migrationFailureCodes : List (String × MigrationFailureCode) :=
  [.none, .argument, .inputValidation, .sourceValidation, .catalogedIncompatibility,
   .stagedValidation, .promotionFailure].map fun c => (c.value, c)

def migrationReportDomains : List String :=
  ["inputs", "rules", "topology", "plugins", "validation", "promotion"]

def migrationReportIssueCodes : List String :=
  ["duplicate_flag", "invalid_input_path", "invalid_yaml", "invalid_source_document",
   "missing_top_level_wrapper", "unknown_source_field", "unsupported_rule_min_hosts",
   "unsupported_rule_is_dc_level", "invalid_rule_severity", "invalid_rule_priority",
   "invalid_rule_tags", "invalid_rule_matcher", "duplicate_rule_priority", "empty_actions",
   "invalid_action_entry", "unsupported_tag_wildcard", "invalid_topology_tag_key",
   "unsupported_group_by", "unsupported_summary_placeholder", "missing_topology_target_tag",
   "unsupported_hostname_topology", "invalid_topology_section", "invalid_topology_value",
   "missing_subnet_field", "unsupported_plugin_section", "unsupported_plugin_type",
   "unsupported_plugin_class", "plaintext_smtp_credentials", "unsupported_plugin_option",
   "unknown_action_plugin", "validation_failure", "promotion_failure"]

/-! ### Looking at parsed JSON -/

/-- `TypeError: unhashable type`. -/
inductive ReportError
  | unhashable
deriving DecidableEq

/-- What a valid report says: outcome, failure code and completion time. -/
abbrev MigrationSummary := MigrationOutcome × MigrationFailureCode × Instant

abbrev Verdict := MigrationReportStatus × Option MigrationSummary

/-- `set(report) == {...}`. -/
def keysAre (names : List String) (fields : List (String × Json)) : Bool :=
  (fields.all fun e => decide (e.1 ∈ names)) && names.all fun n => decide (n ∈ fields.map Prod.fst)

/-- `report[name]` of a key that is there. -/
def item (name : String) (fields : List (String × Json)) : Json := (getItem name fields).getD .null

/-- `value in names`, with what the member stands for. -/
def memberOf {α : Type} (names : List (String × α)) : Json → Except ReportError (Option α)
  | .string s => .ok (getItem s names)
  | .array _ => .error .unhashable
  | .object _ => .error .unhashable
  | _ => .ok none

def isString : Json → Bool
  | .string _ => true
  | _ => false

/-- `value == 1`. -/
def equalsOne : Json → Bool
  | .int n => decide (n = migrationReportVersion)
  | .bool b => b
  | .float r => decide (r = "1.0")
  | _ => false

/-! ### `_validate_migration_report` -/

def reportKeys : List String := ["ok", "errors", "generated", "metrics_summary"]

def issueKeys : List String := ["domain", "location", "code", "message", "requirement"]

def metricsSummaryKeys : List String :=
  ["version", "outcome", "failure_code", "issue_count", "issues_truncated", "completed_at"]

/-- `generated is None`, or a dict of the three paths. -/
def generatedOk : Json → Bool
  | .null => true
  | .object fields =>
    keysAre ["rules", "topology", "plugins"] fields && fields.all fun e => isString e.2
  | _ => false

/-- The test of one entry of `errors`; false where the report is refused. -/
def issueOk : Json → Except ReportError Bool
  | .object fields => do
    if !keysAre issueKeys fields then
      return false
    let domain ← memberOf (migrationReportDomains.map fun d => (d, ())) (item "domain" fields)
    if domain.isNone then
      return false
    let code ← memberOf (migrationReportIssueCodes.map fun c => (c, ())) (item "code" fields)
    if code.isNone then
      return false
    return fields.all fun e => isString e.2
  | _ => .ok false

/-- The loop over `errors`. -/
def issuesOk : List Json → Except ReportError Bool
  | [] => .ok true
  | issue :: rest => do
    if !(← issueOk issue) then
      return false
    issuesOk rest

/-- `completed_at` read and compared. -/
def validateCompletedAt (fromisoformat : String → Option ParsedDatetime) (now : Instant)
    (outcome : MigrationOutcome) (failureCode : MigrationFailureCode) (text : String) : Verdict :=
  match fromisoformat (replaceText "Z" "+00:00" text) with
  | none => (.invalidSummary, none)
  | some .naive => (.futureTimestamp, none)
  | some (.aware d) =>
    if d.instant < migrationReportMinCompletedAt ∨ now < d.instant then (.futureTimestamp, none)
    else (.valid, some (outcome, failureCode, d.instant))

/-- The consistency rules between the counts, the flags and the outcome. -/
def summaryConsistent (ok : Bool) (emitted : ℤ) (outcome : MigrationOutcome)
    (failureCode : MigrationFailureCode) (issueCount : ℤ) (truncated : Bool) : Bool :=
  decide (decide (outcome = .success) = ok) &&
  !(decide (outcome = .success ∧ failureCode ≠ .none)) &&
  !(decide (outcome = .failure ∧ failureCode = .none)) &&
  !(decide (emitted > issueCount)) &&
  !(truncated && decide (issueCount < migrationReportMaxIssueCount) &&
    decide (emitted = issueCount)) &&
  !(!truncated && decide (issueCount ≠ emitted))

/-- The checks of `metrics_summary`. -/
def validateSummary (fromisoformat : String → Option ParsedDatetime) (now : Instant) (ok : Bool)
    (emitted : ℤ) : Json → Except ReportError Verdict
  | .object summary => do
    if !keysAre metricsSummaryKeys summary then
      return (.invalidSummary, none)
    if !equalsOne (item "version" summary) then
      return (.unsupportedVersion, none)
    let some outcome ← memberOf migrationOutcomes (item "outcome" summary)
      | return (.invalidSummary, none)
    let some failureCode ← memberOf migrationFailureCodes (item "failure_code" summary)
      | return (.invalidSummary, none)
    match item "issue_count" summary, item "issues_truncated" summary,
      item "completed_at" summary with
    | .int issueCount, .bool truncated, .string completedAt =>
      if decide (0 ≤ issueCount ∧ issueCount ≤ migrationReportMaxIssueCount) &&
          summaryConsistent ok emitted outcome failureCode issueCount truncated then
        return validateCompletedAt fromisoformat now outcome failureCode completedAt
      else
        return (.invalidSummary, none)
    | _, _, _ => return (.invalidSummary, none)
  | _ => .ok (.invalidSummary, none)

/-- `_validate_migration_report`. -/
def validateMigrationReport (fromisoformat : String → Option ParsedDatetime) (now : Instant) :
    Json → Except ReportError Verdict
  | .object report => do
    if !keysAre reportKeys report then
      return (.malformed, none)
    match item "ok" report, item "errors" report with
    | .bool ok, .array errors =>
      let generated := item "generated" report
      if !generatedOk generated then
        return (.malformed, none)
      if !(← issuesOk errors) then
        return (.invalidSummary, none)
      let missing := match generated with
        | .null => true
        | _ => false
      if (ok && (missing || !errors.isEmpty)) || (!ok && !missing) then
        return (.malformed, none)
      validateSummary fromisoformat now ok errors.length (item "metrics_summary" report)
    | _, _ => return (.malformed, none)
  | _ => .ok (.malformed, none)

/-! ### `_read_migration_report_snapshot` -/

/-- What opening and reading the report path meets. -/
inductive ReportFile
  | absent
  | refused
  | notRegular
  | unreadable
  | regular (data : List UInt8)

structure ReportReaders where
  jsonLoads : String → Option Json
  fromisoformat : String → Option ParsedDatetime

/-- `_read_migration_report_snapshot`. -/
def readMigrationReportSnapshot (readers : ReportReaders) (now : Instant) :
    ReportFile → Except ReportError Verdict
  | .absent => .ok (.absent, none)
  | .refused => .ok (.unsafeFile, none)
  | .notRegular => .ok (.unsafeFile, none)
  | .unreadable => .ok (.readError, none)
  | .regular data =>
    if migrationReportMaxBytes < data.length then .ok (.oversized, none)
    else
      match (utf8Text data).bind readers.jsonLoads with
      | none => .ok (.malformed, none)
      | some report => validateMigrationReport readers.fromisoformat now report

/-! ### The exceptions by class, and what is published -/

/-- What `json.loads` does with a text. -/
inductive Loads
  | value (j : Json)
  | jsonDecodeError
  | recursionError
  /-- `ValueError: Exceeds the limit (4300 digits) for integer string conversion`. -/
  | valueError

/-- What leaves `_read_migration_report_snapshot`. -/
inductive SnapshotError
  | typeError
  | valueError
deriving DecidableEq

def ReportError.toSnapshotError : ReportError → SnapshotError
  | .unhashable => .typeError

/-- `_read_migration_report_snapshot`, with the exceptions of `json.loads` by class. -/
def readSnapshot (loads : String → Loads) (fromisoformat : String → Option ParsedDatetime)
    (now : Instant) : ReportFile → Except SnapshotError Verdict
  | .absent => .ok (.absent, none)
  | .refused => .ok (.unsafeFile, none)
  | .notRegular => .ok (.unsafeFile, none)
  | .unreadable => .ok (.readError, none)
  | .regular data =>
    if migrationReportMaxBytes < data.length then .ok (.oversized, none)
    else
      match utf8Text data with
      | none => .ok (.malformed, none)
      | some text =>
        match loads text with
        | .jsonDecodeError => .ok (.malformed, none)
        | .recursionError => .ok (.malformed, none)
        | .valueError => .error .valueError
        | .value report =>
          liftError ReportError.toSnapshotError (validateMigrationReport fromisoformat now report)

/-- What is published of the report. -/
structure ReportProjection where
  status : MigrationReportStatus
  summary : Option MigrationSummary

/-- `_refresh_migration_report_projection_locked`; without a path the report is disabled. -/
def refreshProjection (loads : String → Loads) (fromisoformat : String → Option ParsedDatetime)
    (now : Instant) (file : Option ReportFile) (p : ReportProjection) :
    Except SnapshotError ReportProjection :=
  match file with
  | none => .ok { p with status := .disabled }
  | some file => do
    let verdict ← readSnapshot loads fromisoformat now file
    return ⟨verdict.1, verdict.2.or p.summary⟩

end Correlia
