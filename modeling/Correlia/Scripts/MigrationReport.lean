import Correlia.Lib.JsonAscii
import Correlia.Processing.Metrics

/-!
# Scripts.MigrationReport — writing the migration report (`scripts/migrate_vigilo_config.py`)

The report file is given by its content before the run, if there was one; writing it either
publishes the whole report or raises `OSError` and leaves it as it was.
-/

namespace Correlia

open Lib

structure MigrationIssue where
  domain : String
  location : String
  code : String
  message : String
  requirement : String

/-- `MigrationIssue.to_json`. -/
def MigrationIssue.toJson (issue : MigrationIssue) : Json :=
  .object [("domain", .string issue.domain), ("location", .string issue.location),
    ("code", .string issue.code), ("message", .string issue.message),
    ("requirement", .string issue.requirement)]

/-- `_MIGRATION_SUMMARY_MAX_ISSUES`. -/
def migrationSummaryMaxIssues : ℕ := 1000

/-- `_MIGRATION_SUMMARY_VERSION`. -/
def migrationSummaryVersion : ℤ := 1

structure MigrationReport where
  ok : Bool
  errors : List Json
  generated : Json
  version : ℤ
  outcome : MigrationOutcome
  failureCode : MigrationFailureCode
  issueCount : ℕ
  issuesTruncated : Bool
  completedAt : String

def MigrationReport.summaryJson (r : MigrationReport) : Json :=
  .object [("version", .int r.version), ("outcome", .string r.outcome.value),
    ("failure_code", .string r.failureCode.value), ("issue_count", .int r.issueCount),
    ("issues_truncated", .bool r.issuesTruncated), ("completed_at", .string r.completedAt)]

def MigrationReport.toJson (r : MigrationReport) : Json :=
  .object [("ok", .bool r.ok), ("errors", .array r.errors), ("generated", r.generated),
    ("metrics_summary", r.summaryJson)]

/-- `_serialize_report`. -/
def serializeReport (report : Json) : String := String.ofList (asciiJson report)

/-- `str(directory / name)`, for the text of a path. -/
def joinPath (directory name : String) : String :=
  if directory = "." then name
  else if directory.toList.getLast? = some '/' then directory ++ name
  else directory ++ "/" ++ name

/-- The paths of a success. -/
def generatedJson (ok : Bool) (outDir : Option String) : Json :=
  match ok, outDir with
  | true, some dir =>
    .object [("rules", .string (joinPath dir "rules.yaml")),
      ("topology", .string (joinPath dir "topology.yaml")),
      ("plugins", .string (joinPath dir "plugins.yaml"))]
  | _, _ => .null

/-- The whole seconds of a time, as `isoformat(timespec="seconds")` writes them. -/
def wholeSeconds (d : Datetime) : Datetime :=
  { d with
    naive := d.naive - d.naive % usPerSecond
    naive_lt := (Nat.sub_le _ _).trans_lt d.naive_lt }

/-- The loop over the issues: errors are added while the file stays within its bound. -/
def addErrors (serializedSize : ℕ) (errors : List Json) : List MigrationIssue → List Json
  | [] => errors
  | issue :: rest =>
    let error := issue.toJson
    let separatorSize := if errors.isEmpty then 0 else 1
    let errorSize := (utf8Bytes (serializeReport error)).length
    if migrationReportMaxBytes < serializedSize + separatorSize + errorSize then errors
    else addErrors (serializedSize + (separatorSize + errorSize)) (errors ++ [error]) rest

/-- The report before the loop. -/
def preliminaryReport (now : Timestamptz) (ok : Bool) (issues : List MigrationIssue)
    (outDir : Option String) (failureCode : MigrationFailureCode) : MigrationReport :=
  let issueCount := min issues.length migrationSummaryMaxIssues
  { ok
    errors := []
    generated := generatedJson ok outDir
    version := migrationSummaryVersion
    outcome := if ok then .success else .failure
    failureCode
    issueCount
    issuesTruncated := decide (issues.length > issueCount)
    completedAt := (wholeSeconds now.toDatetime).isoformat }

/-- `_build_report`. -/
def buildReport (now : Timestamptz) (ok : Bool) (issues : List MigrationIssue)
    (outDir : Option String) (failureCode : MigrationFailureCode) : MigrationReport :=
  let report := preliminaryReport now ok issues outDir failureCode
  let serializedSize := (utf8Bytes (serializeReport report.toJson)).length + 1
  let errors := addErrors serializedSize [] issues
  { report with errors, issuesTruncated := decide (errors.length < issues.length) }

/-- What `_write_report_atomically` writes. -/
def reportData (report : MigrationReport) : List UInt8 :=
  utf8Bytes (serializeReport report.toJson ++ "\n")

/-- The line `_print_terminal` prints, to stdout for a success and to stderr else. -/
def terminalJson (ok : Bool) (failureCode : String) (issueCount : ℕ) (issuesTruncated : Bool) :
    Json :=
  .object [("event", .string "migration_terminal"),
    ("outcome", .string (if ok then "success" else "failure")),
    ("failure_code", .string failureCode),
    ("issue_count", .int (min issueCount migrationSummaryMaxIssues : ℕ)),
    ("issues_truncated",
      .bool (issuesTruncated || decide (issueCount > migrationSummaryMaxIssues)))]

/-- The report file, the printed line and the exit code after `_finish`. -/
structure Finished where
  file : Option (List UInt8)
  terminal : Json
  exitCode : ℕ

/-- `_finish`; `reportPath` is none without a report path, else the file there, and `writes` says
whether it can be written. -/
def finish (now : Timestamptz) (reportPath : Option (Option (List UInt8))) (writes : Bool)
    (ok : Bool) (issues : List MigrationIssue) (outDir : Option String)
    (failureCode : MigrationFailureCode) (exitCode : ℕ) : Finished :=
  let report := buildReport now ok issues outDir failureCode
  let terminal := terminalJson ok failureCode.value issues.length
    (decide (issues.length > migrationSummaryMaxIssues))
  match reportPath with
  | none => ⟨none, terminal, exitCode⟩
  | some previous =>
    if writes then ⟨some (reportData report), terminal, exitCode⟩
    else ⟨previous, terminalJson false "report_emission" 0 false, 1⟩

end Correlia
