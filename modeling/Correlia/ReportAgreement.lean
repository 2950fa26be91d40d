import Correlia.Invariant
import Correlia.Scripts.MigrationReport

/-!
# ReportAgreement — what the migration writes, its reader accepts

The running size in the loop over the issues is the size of the file so far (`addErrors_spec`), so
the file stays within its bound; no file of that size holds more than 1000 errors, so the counts and
the flag always pass the reader's rules.
-/

namespace Correlia

open Lib

/-! ### Sizes -/

section Sizes

/-- The bytes of a value in the report. -/
def jsonSize (j : Json) : ℕ := weigh asciiWeight j.canonicalJson

theorem serializeReport_size (j : Json) : (utf8Bytes (serializeReport j)).length = jsonSize j := by
  rw [serializeReport, length_utf8Bytes, byteLength_asciiJson, jsonSize]

theorem reportData_length (r : MigrationReport) : (reportData r).length = jsonSize r.toJson + 1 := by
  have htext : serializeReport r.toJson ++ "\n" = String.ofList (asciiJson r.toJson ++ ['\n']) := by
    rw [String.ofList_append]
    rfl
  rw [reportData, htext, length_utf8Bytes, byteLength_append, byteLength_asciiJson, jsonSize]
  rfl

theorem jsonSize_array_concat (errors : List Json) (error : Json) :
    jsonSize (.array (errors ++ [error])) =
      jsonSize (.array errors) + ((if errors.isEmpty then 0 else 1) + jsonSize error) := by
  simp only [jsonSize, Json.weigh_array_concat structural_asciiWeight, List.isEmpty_iff]
  omega

/-- Two reports that differ in their errors and in the flag alone. -/
theorem reportSize (r : MigrationReport) (errors errors' : List Json) (b b' : Bool) :
    jsonSize { r with errors := errors, issuesTruncated := b }.toJson +
        (jsonSize (.array errors') + jsonSize (.bool b')) =
      jsonSize { r with errors := errors', issuesTruncated := b' }.toJson +
        (jsonSize (.array errors) + jsonSize (.bool b)) := by
  simp only [jsonSize, MigrationReport.toJson, MigrationReport.summaryJson,
    Json.weigh_object structural_asciiWeight, List.map_cons, List.map_nil, List.sum_cons,
    List.sum_nil, List.length_cons, List.length_nil, Json.entryWeight]
  omega

/-- An error takes 67 bytes when all its texts are empty. -/
theorem issueSize_ge (issue : MigrationIssue) : 67 ≤ jsonSize issue.toJson := by
  have hkeys : weigh asciiWeight (Json.stringText "domain") = 8 ∧
      weigh asciiWeight (Json.stringText "location") = 10 ∧
      weigh asciiWeight (Json.stringText "code") = 6 ∧
      weigh asciiWeight (Json.stringText "message") = 9 ∧
      weigh asciiWeight (Json.stringText "requirement") = 13 := by decide
  obtain ⟨h1, h2, h3, h4, h5⟩ := hkeys
  have hvalue : ∀ s : String, 2 ≤ weigh asciiWeight (Json.string s).canonicalJson :=
    two_le_stringText
  have hd := hvalue issue.domain
  have hl := hvalue issue.location
  have hc := hvalue issue.code
  have hm := hvalue issue.message
  have hr := hvalue issue.requirement
  simp only [jsonSize, MigrationIssue.toJson, Json.weigh_object structural_asciiWeight,
    List.map_cons, List.map_nil, List.sum_cons, List.sum_nil, List.length_cons, List.length_nil,
    Json.entryWeight, h1, h2, h3, h4, h5]
  omega

theorem errorsSize_ge (issues : List MigrationIssue) :
    67 * issues.length ≤ jsonSize (.array (issues.map MigrationIssue.toJson)) := by
  induction issues using List.reverseRecOn with
  | nil => exact Nat.zero_le _
  | append_singleton issues issue ih =>
    rw [List.map_append, List.map_singleton, jsonSize_array_concat, List.length_append,
      List.length_singleton]
    have := issueSize_ge issue
    omega

/-- **The loop** keeps a prefix of the issues, and unless it keeps none its running size, which is
the size of the file so far, stays within the bound. -/
theorem addErrors_spec (issues : List MigrationIssue) (size : ℕ) (errors : List Json) :
    ∃ kept rest, issues = kept ++ rest ∧
      addErrors size errors issues = errors ++ kept.map MigrationIssue.toJson ∧
      (kept = [] ∨ size + jsonSize (.array (errors ++ kept.map MigrationIssue.toJson)) ≤
        migrationReportMaxBytes + jsonSize (.array errors)) := by
  induction issues generalizing size errors with
  | nil => exact ⟨[], [], rfl, (List.append_nil _).symm, Or.inl rfl⟩
  | cons issue issues ih =>
    unfold addErrors
    dsimp only
    rw [serializeReport_size]
    by_cases hfull : migrationReportMaxBytes <
        size + (if errors.isEmpty then 0 else 1) + jsonSize issue.toJson
    · rw [if_pos hfull]
      exact ⟨[], issue :: issues, rfl, (List.append_nil _).symm, Or.inl rfl⟩
    · rw [if_neg hfull]
      have hstep := jsonSize_array_concat errors issue.toJson
      obtain ⟨kept, rest, hsplit, hadded, hsize⟩ :=
        ih (size + ((if errors.isEmpty then 0 else 1) + jsonSize issue.toJson))
          (errors ++ [issue.toJson])
      refine ⟨issue :: kept, rest, by rw [hsplit, List.cons_append], ?_, Or.inr ?_⟩
      · rw [hadded, List.map_cons, List.append_assoc, List.singleton_append]
      · rw [List.map_cons, ← List.singleton_append, ← List.append_assoc]
        rcases hsize with rfl | hsize
        · rw [List.map_nil, List.append_nil]
          omega
        · omega

end Sizes

/-! ### The report that is built -/

section Built

variable {now : Timestamptz} {ok : Bool} {issues : List MigrationIssue} {outDir : Option String}
  {failureCode : MigrationFailureCode}

/-- The combinations `main` passes to `_finish`. -/
def Finishes (ok : Bool) (issues : List MigrationIssue) (outDir : Option String)
    (failureCode : MigrationFailureCode) : Prop :=
  (ok = true ∧ issues = [] ∧ outDir.isSome ∧ failureCode = .none) ∨
    (ok = false ∧ outDir = none ∧ failureCode ≠ .none)

/-- The report without its errors fits. -/
def BareFits (report : MigrationReport) : Prop :=
  (reportData { report with errors := [] }).length ≤ migrationReportMaxBytes

theorem bool_size (b : Bool) : jsonSize (.bool b) = if b then 4 else 5 := by
  cases b <;> decide

/-- What the counts and the flag of a built report are. -/
structure Counted (issues : List MigrationIssue) (report : MigrationReport) : Prop where
  kept : ∃ kept rest, issues = kept ++ rest ∧ report.errors = kept.map MigrationIssue.toJson
  few : report.errors.length ≤ 1000
  size : (reportData report).length ≤ migrationReportMaxBytes
  issueCount : report.issueCount = min issues.length 1000
  truncated : report.issuesTruncated = decide (report.errors.length < issues.length)

theorem size_of_bare {report : MigrationReport} (herrors : report.errors = [])
    (h : BareFits report) : (reportData report).length ≤ migrationReportMaxBytes := by
  cases report
  cases herrors
  exact h

theorem buildReport_counted (hbare : BareFits (buildReport now ok issues outDir failureCode)) :
    Counted issues (buildReport now ok issues outDir failureCode) := by
  set first := preliminaryReport now ok issues outDir failureCode with hfirst
  obtain ⟨kept, rest, hsplit, hadded, hsize⟩ := addErrors_spec issues (jsonSize first.toJson + 1) []
  rw [List.nil_append] at hadded hsize
  have herrors : (buildReport now ok issues outDir failureCode).errors =
      kept.map MigrationIssue.toJson := by
    rw [← hadded, ← serializeReport_size]
    rfl
  have hkept : issues.length = kept.length + rest.length := by rw [hsplit, List.length_append]
  have hnil : jsonSize (.array []) = 2 := by decide
  have hge := errorsSize_ge kept
  have hfew : kept.length ≤ 1000 := by
    rcases hsize with rfl | hsize
    · exact Nat.zero_le _
    · rw [hnil, migrationReportMaxBytes] at hsize
      omega
  refine ⟨⟨kept, rest, hsplit, herrors⟩, ?_, ?_, rfl, rfl⟩
  · rw [herrors, List.length_map]
    exact hfew
  · rcases hsize with rfl | hsize
    · exact size_of_bare herrors hbare
    · have hdiffer := reportSize first [] (kept.map MigrationIssue.toJson) first.issuesTruncated
        (decide (kept.length < issues.length))
      have hbuilt : buildReport now ok issues outDir failureCode =
          { first with
            errors := kept.map MigrationIssue.toJson
            issuesTruncated := decide (kept.length < issues.length) } := by
        have hlength : kept.length = (kept.map MigrationIssue.toJson).length :=
          (List.length_map _).symm
        rw [hlength, ← herrors]
        rfl
      -- the flag is set in the loop only, where its text gets shorter
      have hflag : jsonSize (.bool (decide (kept.length < issues.length))) ≤
          jsonSize (.bool first.issuesTruncated) := by
        have hbefore : first.issuesTruncated =
            decide (issues.length > min issues.length migrationSummaryMaxIssues) := rfl
        rw [bool_size, bool_size, hbefore, migrationSummaryMaxIssues]
        simp only [decide_eq_true_eq]
        split_ifs <;> omega
      rw [hnil] at hdiffer hsize
      rw [hbuilt, reportData_length]
      change jsonSize first.toJson + _ = _ at hdiffer
      omega

end Built

/-! ### What the reader makes of it -/

section Reader

variable {fromisoformat : String → Option ParsedDatetime} {later : Instant}

theorem memberOf_name {names : List String} {s : String} (h : s ∈ names) :
    ∃ u, memberOf (names.map fun n => (n, ())) (.string s) = .ok (some u) := by
  cases hget : getItem s (names.map fun n => (n, ())) with
  | some u => exact ⟨u, congrArg Except.ok hget⟩
  | none =>
    rw [getItem_eq_none, List.map_map] at hget
    exact absurd (List.mem_map.mpr ⟨s, h, rfl⟩) hget

theorem memberOf_outcome (outcome : MigrationOutcome) :
    memberOf migrationOutcomes (.string outcome.value) = .ok (some outcome) := by
  cases outcome <;> rfl

theorem memberOf_failureCode (failureCode : MigrationFailureCode) :
    memberOf migrationFailureCodes (.string failureCode.value) = .ok (some failureCode) := by
  cases failureCode <;> rfl

theorem issueOk_toJson {issue : MigrationIssue} (hdomain : issue.domain ∈ migrationReportDomains)
    (hcode : issue.code ∈ migrationReportIssueCodes) : issueOk issue.toJson = .ok true := by
  obtain ⟨_, hd⟩ := memberOf_name hdomain
  obtain ⟨_, hc⟩ := memberOf_name hcode
  have hkeys : keysAre issueKeys [("domain", .string issue.domain),
      ("location", .string issue.location), ("code", .string issue.code),
      ("message", .string issue.message), ("requirement", .string issue.requirement)] = true := rfl
  rw [MigrationIssue.toJson, issueOk, hkeys]
  change (memberOf _ (.string issue.domain) >>= _) = _
  rw [hd, ok_bind, if_neg (by simp)]
  change (memberOf _ (.string issue.code) >>= _) = _
  rw [hc]
  rfl

theorem issuesOk_toJson {issues : List MigrationIssue} (h : ∀ issue ∈ issues,
    issue.domain ∈ migrationReportDomains ∧ issue.code ∈ migrationReportIssueCodes) :
    issuesOk (issues.map MigrationIssue.toJson) = .ok true := by
  induction issues with
  | nil => rfl
  | cons issue issues ih =>
    obtain ⟨hissue, hissues⟩ := List.forall_mem_cons.mp h
    rw [List.map_cons, issuesOk, issueOk_toJson hissue.1 hissue.2]
    exact ih hissues

/-- No `Z`, nothing to replace. -/
theorem replaceText_absent {c : Char} {new text : String} (h : c ∉ text.toList) :
    replaceText (String.ofList [c]) new text = text := by
  have key : ∀ cs : List Char, c ∉ cs → replaceFrom [c] new.toList 0 cs = cs := by
    intro cs
    induction cs with
    | nil => exact fun _ => rfl
    | cons d cs ih =>
      intro hcs
      rw [List.mem_cons, not_or] at hcs
      obtain ⟨hne, hcs⟩ := hcs
      have hstart : ¬[c] <+: d :: cs := by
        rw [List.cons_prefix_cons]
        exact fun hp => hne hp.1
      rw [replaceFrom, if_neg hstart, ih hcs]
  rw [replaceText, String.toList_ofList, key _ h, String.ofList_toList]

theorem wholeSeconds_instant (now : Timestamptz) :
    (wholeSeconds now.toDatetime).instant = now.val - now.val % usPerSecond := by
  have hnaive : ((now.toDatetime.naive : ℕ) : ℤ) = now.val := by
    show ((now.val.toNat : ℕ) : ℤ) = now.val
    exact Int.toNat_of_nonneg now.property.1
  show ((now.toDatetime.naive - now.toDatetime.naive % usPerSecond : ℕ) : ℤ) - 0 = _
  rw [Int.sub_zero, Nat.cast_sub (Nat.mod_le _ _), Int.natCast_mod, hnaive]

/-- The completion time is past 2020 and not in the future. -/
theorem validateCompletedAt_valid {now : Timestamptz} (outcome : MigrationOutcome)
    (failureCode : MigrationFailureCode)
    (hread : fromisoformat (wholeSeconds now.toDatetime).isoformat =
      some (.aware (wholeSeconds now.toDatetime)))
    (hnow : migrationReportMinCompletedAt ≤ now.val) (hlater : now.val ≤ later) :
    validateCompletedAt fromisoformat later outcome failureCode
        (wholeSeconds now.toDatetime).isoformat =
      (.valid, some (outcome, failureCode, (wholeSeconds now.toDatetime).instant)) := by
  have hz : 'Z' ∉ (wholeSeconds now.toDatetime).isoformat.toList := fun hin =>
    absurd (Datetime.isoformat_chars _ 'Z' hin) (by decide)
  have hreplace : replaceText "Z" "+00:00" (wholeSeconds now.toDatetime).isoformat =
      (wholeSeconds now.toDatetime).isoformat := replaceText_absent hz
  have hinstant := wholeSeconds_instant now
  have hrange : ¬((wholeSeconds now.toDatetime).instant < migrationReportMinCompletedAt ∨
      later < (wholeSeconds now.toDatetime).instant) := by
    have hmin : migrationReportMinCompletedAt = 63713433600000000 := rfl
    have hus : (usPerSecond : ℤ) = 1000000 := rfl
    have hround : ∀ n l : ℤ, 63713433600000000 ≤ n → n ≤ l →
        ¬(n - n % 1000000 < 63713433600000000 ∨ l < n - n % 1000000) := by
      intro n l hn hl
      omega
    rw [hinstant, hmin, hus]
    exact hround now.val later (hmin ▸ hnow) hlater
  rw [validateCompletedAt, hreplace, hread]
  exact if_neg hrange

/-- The consistency rules hold of the counts and the flag of a built report. -/
theorem Counted.consistent {report : MigrationReport} {issues : List MigrationIssue} {ok : Bool}
    {outDir : Option String} {failureCode : MigrationFailureCode} (h : Counted issues report)
    (hmain : Finishes ok issues outDir failureCode) :
    summaryConsistent ok report.errors.length (if ok then .success else .failure) failureCode
      report.issueCount report.issuesTruncated = true := by
  obtain ⟨kept, rest, hsplit, herrors⟩ := h.kept
  have hfew := h.few
  have hlength : report.errors.length ≤ issues.length := by
    rw [herrors, List.length_map, hsplit, List.length_append]
    omega
  have hcode : decide (decide ((if ok then MigrationOutcome.success else .failure) = .success) = ok) =
      true ∧ decide ((if ok then MigrationOutcome.success else .failure) = .success ∧
        failureCode ≠ .none) = false ∧
      decide ((if ok then MigrationOutcome.success else .failure) = .failure ∧
        failureCode = .none) = false := by
    rcases hmain with ⟨rfl, -, -, rfl⟩ | ⟨rfl, -, hne⟩
    · decide
    · simp [hne]
  obtain ⟨hoks, hsuccess, hfailure⟩ := hcode
  rw [summaryConsistent, hoks, hsuccess, hfailure, h.issueCount, h.truncated,
    migrationReportMaxIssueCount]
  have hmore : ¬((report.errors.length : ℤ) > (min issues.length 1000 : ℕ)) := by omega
  by_cases hall : report.errors.length < issues.length
  · -- some issue is left out: below 1000 issues the count says so, from 1000 on anything goes
    have hcut : (decide (((min issues.length 1000 : ℕ) : ℤ) < 1000) &&
        decide ((report.errors.length : ℤ) = (min issues.length 1000 : ℕ))) = false := by
      rw [Bool.and_eq_false_iff, decide_eq_false_iff_not, decide_eq_false_iff_not]
      omega
    rw [decide_eq_false hmore, decide_eq_true hall]
    simp only [Bool.true_and, hcut]
    rfl
  · have hsame : ¬((min issues.length 1000 : ℕ) : ℤ) ≠ report.errors.length := by omega
    rw [decide_eq_false hmore, decide_eq_false hall, decide_eq_false hsame]
    rfl

/-- The checks of the report's own fields, passed. -/
theorem validateMigrationReport_fields {report : List (String × Json)} {ok : Bool}
    {errors : List Json} (hkeys : keysAre reportKeys report = true)
    (hok : item "ok" report = .bool ok) (herrors : item "errors" report = .array errors)
    (hissues : issuesOk errors = .ok true)
    (hgenerated : (ok = true ∧ errors = [] ∧ ∃ fields, item "generated" report = .object fields ∧
      generatedOk (.object fields) = true) ∨ (ok = false ∧ item "generated" report = .null)) :
    validateMigrationReport fromisoformat later (.object report) =
      validateSummary fromisoformat later ok errors.length (item "metrics_summary" report) := by
  rcases hgenerated with ⟨rfl, rfl, fields, hgen, hpaths⟩ | ⟨rfl, hgen⟩
  · simp [validateMigrationReport, hkeys, hok, herrors, hissues, hgen, hpaths, ok_bind]
  · simp [validateMigrationReport, hkeys, hok, herrors, hissues, hgen, generatedOk, ok_bind]

/-- The checks of the summary's fields, passed. -/
theorem validateSummary_fields {summary : List (String × Json)} {ok truncated : Bool}
    {emitted issueCount : ℤ} {outcome : MigrationOutcome} {failureCode : MigrationFailureCode}
    {completedAt : String} (hkeys : keysAre metricsSummaryKeys summary = true)
    (hversion : equalsOne (item "version" summary) = true)
    (houtcome : item "outcome" summary = .string outcome.value)
    (hcode : item "failure_code" summary = .string failureCode.value)
    (hcount : item "issue_count" summary = .int issueCount)
    (htruncated : item "issues_truncated" summary = .bool truncated)
    (hcompleted : item "completed_at" summary = .string completedAt)
    (hrange : 0 ≤ issueCount ∧ issueCount ≤ migrationReportMaxIssueCount)
    (hconsistent : summaryConsistent ok emitted outcome failureCode issueCount truncated = true) :
    validateSummary fromisoformat later ok emitted (.object summary) =
      .ok (validateCompletedAt fromisoformat later outcome failureCode completedAt) := by
  simp [validateSummary, hkeys, hversion, houtcome, hcode, hcount, htruncated, hcompleted, hrange,
    hconsistent, memberOf_outcome, memberOf_failureCode, ok_bind]
  rfl

/-- A built report of issues the reader knows is valid. -/
theorem validateMigrationReport_valid {now : Timestamptz} {ok : Bool}
    {issues : List MigrationIssue} {outDir : Option String} {failureCode : MigrationFailureCode}
    (hmain : Finishes ok issues outDir failureCode)
    (hissues : ∀ issue ∈ issues,
      issue.domain ∈ migrationReportDomains ∧ issue.code ∈ migrationReportIssueCodes)
    (hread : fromisoformat (wholeSeconds now.toDatetime).isoformat =
      some (.aware (wholeSeconds now.toDatetime)))
    (hnow : migrationReportMinCompletedAt ≤ now.val) (hlater : now.val ≤ later)
    (h : Counted issues (buildReport now ok issues outDir failureCode)) :
    validateMigrationReport fromisoformat later (buildReport now ok issues outDir failureCode).toJson =
      .ok (.valid, some (if ok then .success else .failure, failureCode,
        (wholeSeconds now.toDatetime).instant)) := by
  have hconsistent := h.consistent hmain
  rw [← validateCompletedAt_valid _ failureCode hread hnow hlater]
  obtain ⟨kept, rest, hsplit, herrors⟩ := h.kept
  have hkept : issuesOk (buildReport now ok issues outDir failureCode).errors = .ok true := by
    rw [herrors]
    apply issuesOk_toJson
    intro issue hissue
    apply hissues
    rw [hsplit]
    exact List.mem_append_left _ hissue
  have hcount : (0 : ℤ) ≤ (buildReport now ok issues outDir failureCode).issueCount ∧
      ((buildReport now ok issues outDir failureCode).issueCount : ℤ) ≤
        migrationReportMaxIssueCount := by
    rw [h.issueCount, migrationReportMaxIssueCount]
    omega
  have hgenerated : (ok = true ∧ (buildReport now ok issues outDir failureCode).errors = [] ∧
      ∃ fields, generatedJson ok outDir = .object fields ∧
        generatedOk (.object fields) = true) ∨ (ok = false ∧ generatedJson ok outDir = .null) := by
    rcases hmain with ⟨rfl, rfl, hdir, -⟩ | ⟨rfl, rfl, -⟩
    · obtain ⟨dir, rfl⟩ := Option.isSome_iff_exists.mp hdir
      exact Or.inl ⟨rfl, rfl, _, rfl, rfl⟩
    · exact Or.inr ⟨rfl, rfl⟩
  rw [MigrationReport.toJson, validateMigrationReport_fields rfl rfl rfl hkept hgenerated]
  exact validateSummary_fields rfl rfl rfl rfl rfl rfl rfl hcount hconsistent

end Reader

/-- The readers give back what was written: `json.loads` inverts `json.dumps`, and
`fromisoformat` inverts `isoformat`. -/
structure ReportReaders.ReadsBack (readers : ReportReaders) (report : MigrationReport)
    (completedAt : Datetime) : Prop where
  json : readers.jsonLoads (serializeReport report.toJson ++ "\n") = some report.toJson
  timestamp : readers.fromisoformat completedAt.isoformat = some (.aware completedAt)

/-- **Writer and reader agree** on every report that fits without its errors: the file is within
its bound, its errors are a prefix of the issues, the flag says whether it is proper, and the
reader finds the report valid with the outcome and the failure code of the run. -/
theorem migration_report_agrees (readers : ReportReaders) (now later : Timestamptz) (ok : Bool)
    (issues : List MigrationIssue) (outDir : Option String) (failureCode : MigrationFailureCode)
    (exitCode : ℕ) (previous : Option (List UInt8)) (hmain : Finishes ok issues outDir failureCode)
    (hissues : ∀ issue ∈ issues,
      issue.domain ∈ migrationReportDomains ∧ issue.code ∈ migrationReportIssueCodes)
    (hnow : migrationReportMinCompletedAt ≤ now.val) (hlater : now ≤ later)
    (hread : readers.ReadsBack (buildReport now ok issues outDir failureCode)
      (wholeSeconds now.toDatetime))
    (hbare : BareFits (buildReport now ok issues outDir failureCode)) :
    let report := buildReport now ok issues outDir failureCode
    (finish now (some previous) true ok issues outDir failureCode exitCode).file =
        some (reportData report) ∧
      (reportData report).length ≤ migrationReportMaxBytes ∧
      report.errors <+: issues.map MigrationIssue.toJson ∧
      (report.issuesTruncated = true ↔ report.errors ≠ issues.map MigrationIssue.toJson) ∧
      readMigrationReportSnapshot readers later.val (.regular (reportData report)) =
        .ok (.valid, some (if ok then .success else .failure, failureCode,
          (wholeSeconds now.toDatetime).instant)) := by
  intro report
  have h : Counted issues report := buildReport_counted hbare
  obtain ⟨kept, rest, hsplit, herrors⟩ := h.kept
  have hall : issues.map MigrationIssue.toJson =
      report.errors ++ rest.map MigrationIssue.toJson := by
    rw [herrors, hsplit, List.map_append]
  refine ⟨rfl, h.size, ⟨_, hall.symm⟩, ?_, ?_⟩
  · rw [h.truncated, decide_eq_true_eq]
    constructor
    · intro hlt heq
      have hlength := congrArg List.length heq
      rw [List.length_map] at hlength
      omega
    · intro hne
      by_contra hge
      have hlength := congrArg List.length hall
      rw [List.length_map, List.length_append, List.length_map] at hlength
      have hnil : rest = [] := List.eq_nil_of_length_eq_zero (by omega)
      apply hne
      rw [hall, hnil, List.map_nil, List.append_nil]
  · rw [readMigrationReportSnapshot, if_neg (not_lt.mpr h.size), reportData, utf8Text_utf8Bytes,
      Option.bind_some, hread.json]
    exact validateMigrationReport_valid hmain hissues hread.timestamp hnow hlater h

/-! ### A failed run -/

def sampleIssues : List MigrationIssue :=
  [⟨"rules", "rules[0].window", "unsupported_group_by", "unsupported group_by", "CFG-04"⟩,
   ⟨"plugins", "outputs.mail", "plaintext_smtp_credentials", "use password_env", "CFG-05"⟩]

def sampleReport : MigrationReport :=
  buildReport (sampleTime 0) false sampleIssues none .catalogedIncompatibility

/-- Readers that know the texts of the sample report. -/
def sampleReportReaders : ReportReaders where
  jsonLoads text :=
    if text = serializeReport sampleReport.toJson ++ "\n" then some sampleReport.toJson else none
  fromisoformat text :=
    if text = (wholeSeconds (sampleTime 0).toDatetime).isoformat then
      some (.aware (wholeSeconds (sampleTime 0).toDatetime))
    else none

theorem sampleReport_readsBack :
    sampleReportReaders.ReadsBack sampleReport (wholeSeconds (sampleTime 0).toDatetime) := by
  unfold sampleReportReaders
  constructor
  · dsimp only
    rw [if_pos rfl]
  · dsimp only
    rw [if_pos rfl]

theorem migration_report_agrees_sample :
    (reportData sampleReport).length ≤ migrationReportMaxBytes ∧
      readMigrationReportSnapshot sampleReportReaders (sampleTime 1).val
          (.regular (reportData sampleReport)) =
        .ok (.valid, some (.failure, .catalogedIncompatibility,
          (wholeSeconds (sampleTime 0).toDatetime).instant)) := by
  obtain ⟨-, hsize, -, -, hvalid⟩ := migration_report_agrees sampleReportReaders (sampleTime 0)
    (sampleTime 1) false sampleIssues none .catalogedIncompatibility 1 none
    (Or.inr ⟨rfl, rfl, by decide⟩) (by decide) (by decide +kernel) (by decide +kernel)
    sampleReport_readsBack (by unfold BareFits; decide +kernel)
  exact ⟨hsize, hvalid⟩

end Correlia
