import Correlia.ReportAgreement

/-!
# ReportFailures — when reading a migration report raises

Of what reads a report two steps raise what nothing catches: `json.loads` on an integer of more
than 4300 digits, and the membership tests on a list or a dict.  Every other file content gives a
status (`report_snapshot_iff`).
-/

namespace Correlia

open Lib

/-! ### Documents that raise -/

/-- A list or a dict, which cannot be hashed. -/
def isContainer : Json → Bool
  | .array _ => true
  | .object _ => true
  | _ => false

/-- The value is one of the names. -/
def isAmong (names : List String) : Json → Bool
  | .string s => decide (s ∈ names)
  | _ => false

/-- An entry of `errors` that is in order. -/
structure ProperIssue (fields : List (String × Json)) : Prop where
  keys : keysAre issueKeys fields = true
  domain : isAmong migrationReportDomains (item "domain" fields) = true
  code : isAmong migrationReportIssueCodes (item "code" fields) = true
  texts : fields.all (fun e => isString e.2) = true

/-- An entry of `errors` whose domain, or whose code after a known domain, is a list or a dict. -/
structure UnhashableIssue (fields : List (String × Json)) : Prop where
  keys : keysAre issueKeys fields = true
  member : isContainer (item "domain" fields) = true ∨
    isAmong migrationReportDomains (item "domain" fields) = true ∧
      isContainer (item "code" fields) = true

/-- All entries are in order. -/
def ProperErrors (errors : List Json) : Prop :=
  ∀ issue ∈ errors, ∃ fields, issue = .object fields ∧ ProperIssue fields

/-- Proper entries, and then one that raises. -/
def UnhashableErrors (errors : List Json) : Prop :=
  ∃ before fields after, errors = before ++ .object fields :: after ∧ UnhashableIssue fields ∧
    ProperErrors before

/-- A summary of version one whose outcome, or whose failure code after a known outcome, is a list
or a dict. -/
structure UnhashableSummary (summary : List (String × Json)) : Prop where
  keys : keysAre metricsSummaryKeys summary = true
  version : equalsOne (item "version" summary) = true
  member : isContainer (item "outcome" summary) = true ∨
    isAmong (migrationOutcomes.map Prod.fst) (item "outcome" summary) = true ∧
      isContainer (item "failure_code" summary) = true

/-- The report's own fields are in order. -/
structure ProperReport (report : List (String × Json)) (ok : Bool) (errors : List Json) : Prop where
  keys : keysAre reportKeys report = true
  ok : item "ok" report = .bool ok
  errors : item "errors" report = .array errors
  generated : generatedOk (item "generated" report) = true

/-- A success names the files and has no errors; a failure names none. -/
def ConsistentReport (ok : Bool) (generated : Json) (errors : List Json) : Prop :=
  if ok then generated ≠ .null ∧ errors = [] else generated = .null

/-- A report that raises: at an entry of `errors`, or in the summary of a consistent report. -/
inductive UnhashableReport (report : List (String × Json)) : Prop
  | errors {ok : Bool} {errors : List Json} (proper : ProperReport report ok errors)
      (raises : UnhashableErrors errors)
  | summary {ok : Bool} {errors : List Json} {summary : List (String × Json)}
      (proper : ProperReport report ok errors)
      (issues : ProperErrors errors)
      (consistent : ConsistentReport ok (item "generated" report) errors)
      (object : item "metrics_summary" report = .object summary)
      (raises : UnhashableSummary summary)

section

variable {fields : List (String × Json)}

theorem memberOf_eq_error {α : Type} {names : List (String × α)} {v : Json} {e : ReportError} :
    memberOf names v = .error e ↔ isContainer v = true := by
  cases e
  cases v <;> simp [memberOf, isContainer]

theorem memberOf_eq_some {α : Type} {names : List (String × α)} {v : Json} :
    (∃ a, memberOf names v = .ok (some a)) ↔ isAmong (names.map Prod.fst) v = true := by
  cases v with
  | string s =>
    have hmem : (∃ a, getItem s names = some a) ↔ s ∈ names.map Prod.fst := by
      rw [← Option.isSome_iff_exists, ← Option.ne_none_iff_isSome, ne_eq, getItem_eq_none, not_not]
    simp only [memberOf, isAmong, Except.ok.injEq, decide_eq_true_eq, hmem]
  | _ => simp [memberOf, isAmong]

/-- A value is a list or a dict, one of the names, or none of them. -/
theorem memberOf_cases {α : Type} (names : List (String × α)) (v : Json) :
    (memberOf names v = .error .unhashable ∧ isContainer v = true) ∨
      (memberOf names v = .ok none ∧ isContainer v = false ∧
        isAmong (names.map Prod.fst) v = false) ∨
      ∃ a, memberOf names v = .ok (some a) ∧ isContainer v = false ∧
        isAmong (names.map Prod.fst) v = true := by
  have hcontainer : ∀ o, memberOf names v = .ok o → isContainer v = false := fun o ho => by
    refine Bool.eq_false_iff.mpr fun hc => ?_
    have hunhashable : memberOf names v = .error .unhashable := memberOf_eq_error.mpr hc
    cases ho.symm.trans hunhashable
  cases h : memberOf names v with
  | error e => exact Or.inl ⟨by cases e; rfl, memberOf_eq_error.mp h⟩
  | ok o =>
    cases o with
    | none =>
      refine Or.inr (Or.inl ⟨rfl, hcontainer _ h, ?_⟩)
      rw [← Bool.not_eq_true, ← memberOf_eq_some, h]
      rintro ⟨a, ha⟩
      cases ha
    | some a => exact Or.inr (Or.inr ⟨a, rfl, hcontainer _ h, memberOf_eq_some.mp ⟨a, h⟩⟩)

theorem domains_eq : (migrationReportDomains.map fun d => (d, ())).map Prod.fst =
    migrationReportDomains := by
  rw [List.map_map]
  exact List.map_id _

theorem codes_eq : (migrationReportIssueCodes.map fun c => (c, ())).map Prod.fst =
    migrationReportIssueCodes := by
  rw [List.map_map]
  exact List.map_id _

/-- The test of an entry raises, or says whether the entry is in order. -/
theorem issueOk_object (fields : List (String × Json)) :
    (issueOk (.object fields) = .error .unhashable ∧ UnhashableIssue fields) ∨
      ∃ b, issueOk (.object fields) = .ok b ∧ ¬ UnhashableIssue fields ∧
        (b = true ↔ ProperIssue fields) := by
  by_cases hkeys : keysAre issueKeys fields = true
  · rcases memberOf_cases (migrationReportDomains.map fun d => (d, ())) (item "domain" fields) with
      ⟨hd, hdomain⟩ | ⟨hd, hnot, hdomain⟩ | ⟨_, hd, hnot, hdomain⟩
    · exact Or.inl ⟨by simp [issueOk, hkeys, hd, bind, Except.bind], hkeys, Or.inl hdomain⟩
    · rw [domains_eq] at hdomain
      refine Or.inr ⟨false, by simp [issueOk, hkeys, hd, ok_bind, pure, Except.pure], ?_, ?_⟩
      · rintro ⟨-, h | ⟨h, -⟩⟩
        · rw [hnot] at h
          cases h
        · rw [hdomain] at h
          cases h
      · refine iff_of_false (by decide) fun h => ?_
        rw [h.domain] at hdomain
        cases hdomain
    · rw [domains_eq] at hdomain
      rcases memberOf_cases (migrationReportIssueCodes.map fun c => (c, ())) (item "code" fields) with
        ⟨hc, hcode⟩ | ⟨hc, hnot', hcode⟩ | ⟨_, hc, hnot', hcode⟩
      · exact Or.inl ⟨by simp [issueOk, hkeys, hd, hc, bind, Except.bind], hkeys, Or.inr ⟨hdomain, hcode⟩⟩
      · rw [codes_eq] at hcode
        refine Or.inr ⟨false, by simp [issueOk, hkeys, hd, hc, ok_bind, pure, Except.pure], ?_, ?_⟩
        · rintro ⟨-, h | ⟨-, h⟩⟩
          · rw [hnot] at h
            cases h
          · rw [hnot'] at h
            cases h
        · refine iff_of_false (by decide) fun h => ?_
          rw [h.code] at hcode
          cases hcode
      · rw [codes_eq] at hcode
        refine Or.inr ⟨fields.all fun e => isString e.2, by simp [issueOk, hkeys, hd, hc, ok_bind, pure, Except.pure], ?_, ?_⟩
        · rintro ⟨-, h | ⟨-, h⟩⟩
          · rw [hnot] at h
            cases h
          · rw [hnot'] at h
            cases h
        · exact ⟨fun h => ⟨hkeys, hdomain, hcode, h⟩, fun h => h.texts⟩
  · refine Or.inr ⟨false, by simp [issueOk, hkeys, pure, Except.pure], fun h => hkeys h.keys, ?_⟩
    exact iff_of_false (by decide) fun h => hkeys h.keys

theorem unhashableErrors_cons {issue : Json} {rest : List Json} :
    UnhashableErrors (issue :: rest) ↔ ∃ fields, issue = .object fields ∧
      (UnhashableIssue fields ∨ ProperIssue fields ∧ UnhashableErrors rest) := by
  constructor
  · rintro ⟨before, fields, after, heq, hraises, hbefore⟩
    cases before with
    | nil =>
      rw [List.nil_append, List.cons.injEq] at heq
      exact ⟨fields, heq.1, Or.inl hraises⟩
    | cons first before =>
      rw [List.cons_append, List.cons.injEq] at heq
      obtain ⟨fields', hfirst, hproper⟩ := hbefore first List.mem_cons_self
      exact ⟨fields', heq.1.trans hfirst, Or.inr ⟨hproper, before, fields, after, heq.2, hraises,
        fun issue h => hbefore issue (List.mem_cons_of_mem _ h)⟩⟩
  · rintro ⟨fields, rfl, hraises | ⟨hproper, before, fields', after, rfl, hraises, hbefore⟩⟩
    · exact ⟨[], fields, rest, rfl, hraises, nofun⟩
    · refine ⟨.object fields :: before, fields', after, rfl, hraises, fun issue h => ?_⟩
      rcases List.mem_cons.mp h with rfl | h
      · exact ⟨fields, rfl, hproper⟩
      · exact hbefore issue h

/-- The loop raises, or says whether all entries are in order. -/
theorem issuesOk_cases (errors : List Json) :
    (issuesOk errors = .error .unhashable ∧ UnhashableErrors errors) ∨
      ∃ b, issuesOk errors = .ok b ∧ ¬ UnhashableErrors errors ∧
        (b = true ↔ ProperErrors errors) := by
  induction errors with
  | nil =>
    refine Or.inr ⟨true, rfl, ?_, iff_of_true rfl nofun⟩
    rintro ⟨before, fields, after, heq, -⟩
    simp at heq
  | cons issue rest ih =>
    -- what is no object is not in order
    have hother : (∀ fields, issue ≠ .object fields) →
        issueOk issue = .ok false := by
      intro h
      cases issue with
      | object fields => exact absurd rfl (h fields)
      | _ => rfl
    by_cases hobject : ∃ fields, issue = .object fields
    · obtain ⟨fields, rfl⟩ := hobject
      rcases issueOk_object fields with ⟨hraises, hmember⟩ | ⟨b, hok, hnot, hb⟩
      · refine Or.inl ⟨by simp [issuesOk, hraises, bind, Except.bind], ?_⟩
        exact unhashableErrors_cons.mpr ⟨fields, rfl, Or.inl hmember⟩
      · cases b with
        | false =>
          have himproper : ¬ ProperIssue fields := fun h => by
            cases hb.mpr h
          refine Or.inr ⟨false, by simp [issuesOk, hok, bind, Except.bind, pure, Except.pure],
            fun h => ?_, iff_of_false (by decide) fun h => ?_⟩
          · obtain ⟨fields', heq, hfields⟩ := unhashableErrors_cons.mp h
            cases heq
            exact hfields.elim hnot fun h => himproper h.1
          · obtain ⟨fields', heq, hproper⟩ := h _ List.mem_cons_self
            cases heq
            exact himproper hproper
        | true =>
          have hproper := hb.mp rfl
          have hrest : issuesOk (.object fields :: rest) = issuesOk rest := by
            simp [issuesOk, hok, bind, Except.bind]
          have hunhashable : UnhashableErrors (.object fields :: rest) ↔ UnhashableErrors rest := by
            rw [unhashableErrors_cons]
            constructor
            · rintro ⟨fields', heq, h⟩
              cases heq
              exact h.elim (fun h => absurd h hnot) And.right
            · exact fun h => ⟨fields, rfl, Or.inr ⟨hproper, h⟩⟩
          have hall : ProperErrors (.object fields :: rest) ↔ ProperErrors rest := by
            unfold ProperErrors
            rw [List.forall_mem_cons]
            exact and_iff_right ⟨fields, rfl, hproper⟩
          rw [hrest, hunhashable, hall]
          exact ih
    · have hnone : ∀ fields, issue ≠ .object fields := fun fields h => hobject ⟨fields, h⟩
      refine Or.inr ⟨false, by simp [issuesOk, hother hnone, bind, Except.bind, pure, Except.pure],
        fun h => ?_, iff_of_false (by decide) fun h => ?_⟩
      · obtain ⟨fields, heq, -⟩ := unhashableErrors_cons.mp h
        exact hnone fields heq
      · obtain ⟨fields, heq, -⟩ := h _ List.mem_cons_self
        exact hnone fields heq

/-- The summary's checks raise at a membership test only. -/
theorem validateSummary_object (fromisoformat : String → Option ParsedDatetime) (now : Instant)
    (ok : Bool) (emitted : ℤ) (summary : List (String × Json)) :
    (validateSummary fromisoformat now ok emitted (.object summary) = .error .unhashable ∧
        UnhashableSummary summary) ∨
      ∃ v, validateSummary fromisoformat now ok emitted (.object summary) = .ok v ∧
        ¬ UnhashableSummary summary := by
  by_cases hkeys : keysAre metricsSummaryKeys summary = true
  · by_cases hversion : equalsOne (item "version" summary) = true
    · rcases memberOf_cases migrationOutcomes (item "outcome" summary) with
        ⟨ho, houtcome⟩ | ⟨ho, hnot, houtcome⟩ | ⟨outcome, ho, hnot, houtcome⟩
      · refine Or.inl ⟨?_, hkeys, hversion, Or.inl houtcome⟩
        simp [validateSummary, hkeys, hversion, ho, bind, Except.bind]
      · refine Or.inr ⟨(.invalidSummary, none), ?_, ?_⟩
        · simp [validateSummary, hkeys, hversion, ho, bind, Except.bind, pure, Except.pure]
        · rintro ⟨-, -, h | ⟨h, -⟩⟩
          · rw [hnot] at h
            cases h
          · rw [houtcome] at h
            cases h
      · rcases memberOf_cases migrationFailureCodes (item "failure_code" summary) with
          ⟨hc, hcode⟩ | ⟨hc, hnot', hcode⟩ | ⟨failureCode, hc, hnot', hcode⟩
        · refine Or.inl ⟨?_, hkeys, hversion, Or.inr ⟨houtcome, hcode⟩⟩
          simp [validateSummary, hkeys, hversion, ho, hc, bind, Except.bind]
        all_goals
          have hfine : ¬ UnhashableSummary summary := by
            rintro ⟨-, -, h | ⟨-, h⟩⟩
            · rw [hnot] at h
              cases h
            · rw [hnot'] at h
              cases h
        · refine Or.inr ⟨(.invalidSummary, none), ?_, hfine⟩
          simp [validateSummary, hkeys, hversion, ho, hc, bind, Except.bind, pure, Except.pure]
        · -- the tests that are left cannot raise
          simp only [validateSummary, hkeys, hversion, ho, hc, bind, Except.bind, pure, Except.pure,
            Bool.not_true, Bool.false_eq_true, if_false]
          split
          · split_ifs
            · exact Or.inr ⟨_, rfl, hfine⟩
            · exact Or.inr ⟨_, rfl, hfine⟩
          · exact Or.inr ⟨_, rfl, hfine⟩
    · refine Or.inr ⟨(.unsupportedVersion, none), ?_, fun h => hversion h.version⟩
      simp [validateSummary, hkeys, hversion, pure, Except.pure]
  · refine Or.inr ⟨(.invalidSummary, none), ?_, fun h => hkeys h.keys⟩
    simp [validateSummary, hkeys, pure, Except.pure]

/-- The verdict of a report whose own fields are in order, once its entries are. -/
theorem validateMigrationReport_proper {fromisoformat : String → Option ParsedDatetime}
    {now : Instant} {report : List (String × Json)} {ok : Bool} {errors : List Json}
    (h : ProperReport report ok errors) (hissues : issuesOk errors = .ok true) :
    (ConsistentReport ok (item "generated" report) errors →
      validateMigrationReport fromisoformat now (.object report) =
        validateSummary fromisoformat now ok errors.length (item "metrics_summary" report)) ∧
      (¬ ConsistentReport ok (item "generated" report) errors →
        validateMigrationReport fromisoformat now (.object report) = .ok (.malformed, none)) := by
  obtain ⟨hkeys, hok, herrors, hgenerated⟩ := h
  unfold ConsistentReport
  cases hgen : item "generated" report <;> cases ok <;> cases errors <;>
    simp [validateMigrationReport, hkeys, hok, herrors, hgen ▸ hgenerated, hissues, hgen, bind,
      Except.bind, pure, Except.pure]

/-- A report whose own fields are not in order. -/
theorem validateMigrationReport_improper (fromisoformat : String → Option ParsedDatetime)
    (now : Instant) {report : List (String × Json)}
    (h : ¬ ∃ ok errors, ProperReport report ok errors) :
    validateMigrationReport fromisoformat now (.object report) = .ok (.malformed, none) := by
  by_cases hkeys : keysAre reportKeys report = true
  · cases hok : item "ok" report with
    | bool ok =>
      cases herrors : item "errors" report with
      | array errors =>
        by_cases hgenerated : generatedOk (item "generated" report) = true
        · exact absurd ⟨ok, errors, hkeys, hok, herrors, hgenerated⟩ h
        · simp [validateMigrationReport, hkeys, hok, herrors, hgenerated, pure, Except.pure]
      | _ => simp [validateMigrationReport, hkeys, hok, herrors, pure, Except.pure]
    | _ => simp [validateMigrationReport, hkeys, hok, pure, Except.pure]
  · simp [validateMigrationReport, hkeys, pure, Except.pure]

theorem validateMigrationReport_cases (fromisoformat : String → Option ParsedDatetime)
    (now : Instant) (report : List (String × Json)) :
    (validateMigrationReport fromisoformat now (.object report) = .error .unhashable ∧
        UnhashableReport report) ∨
      ∃ v, validateMigrationReport fromisoformat now (.object report) = .ok v ∧
        ¬ UnhashableReport report := by
  by_cases hproper : ∃ ok errors, ProperReport report ok errors
  · obtain ⟨ok, errors, hproper⟩ := hproper
    -- the fields say which flag and which entries
    have hsame : ∀ {ok' errors'}, ProperReport report ok' errors' → ok' = ok ∧ errors' = errors :=
      fun h => ⟨Json.bool.inj (h.ok.symm.trans hproper.ok),
        Json.array.inj (h.errors.symm.trans hproper.errors)⟩
    rcases issuesOk_cases errors with ⟨hraises, hmember⟩ | ⟨b, hissues, hnot, hb⟩
    · obtain ⟨hkeys, hok, herrors, hgenerated⟩ := id hproper
      refine Or.inl ⟨?_, .errors hproper hmember⟩
      simp [validateMigrationReport, hkeys, hok, herrors, hgenerated, hraises, bind, Except.bind]
    · cases b with
      | false =>
        obtain ⟨hkeys, hok, herrors, hgenerated⟩ := id hproper
        refine Or.inr ⟨(.invalidSummary, none), ?_, ?_⟩
        · simp [validateMigrationReport, hkeys, hok, herrors, hgenerated, hissues, bind, Except.bind,
            pure, Except.pure]
        · rintro (⟨hproper', hraises⟩ | ⟨hproper', hall, -, -, -⟩)
          · obtain ⟨rfl, rfl⟩ := hsame hproper'
            exact hnot hraises
          · obtain ⟨rfl, rfl⟩ := hsame hproper'
            cases hb.mpr hall
      | true =>
        obtain ⟨hconsistent, hinconsistent⟩ :=
          @validateMigrationReport_proper fromisoformat now _ _ _ hproper hissues
        by_cases hcons : ConsistentReport ok (item "generated" report) errors
        · rw [hconsistent hcons]
          cases hsummary : item "metrics_summary" report with
          | object summary =>
            rcases validateSummary_object fromisoformat now ok errors.length summary with
              ⟨hraises, hmember⟩ | ⟨v, hv, hfine⟩
            · exact Or.inl ⟨hraises, .summary hproper (hb.mp rfl) hcons hsummary hmember⟩
            · refine Or.inr ⟨v, hv, ?_⟩
              rintro (⟨hproper', hraises⟩ | ⟨-, -, -, hsummary', hraises⟩)
              · obtain ⟨rfl, rfl⟩ := hsame hproper'
                exact hnot hraises
              · rw [hsummary] at hsummary'
                cases hsummary'
                exact hfine hraises
          | _ =>
            refine Or.inr ⟨_, rfl, ?_⟩
            rintro (⟨hproper', hraises⟩ | ⟨-, -, -, hsummary', -⟩)
            · obtain ⟨rfl, rfl⟩ := hsame hproper'
              exact hnot hraises
            · rw [hsummary] at hsummary'
              cases hsummary'
        · refine Or.inr ⟨_, hinconsistent hcons, ?_⟩
          rintro (⟨hproper', hraises⟩ | ⟨hproper', -, hcons', -, -⟩)
          · obtain ⟨rfl, rfl⟩ := hsame hproper'
            exact hnot hraises
          · obtain ⟨rfl, rfl⟩ := hsame hproper'
            exact hcons hcons'
  · refine Or.inr ⟨_, validateMigrationReport_improper fromisoformat now hproper, ?_⟩
    rintro (⟨hproper', -⟩ | ⟨hproper', -, -, -, -⟩)
    · exact hproper ⟨_, _, hproper'⟩
    · exact hproper ⟨_, _, hproper'⟩

end

/-! ### What a verdict says -/

/-- A summary comes with status valid, and was completed between 2020 and now. -/
def SoundVerdict (now : Instant) (v : Verdict) : Prop :=
  ∀ s, v.2 = some s → v.1 = .valid ∧ migrationReportMinCompletedAt ≤ s.2.2 ∧ s.2.2 ≤ now

theorem soundVerdict_none (now : Instant) (status : MigrationReportStatus) :
    SoundVerdict now (status, none) := nofun

section

variable {fromisoformat : String → Option ParsedDatetime} {now : Instant}

theorem validateCompletedAt_sound (outcome : MigrationOutcome) (failureCode : MigrationFailureCode)
    (text : String) :
    SoundVerdict now (validateCompletedAt fromisoformat now outcome failureCode text) := by
  unfold validateCompletedAt
  split
  · exact soundVerdict_none now _
  · exact soundVerdict_none now _
  · split_ifs with hrange
    · exact soundVerdict_none now _
    · rintro s ⟨⟩
      obtain ⟨hmin, hnow⟩ := not_or.mp hrange
      exact ⟨rfl, not_lt.mp hmin, not_lt.mp hnow⟩

theorem validateSummary_sound {ok : Bool} {emitted : ℤ} {summary : Json} {v : Verdict}
    (h : validateSummary fromisoformat now ok emitted summary = .ok v) : SoundVerdict now v := by
  unfold validateSummary at h
  simp only [bind, Except.bind, pure, Except.pure] at h
  repeat' split at h
  all_goals first
    | (cases h; exact soundVerdict_none now _)
    | (cases h; exact validateCompletedAt_sound _ _ _)
    | cases h

theorem validateMigrationReport_sound {report : Json} {v : Verdict}
    (h : validateMigrationReport fromisoformat now report = .ok v) : SoundVerdict now v := by
  unfold validateMigrationReport at h
  simp only [bind, Except.bind, pure, Except.pure] at h
  repeat' split at h
  all_goals first
    | exact validateSummary_sound h
    | (cases h; exact soundVerdict_none now _)
    | cases h

end

/-! ### The snapshot -/

/-- The content of the file makes `json.loads` refuse an integer, or a membership test a value. -/
inductive ReportRaises (loads : String → Loads) : ReportFile → Prop
  | digits {data : List UInt8} {text : String} (fits : data.length ≤ migrationReportMaxBytes)
      (decodes : utf8Text data = some text) (raises : loads text = .valueError) :
      ReportRaises loads (.regular data)
  | member {data : List UInt8} {text : String} {report : List (String × Json)}
      (fits : data.length ≤ migrationReportMaxBytes) (decodes : utf8Text data = some text)
      (parses : loads text = .value (.object report)) (raises : UnhashableReport report) :
      ReportRaises loads (.regular data)

section

variable {loads : String → Loads} {fromisoformat : String → Option ParsedDatetime} {now : Instant}

/-- The snapshot of a file that is not too long and decodes. -/
theorem readSnapshot_text {data : List UInt8} {text : String}
    (hfits : data.length ≤ migrationReportMaxBytes) (hdecodes : utf8Text data = some text) :
    readSnapshot loads fromisoformat now (.regular data) =
      match loads text with
      | .jsonDecodeError => .ok (.malformed, none)
      | .recursionError => .ok (.malformed, none)
      | .valueError => .error .valueError
      | .value report =>
        liftError ReportError.toSnapshotError (validateMigrationReport fromisoformat now report) := by
  cases hloads : loads text <;>
    (unfold readSnapshot
     dsimp only
     rw [if_neg (by omega), hdecodes]
     dsimp only
     rw [hloads])

theorem readSnapshot_cases (loads : String → Loads)
    (fromisoformat : String → Option ParsedDatetime) (now : Instant) (file : ReportFile) :
    ((∃ e, readSnapshot loads fromisoformat now file = .error e) ∧ ReportRaises loads file) ∨
      ∃ v, readSnapshot loads fromisoformat now file = .ok v ∧ SoundVerdict now v ∧
        ¬ ReportRaises loads file := by
  cases file with
  | regular data =>
    by_cases hfits : data.length ≤ migrationReportMaxBytes
    · cases hdecodes : utf8Text data with
      | none =>
        refine Or.inr ⟨(.malformed, none), ?_, soundVerdict_none now _, ?_⟩
        · unfold readSnapshot
          dsimp only
          rw [if_neg (by omega), hdecodes]
        · rintro (⟨-, h, -⟩ | ⟨-, h, -, -⟩) <;> rw [hdecodes] at h <;> cases h
      | some text =>
        rw [readSnapshot_text hfits hdecodes]
        have htext : ∀ {text'}, utf8Text data = some text' → text' = text := fun h =>
          Option.some.inj (h.symm.trans hdecodes)
        cases hloads : loads text with
        | valueError => exact Or.inl ⟨⟨_, rfl⟩, .digits hfits hdecodes hloads⟩
        | value report =>
          have hfine : (∀ fields, report = .object fields → ¬ UnhashableReport fields) →
              ¬ ReportRaises loads (.regular data) := by
            rintro h (⟨-, hd, hraises⟩ | ⟨-, hd, hparses, hraises⟩)
            · rw [htext hd, hloads] at hraises
              cases hraises
            · rw [htext hd, hloads] at hparses
              exact h _ (Loads.value.inj hparses) hraises
          cases report with
          | object fields =>
            rcases validateMigrationReport_cases fromisoformat now fields with
              ⟨hraises, hmember⟩ | ⟨v, hv, hnot⟩
            · exact Or.inl ⟨⟨.typeError, by dsimp only; rw [hraises]; rfl⟩,
                .member hfits hdecodes hloads hmember⟩
            · refine Or.inr ⟨v, by dsimp only; rw [hv]; rfl, validateMigrationReport_sound hv, hfine ?_⟩
              rintro fields' ⟨⟩
              exact hnot
          | _ => exact Or.inr ⟨_, rfl, soundVerdict_none now _, hfine nofun⟩
        | _ =>
          refine Or.inr ⟨_, rfl, soundVerdict_none now _, ?_⟩
          rintro (⟨-, hd, hraises⟩ | ⟨-, hd, hparses, -⟩)
          · rw [htext hd, hloads] at hraises
            cases hraises
          · rw [htext hd, hloads] at hparses
            cases hparses
    · refine Or.inr ⟨(.oversized, none), ?_, soundVerdict_none now _, ?_⟩
      · unfold readSnapshot
        exact if_pos (by omega)
      · rintro (⟨h, -, -⟩ | ⟨h, -, -, -⟩) <;> exact hfits h
  | _ => exact Or.inr ⟨_, rfl, soundVerdict_none now _, nofun⟩

/-- Where no integer is refused, this is the reader of the metrics module. -/
theorem readSnapshot_eq (readers : ReportReaders) (file : ReportFile) :
    readSnapshot (fun text => ((readers.jsonLoads text).map Loads.value).getD .jsonDecodeError)
        readers.fromisoformat now file =
      liftError ReportError.toSnapshotError (readMigrationReportSnapshot readers now file) := by
  cases file with
  | regular data =>
    unfold readSnapshot readMigrationReportSnapshot
    dsimp only
    split_ifs
    · rfl
    · cases utf8Text data with
      | none => rfl
      | some text =>
        dsimp only [Option.bind_some]
        cases readers.jsonLoads text <;> rfl
  | _ => rfl

end

/-- **A bad report.**  Reading a report gives a status and raises nothing, and metrics can be
rendered, if and only if the file holds no integer `json.loads` refuses and no membership test
meets a list or a dict; a summary comes with status valid only, and is within its range. -/
theorem report_snapshot_iff (loads : String → Loads)
    (fromisoformat : String → Option ParsedDatetime) (now : Instant) (file : ReportFile) :
    ((∃ v, readSnapshot loads fromisoformat now file = .ok v) ↔ ¬ ReportRaises loads file) ∧
      (∀ p, (∃ p', refreshProjection loads fromisoformat now (some file) p = .ok p') ↔
        ¬ ReportRaises loads file) ∧
      ∀ v, readSnapshot loads fromisoformat now file = .ok v → SoundVerdict now v := by
  rcases readSnapshot_cases loads fromisoformat now file with
    ⟨⟨e, hread⟩, hraises⟩ | ⟨v, hread, hsound, hnot⟩
  · refine ⟨iff_of_false ?_ (not_not.mpr hraises), fun p => iff_of_false ?_ (not_not.mpr hraises),
      ?_⟩
    · rintro ⟨v, hv⟩
      rw [hread] at hv
      cases hv
    · rintro ⟨p', hp⟩
      unfold refreshProjection at hp
      dsimp only at hp
      rw [hread] at hp
      cases hp
    · intro v hv
      rw [hread] at hv
      cases hv
  · refine ⟨iff_of_true ⟨v, hread⟩ hnot, fun p => iff_of_true ?_ hnot, fun v' hv => ?_⟩
    · unfold refreshProjection
      dsimp only
      rw [hread]
      exact ⟨_, rfl⟩
    · rw [hread] at hv
      cases hv
      exact hsound

/-! ### Two files that raise -/

/-- A failure with one entry, whose domain is a list. -/
def listedDomainReport : Json :=
  .object [("errors", .array [.object [("code", .string "invalid_yaml"), ("domain", .array []),
      ("location", .string "rules"), ("message", .string "bad"), ("requirement", .string "CFG-06")]]),
    ("generated", .null), ("metrics_summary", .object []), ("ok", .bool false)]

/-- An integer of `n` digits. -/
def ones (n : ℕ) : String := String.ofList (List.replicate n '1')

theorem ones_length (n : ℕ) : (ones n).length = n ∧ (utf8Bytes (ones n)).length = n := by
  unfold ones
  constructor
  · rw [String.length_ofList, List.length_replicate]
  · rw [length_utf8Bytes, byteLength, List.map_replicate, List.sum_replicate]
    exact Nat.mul_one n

/-- `json.loads` on these texts. -/
def twoLoads (text : String) : Loads :=
  if text = serializeReport listedDomainReport then .value listedDomainReport
  else if text = ones 4301 then .valueError
  else .jsonDecodeError

theorem ones_ne : ones 4301 ≠ serializeReport listedDomainReport := by
  have hshort : (serializeReport listedDomainReport).length < 4301 := by decide +kernel
  intro h
  rw [← h, (ones_length 4301).1] at hshort
  omega

theorem report_raises :
    readSnapshot twoLoads (fun _ => none) (sampleTime 0).val
        (.regular (utf8Bytes (serializeReport listedDomainReport))) = .error .typeError ∧
      readSnapshot twoLoads (fun _ => none) (sampleTime 0).val
        (.regular (utf8Bytes (ones 4301))) = .error .valueError := by
  constructor
  · have hfits : (utf8Bytes (serializeReport listedDomainReport)).length ≤
        migrationReportMaxBytes := by decide +kernel
    rw [readSnapshot_text hfits (utf8Text_utf8Bytes _), twoLoads, if_pos rfl]
    rfl
  · have hfits : (utf8Bytes (ones 4301)).length ≤ migrationReportMaxBytes := by
      rw [(ones_length 4301).2, migrationReportMaxBytes]
      omega
    rw [readSnapshot_text hfits (utf8Text_utf8Bytes _), twoLoads, if_neg ones_ne, if_pos rfl]

end Correlia
