import Correlia.Poisoning

/-!
# WindowArithmetic — where window bounds and expiry times leave their ranges

A window start is a Python datetime, which must not fall before the year 1; `window_seconds` goes
into a `jsonb` number of any size, which the sweep casts to `integer`; a cutoff is a `timestamptz`.
-/

namespace Correlia

open Lib

/-- One more than the largest `timestamptz`: the end of the year 294276, 107482102 days after
0001-01-01. -/
def timestamptzEnd : ℕ := 107482102 * usPerDay

/-- The arithmetic of a problem: neither window start overflows, a sweep over rows with the
problem's window gets past its cast, and their cutoffs are timestamps. -/
structure InRange (i : IncidentUpsertInput) (existing : Incident) : Prop where
  initial : initialWindowState i ≠ .error .overflow
  next : nextWindowState existing i ≠ .error .overflow
  cast : ∀ now locked limit t,
    (∀ r ∈ t, r.status = .«open» → r.windowState.val.windowSeconds = i.windowSeconds) →
      ∃ cs, expirationCandidates now locked limit t = .ok cs
  cutoff : ∀ r : Incident, r.windowState.val.windowSeconds = i.windowSeconds →
    staleExpirationCutoff r < timestamptzEnd

/-- A window below 2³¹ seconds that does not reach back before the year 1, neither from the event
nor from the later of it and the last update; both are taken on the clock they are written in. -/
structure Fitting (windowSeconds : ℕ) (eventTime : Datetime) (existing : Incident) : Prop where
  seconds_lt : windowSeconds < int4End
  event_le : windowSeconds * usPerSecond ≤ eventTime.naive
  later_le : windowSeconds * usPerSecond ≤ (existing.lastUpdateTime.toDatetime.later eventTime).naive

section Window

variable {i : IncidentUpsertInput} {existing : Incident}

/-- A first step that fails with `e`, before steps that do not. -/
theorem orThrow_bind_ne {ε β γ : Type} {e : ε} {o : Option β} {f : β → Except ε γ}
    (hf : ∀ b, Raises (fun e' => e' ≠ e) (f b)) : (orThrow e o >>= f) ≠ .error e ↔ o.isSome := by
  cases o with
  | none => exact ⟨fun h => absurd rfl h, fun h => by cases h⟩
  | some b => exact ⟨fun _ => rfl, fun _ h => hf b e h rfl⟩

theorem initialWindowState_in_range :
    initialWindowState i ≠ .error .overflow ↔
      i.windowSeconds * usPerSecond ≤ i.eventTime.naive := by
  rw [← Datetime.subSeconds_isSome]
  apply orThrow_bind_ne
  intro start
  exact (activeObjectsFromInput_raises (fun _ _ => nofun) i).bind fun objs _ =>
    IncidentWindowState.validate_raises (fun _ _ => nofun) _

theorem nextWindowState_in_range :
    nextWindowState existing i ≠ .error .overflow ↔ i.windowSeconds * usPerSecond ≤
      (existing.lastUpdateTime.toDatetime.later i.eventTime).naive := by
  rw [← Datetime.subSeconds_isSome]
  apply orThrow_bind_ne
  intro start
  refine (activeObjectsFromInput_raises (fun _ _ => nofun) i).bind fun objs _ => ?_
  exact (IncidentWindowState.validate_raises (fun _ _ => nofun) _).bind fun state _ => Raises.ok

/-- An open row with a window of so many seconds. -/
def openRowWith (n : ℕ) (hn : 1 ≤ n) (r : Incident) : Incident :=
  { r with
    status := .«open»
    windowState := ⟨{ r.windowState.val with windowSeconds := n }, by
      have hvalid := r.windowState.valid
      simp only [WindowFields.errors, List.append_eq_nil_iff, check_eq_nil,
        decide_eq_true_eq] at hvalid ⊢
      exact ⟨⟨⟨hn, hvalid.1.1.2⟩, hvalid.1.2⟩, hvalid.2⟩⟩ }

theorem expirationCandidates_ok_iff {now : Timestamptz} {locked : List UUID} {limit : ℕ}
    {t : List Incident} : (∃ cs, expirationCandidates now locked limit t = .ok cs) ↔
      ∀ r ∈ t, r.status = .«open» → r.windowState.val.windowSeconds < int4End :=
  expirationCandidates_eq now locked limit t

/-- A cutoff is at most 68 years and a bit after the year 9999. -/
theorem staleExpirationCutoff_lt {r : Incident}
    (h : r.windowState.val.windowSeconds < int4End) : staleExpirationCutoff r < timestamptzEnd := by
  have hlast : r.lastUpdateTime.val < datetimeEnd := r.lastUpdateTime.property.2
  have hseconds : seconds r.windowState.val.windowSeconds ≤ (int4End * usPerSecond : ℕ) := by
    unfold seconds
    exact_mod_cast Nat.mul_le_mul_right usPerSecond h.le
  have hend : (datetimeEnd : ℤ) + (int4End * usPerSecond : ℕ) ≤ timestamptzEnd := by
    exact_mod_cast (by decide : datetimeEnd + int4End * usPerSecond ≤ timestamptzEnd)
  calc staleExpirationCutoff r
      = r.lastUpdateTime.val + seconds r.windowState.val.windowSeconds := rfl
    _ < datetimeEnd + (int4End * usPerSecond : ℕ) := add_lt_add_of_lt_of_le hlast hseconds
    _ ≤ timestamptzEnd := hend

theorem inRange_iff :
    InRange i existing ↔ Fitting i.windowSeconds i.eventTime existing := by
  constructor
  · intro h
    refine ⟨?_, initialWindowState_in_range.mp h.initial, nextWindowState_in_range.mp h.next⟩
    have hsweep := h.cast existing.lastUpdateTime [] 1
      [openRowWith i.windowSeconds i.windowSeconds_pos existing] (by
        intro r hr _
        rw [List.mem_singleton.mp hr]
        rfl)
    exact expirationCandidates_ok_iff.mp hsweep _ (List.mem_singleton_self _) rfl
  · intro h
    refine ⟨initialWindowState_in_range.mpr h.event_le, nextWindowState_in_range.mpr h.later_le,
      ?_, ?_⟩
    · intro now locked limit t ht
      apply expirationCandidates_ok_iff.mpr
      intro r hr hopen
      rw [ht r hr hopen]
      exact h.seconds_lt
    · intro r hr
      apply staleExpirationCutoff_lt
      rw [hr]
      exact h.seconds_lt

end Window

/-! ### Where the numbers come from -/

section Pipeline

variable {sha256 : String → HexDigest} {configHash : Option HexDigest}
  {config : CompiledRuleConfig} {payload : Icinga2WebhookPayload} {event : NormalizedEvent}
  {decision : EngineDecision} {i : IncidentUpsertInput}

theorem processPayload_timestamp (h : processPayload sha256 payload = .ok (.event event)) :
    event.val.timestamp = payload.val.timestamp := by
  cases hard : payload.val.stateType with
  | hard =>
    obtain ⟨m, -, event', hevent, heq⟩ := (processPayload_hard hard).mp h
    cases heq
    rw [hevent]
    rfl
  | soft =>
    simp only [processPayload, if_pos hard] at h
    obtain ⟨rejection, -, heq⟩ := bind_eq_ok.mp h
    cases heq

/-- A match has the window of one of the rules. -/
theorem evaluate_window {rules : List CompiledRule} {m : RuleMatch}
    (h : evaluate rules event = .ok (.ruleMatch m)) :
    ∃ compiled ∈ rules, m.val.window = compiled.definition.val.window := by
  have hnoOp : ∀ reason, NoOpDecision.ofReason reason ≠ .ok (.ruleMatch m) := by
    intro reason hreason
    obtain ⟨d, -, heq⟩ := bind_eq_ok.mp hreason
    cases heq
  unfold evaluate at h
  split_ifs at h with htype
  · exact absurd h (hnoOp _)
  · cases hmatch : firstMatch rules event.val with
    | none =>
      rw [hmatch] at h
      exact absurd h (hnoOp _)
    | some compiled =>
      rw [hmatch] at h
      dsimp only at h
      refine ⟨compiled, mem_sortBy.mp (List.mem_of_find?_eq_some hmatch), ?_⟩
      by_cases hgrouped : Grouped compiled event.val
      · obtain ⟨m', hm', heq⟩ := (decideRule_grouped hgrouped).mp h
        cases heq
        rw [hm']
        rfl
      · obtain ⟨d, hd⟩ := decideRule_missing hgrouped
        rw [hd] at h
        cases h

/-- The input of a decided payload has the payload's timestamp and a rule's duration. -/
theorem ingest_window
    (h : ingest sha256 configHash config payload = .ok (.decided event decision (some i))) :
    i.eventTime = payload.val.timestamp ∧ ∃ compiled ∈ config.rules,
      (i.windowSeconds : ℤ) = compiled.definition.val.window.val.durationSeconds := by
  obtain ⟨out, hpayload, h₁⟩ := bind_eq_ok.mp h
  cases out with
  | rejection r => cases h₁
  | event event' =>
    obtain ⟨d, hd, h₂⟩ := bind_eq_ok.mp h₁
    obtain ⟨planned, hplanned, h₃⟩ := bind_eq_ok.mp h₂
    cases h₃
    rw [liftError_eq_ok] at hpayload hd
    cases decision with
    | noOp _ => cases hplanned
    | ruleMatch m =>
      obtain ⟨compiled, hmem, hwindow⟩ := evaluate_window hd
      have htype : event.val.eventType = .problem := by
        by_contra hne
        rw [plannedInput, if_neg hne] at hplanned
        cases hplanned
      rw [plannedInput, if_pos htype] at hplanned
      obtain ⟨i', hinput⟩ := map_ok_iff.mp ⟨_, hplanned⟩
      rw [hinput] at hplanned
      cases hplanned
      obtain ⟨context, -, hpost⟩ := bind_eq_ok.mp hinput
      rw [liftError_eq_ok, UpsertArgs.postInit_eq_ok] at hpost
      obtain ⟨hpass, rfl⟩ := hpost
      refine ⟨processPayload_timestamp hpayload, compiled, hmem, ?_⟩
      rw [← hwindow]
      exact Int.toNat_of_nonneg (le_trans (by decide) hpass.windowSeconds)

end Pipeline

/-! ### Runs -/

/-- Every problem a run records has a window below 2³¹ seconds. -/
def WindowsFit (calls : List (Op × Answer)) : Prop :=
  ∀ e ∈ calls, ∀ p, e.1.problem = some p → p.input.windowSeconds < int4End

/-- Only a recorded problem writes `window_seconds`, and it writes its own. -/
theorem RowChange.windowSeconds {op : Op} {r r' : Incident} (h : RowChange op r r') :
    r'.windowState.val.windowSeconds = r.windowState.val.windowSeconds ∨
      ∃ p, op.problem = some p ∧ r'.windowState.val.windowSeconds = p.input.windowSeconds := by
  cases h with
  | merged hop h => exact Or.inr ⟨_, hop, h.underRule.windowSeconds⟩
  | recovered =>
    left
    unfold recoveredIncident
    split_ifs <;> rfl
  | _ => exact Or.inl rfl

theorem windows_fit (ops : List Op) :
    WindowsFit (history ops) → ∀ r ∈ tableAfter ops,
      r.windowState.val.windowSeconds < int4End := by
  refine history_induction (R := fun calls t => WindowsFit calls → ∀ r ∈ t,
    r.windowState.val.windowSeconds < int4End) (by simp) ?_ ops
  intro before op t' o ih h hfit r' hr'
  have hbefore := ih fun e he => hfit e (List.mem_append_left _ he)
  have hop := hfit (op, o) (List.mem_append_right _ (List.mem_singleton_self _))
  rcases step_effect (ids_nodup before) h with hrows | ⟨p, r, hp, hfresh, rfl⟩
  · obtain ⟨r, hr, hchange⟩ := exists_of_forall₂_right hrows hr'
    rcases hchange.windowSeconds with heq | ⟨p, hp, heq⟩
    · rw [heq]
      exact hbefore r hr
    · rw [heq]
      exact hop p hp
  · rcases List.mem_append.mp hr' with hr' | hr'
    · exact hbefore r' hr'
    · rw [List.mem_singleton.mp hr', hfresh.underRule.windowSeconds]
      exact hop p hp

/-- **Window arithmetic.**  The arithmetic of an input stays in range exactly when the window fits;
the input of a payload has its timestamp and a rule's duration; and while the windows of all
recorded problems stay below 2³¹ seconds, no stored row stops a sweep. -/
theorem window_arithmetic (i : IncidentUpsertInput) (existing : Incident) :
    (InRange i existing ↔ Fitting i.windowSeconds i.eventTime existing) ∧
    (∀ sha256 configHash config payload event decision,
      ingest sha256 configHash config payload = .ok (.decided event decision (some i)) →
        i.eventTime = payload.val.timestamp ∧ ∃ compiled ∈ config.rules,
          (i.windowSeconds : ℤ) = compiled.definition.val.window.val.durationSeconds) ∧
    ∀ ops, WindowsFit (history ops) →
      ∀ now locked limit, ∃ cs,
        expirationCandidates now locked limit (tableAfter ops) = .ok cs := by
  refine ⟨inRange_iff, fun _ _ _ _ _ _ h => ingest_window h, ?_⟩
  intro ops hfit now locked limit
  apply expirationCandidates_ok_iff.mpr
  intro r hr _
  exact windows_fit ops hfit r hr

/-- A rules file whose only rule has a window of 2³¹ seconds, which `RuleWindowConfig` admits. -/
def sampleWideRules : List RuleDefinitionConfig :=
  sampleRules.map fun r => { r with window := { r.window with durationSeconds := 2147483648 } }

def sampleWideConfig : CompiledRuleConfig :=
  ⟨[{ sampleCompiledRule with
      definition :=
        ⟨{ sampleCompiledRule.definition.val with
            window := ⟨⟨2147483648, ["host"], 2⟩, by decide⟩ }, by decide⟩ }], sampleConfigHash⟩

/-- The input that an outcome passes on. -/
def IngestOutcome.input : IngestOutcome → Option IncidentUpsertInput
  | .rejected _ => none
  | .decided _ _ input => input

/-- What the stages pass on for the sample payload at a time. -/
def sampleInput (config : CompiledRuleConfig) (timestamp : Datetime) :
    Option IncidentUpsertInput :=
  (ingest sampleSha256 (some sampleConfigHash) config
    ⟨{ sampleFields "timeout" with timestamp },
      (sampleFields_errors (by decide) : (sampleFields "timeout").errors = [])⟩).toOption.bind
    IngestOutcome.input

/-- The table after that problem alone. -/
def sampleTable (config : CompiledRuleConfig) (timestamp : Datetime) : List Incident :=
  tableAfter ((sampleInput config timestamp).toList.map
    fun i => .recordProblem (sampleTime 0) (Fin.ofNat _ 0) i)

/-- The first microsecond of the year 1. -/
def sampleYearOne : Datetime := ⟨0, 0, datetimeEnd_pos, utc_gt, utc_lt⟩

/-- An accepted payload under the wide rule is recorded and stops every sweep; an accepted payload
of the year 1 overflows. -/
theorem wideRule_stops_sweeps :
    (loadRulesConfig sampleCompiler sampleConfigHash ["create_incident"] [] (some sampleWideRules) =
        .ok sampleWideConfig ∧
      ∃ r ∈ sampleTable sampleWideConfig sampleNoon, r.status = .«open» ∧ ∀ now locked limit,
        ¬∃ cs, expirationCandidates now locked limit (sampleTable sampleWideConfig sampleNoon) =
          .ok cs) ∧
    ∃ i ∈ sampleInput sampleConfig sampleYearOne, initialWindowState i = .error .overflow := by
  constructor
  · have hwide : ((sampleTable sampleWideConfig sampleNoon).any fun r =>
        r.isOpen && decide (int4End ≤ r.windowState.val.windowSeconds)) = true := by
      decide +kernel
    obtain ⟨r, hr, htest⟩ := List.any_eq_true.mp hwide
    obtain ⟨hopen, hlarge⟩ := Bool.and_eq_true_iff.mp htest
    rw [Incident.isOpen_iff] at hopen
    refine ⟨rfl, r, hr, hopen, fun now locked limit h => ?_⟩
    have hsmall := expirationCandidates_ok_iff.mp h r hr hopen
    exact absurd hsmall (not_lt.mpr (of_decide_eq_true hlarge))
  · have hcheck : ((sampleInput sampleConfig sampleYearOne).any fun i =>
        decide (i.eventTime.naive < i.windowSeconds * usPerSecond)) = true := by decide +kernel
    obtain ⟨i, hi, hlt⟩ := (Option.any_eq_true ..).mp hcheck
    refine ⟨i, hi, ?_⟩
    by_contra hne
    exact absurd (initialWindowState_in_range.mp hne) (not_le.mpr (of_decide_eq_true hlt))

theorem windowsFit_of_all {calls : List (Op × Answer)}
    (h : (calls.all fun e => e.1.problem.all fun p =>
      decide (p.input.windowSeconds < int4End)) = true) : WindowsFit calls := by
  intro e he p hp
  have htest := List.all_eq_true.mp h e he
  rw [hp] at htest
  exact of_decide_eq_true htest

theorem window_arithmetic_sample :
    ∃ i ∈ sampleInput sampleConfig sampleNoon, ∃ r ∈ sampleTable sampleConfig sampleNoon,
      (InRange i r ↔ Fitting i.windowSeconds i.eventTime r) ∧
        ∃ cs, expirationCandidates (sampleTime 500) [] 10 (tableAfter sampleRun) = .ok cs := by
  have hsome : (sampleInput sampleConfig sampleNoon).isSome = true := by decide +kernel
  have hrow : sampleTable sampleConfig sampleNoon ≠ [] := by
    have hlen : (sampleTable sampleConfig sampleNoon).length = 1 := by decide +kernel
    exact List.ne_nil_of_length_pos (by omega)
  obtain ⟨i, hi⟩ := Option.isSome_iff_exists.mp hsome
  obtain ⟨r, hr⟩ := List.exists_mem_of_ne_nil _ hrow
  obtain ⟨hrange, -, hruns⟩ := window_arithmetic i r
  exact ⟨i, hi, r, hr, hrange, hruns sampleRun (windowsFit_of_all (by decide +kernel)) _ _ _⟩

end Correlia
