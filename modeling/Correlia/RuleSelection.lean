import Correlia.Ingestion

/-!
# RuleSelection — the rule that decides an event

`load_rules_config` accepts no priority twice, so the rules of an accepted file stand in one order
only, whatever order the file gives them: the first that matches is the one of least priority.
-/

namespace Correlia

open Lib

/-! ### Accepted files -/

section Load

variable {compile : RegexCompiler} {configHash : HexDigest} {knownActions knownPlugins : List String}
  {config : CompiledRuleConfig} {rules : List RuleDefinitionConfig}

/-- What the loop asks of a rule by itself. -/
def RulePasses (knownActions knownPlugins : List String) (r : RuleDefinitionConfig) : Prop :=
  r.actions.forM (checkAction knownActions knownPlugins r.name) = .ok () ∧
    validateSummaryVariables r.outputSummary = .ok ()

/-- **Loop**: the priorities and the names are new, and every rule passes. -/
theorem checkRules_eq_ok {priorities : List ℤ} {names : List String} :
    checkRules knownActions knownPlugins priorities names rules = .ok () ↔
      ((rules.map fun r => r.priority).Nodup ∧ ∀ r ∈ rules, r.priority ∉ priorities) ∧
      ((rules.map fun r => r.name).Nodup ∧ ∀ r ∈ rules, r.name ∉ names) ∧
      ∀ r ∈ rules, RulePasses knownActions knownPlugins r := by
  induction rules generalizing priorities names with
  | nil => simp [checkRules]
  | cons r rules ih =>
    have hstep : checkRules knownActions knownPlugins priorities names (r :: rules) = .ok () ↔
        r.priority ∉ priorities ∧ r.name ∉ names ∧ RulePasses knownActions knownPlugins r ∧
          checkRules knownActions knownPlugins (r.priority :: priorities) (r.name :: names) rules =
            .ok () := by
      unfold RulePasses
      conv_lhs => unfold checkRules
      by_cases hp : r.priority ∈ priorities
      · rw [if_pos hp]
        exact ⟨nofun, fun h => absurd hp h.1⟩
      · rw [if_neg hp]
        by_cases hn : r.name ∈ names
        · rw [if_pos hn]
          exact ⟨nofun, fun h => absurd hn h.2.1⟩
        · rw [if_neg hn]
          show (_ >>= _) = _ ↔ _
          simp only [bind_eq_ok]
          constructor
          · rintro ⟨⟨⟩, hactions, ⟨⟩, hsummary, hrest⟩
            exact ⟨hp, hn, ⟨hactions, hsummary⟩, hrest⟩
          · rintro ⟨-, -, ⟨hactions, hsummary⟩, hrest⟩
            exact ⟨(), hactions, (), hsummary, hrest⟩
    rw [hstep, ih]
    have hnot {β : Type} (f : RuleDefinitionConfig → β) : f r ∉ rules.map f ↔
        ∀ s ∈ rules, f s ≠ f r := by simp
    have hcons {β : Type} (f : RuleDefinitionConfig → β) (l : List β) :
        (∀ s ∈ rules, f s ∉ f r :: l) ↔ ∀ s ∈ rules, f s ≠ f r ∧ f s ∉ l := by simp
    rw [List.map_cons, List.map_cons, List.nodup_cons, List.nodup_cons,
      hnot fun r => r.priority, hnot fun r => r.name, hcons fun r => r.priority,
      hcons fun r => r.name, List.forall_mem_cons, List.forall_mem_cons, List.forall_mem_cons]
    constructor
    · rintro ⟨hp, hn, hr, ⟨hpn, hps⟩, ⟨hnn, hns⟩, hrs⟩
      exact ⟨⟨⟨fun s hs => (hps s hs).1, hpn⟩, hp, fun s hs => (hps s hs).2⟩,
        ⟨⟨fun s hs => (hns s hs).1, hnn⟩, hn, fun s hs => (hns s hs).2⟩, hr, hrs⟩
    · rintro ⟨⟨⟨hp', hpn⟩, hp, hps⟩, ⟨⟨hn', hnn⟩, hn, hns⟩, hr, hrs⟩
      exact ⟨hp, hn, hr, ⟨hpn, fun s hs => ⟨hp' s hs, hps s hs⟩⟩,
        ⟨hnn, fun s hs => ⟨hn' s hs, hns s hs⟩⟩, hrs⟩

/-- What an accepted file is, and what it loads to. -/
theorem loadRulesConfig_eq_ok {data : Option (List RuleDefinitionConfig)} :
    loadRulesConfig compile configHash knownActions knownPlugins data = .ok config ↔
      (itemErrors RuleDefinitionConfig.errors (data.getD []) = [] ∧
        checkRules knownActions knownPlugins [] [] (data.getD []) = .ok ()) ∧
      (data.getD []).mapM (compileRuleConfig compile) = .ok config.rules ∧
        config.configHash = configHash := by
  unfold loadRulesConfig
  simp only [bind_eq_ok, liftError_eq_ok, modelValidate_eq_ok]
  constructor
  · rintro ⟨c, hc, ⟨⟩, hcheck, compiled, hcompiled, heq⟩
    cases heq
    rw [hc] at hcheck hcompiled
    exact ⟨⟨hc ▸ c.valid, hcheck⟩, hcompiled, rfl⟩
  · rintro ⟨⟨hvalid, hcheck⟩, hcompiled, rfl⟩
    exact ⟨⟨_, hvalid⟩, rfl, (), hcheck, config.rules, hcompiled, rfl⟩

/-- A compiled rule has the fields of its definition. -/
theorem compileRuleConfig_fields {r : RuleDefinitionConfig} {c : CompiledRule}
    (h : compileRuleConfig compile r = .ok c) :
    c.definition.val.priority = r.priority ∧ c.definition.val.name = r.name ∧
      c.definition.val.match.val.tags = r.match.tags ∧
      c.definition.val.window.val = r.window ∧
      c.definition.val.outputSummary = r.outputSummary := by
  unfold compileRuleConfig at h
  obtain ⟨_, -, h⟩ := bind_eq_ok.mp h
  cases hservice : r.match.servicePattern <;>
    simp only [hservice, bind_eq_ok, liftError_eq_ok, modelValidate_eq_ok] at h <;>
    obtain ⟨_, -, _, -, criteria, hcriteria, window, hwindow, _, -, definition, hdefinition,
      heq⟩ := h <;>
    cases heq <;>
    rw [hdefinition] <;>
    exact ⟨rfl, rfl, by rw [hcriteria], hwindow, rfl⟩

theorem compiled_priorities {compiled : List CompiledRule}
    (h : rules.mapM (compileRuleConfig compile) = .ok compiled) :
    (compiled.map fun c => c.definition.val.priority) = rules.map fun r => r.priority := by
  rw [mapM_eq_ok] at h
  induction h with
  | nil => rfl
  | cons hc _ ih => rw [List.map_cons, List.map_cons, ih, (compileRuleConfig_fields hc).1]

/-- The rules of an accepted file have distinct priorities. -/
theorem priorities_nodup {data : Option (List RuleDefinitionConfig)}
    (h : loadRulesConfig compile configHash knownActions knownPlugins data = .ok config) :
    (config.rules.map fun c => c.definition.val.priority).Nodup := by
  obtain ⟨⟨-, hcheck⟩, hcompiled, -⟩ := loadRulesConfig_eq_ok.mp h
  rw [compiled_priorities hcompiled]
  exact (checkRules_eq_ok.mp hcheck).1.1

/-- A rearranged file is accepted too, with its rules rearranged. -/
theorem load_perm {data : Option (List RuleDefinitionConfig)} (configHash' : HexDigest)
    (h : loadRulesConfig compile configHash knownActions knownPlugins data = .ok config)
    (hperm : rules.Perm (data.getD [])) :
    ∃ config', loadRulesConfig compile configHash' knownActions knownPlugins (some rules) =
      .ok config' ∧ config'.rules.Perm config.rules := by
  obtain ⟨⟨hvalid, hcheck⟩, hcompiled, -⟩ := loadRulesConfig_eq_ok.mp h
  obtain ⟨compiled, hrules, hcperm⟩ := mapM_perm hperm hcompiled
  obtain ⟨⟨hpn, hps⟩, ⟨hnn, hns⟩, hpass⟩ := checkRules_eq_ok.mp hcheck
  refine ⟨⟨compiled, configHash'⟩, loadRulesConfig_eq_ok.mpr ⟨⟨?_, ?_⟩, hrules, rfl⟩, hcperm⟩
  · rw [itemErrors_eq_nil] at hvalid ⊢
    exact fun r hr => hvalid r (hperm.mem_iff.mp hr)
  · exact checkRules_eq_ok.mpr
      ⟨⟨(hperm.map _).nodup_iff.mpr hpn, fun r hr => hps r (hperm.mem_iff.mp hr)⟩,
        ⟨(hperm.map _).nodup_iff.mpr hnn, fun r hr => hns r (hperm.mem_iff.mp hr)⟩,
        fun r hr => hpass r (hperm.mem_iff.mp hr)⟩

end Load

/-! ### Selection -/

section Select

variable {compiled : CompiledRule} {rules rules' : List CompiledRule} {event : EventData}

/-- A rule and an event fit: severity, host, service and every tag. -/
structure Applies (compiled : CompiledRule) (event : EventData) : Prop where
  severity : event.severity ∈ compiled.definition.val.match.val.severities
  host : compiled.hostPattern event.host = true
  service : ∀ pattern, compiled.servicePattern = some pattern →
    ∃ service, event.service = some service ∧ pattern service = true
  tags : ∀ e ∈ compiled.definition.val.match.val.tags.entries,
    getItem e.1 event.tags.entries = some e.2

theorem matchesRule_iff : matchesRule compiled event = true ↔ Applies compiled event := by
  unfold matchesRule
  simp only [Bool.and_eq_true, decide_eq_true_eq, List.all_eq_true]
  constructor
  · rintro ⟨⟨⟨hseverity, hhost⟩, hfits⟩, htags⟩
    refine ⟨hseverity, hhost, fun pattern hpattern => ?_, htags⟩
    rw [hpattern] at hfits
    exact (Option.any_eq_true _ _).mp hfits
  · rintro ⟨hseverity, hhost, hfits, htags⟩
    refine ⟨⟨⟨hseverity, hhost⟩, ?_⟩, htags⟩
    cases hservice : compiled.servicePattern with
    | none => rfl
    | some pattern => exact (Option.any_eq_true _ _).mpr (hfits pattern hservice)

variable (hp : (rules.map fun c => c.definition.val.priority).Nodup)

include hp

theorem sortedRules_perm (hperm : rules'.Perm rules) : sortedRules rules' = sortedRules rules := by
  have hp' := (hperm.map fun c => c.definition.val.priority).nodup_iff.mpr hp
  refine eq_of_strict (sortBy_strict hp') (sortBy_strict hp) fun c => ?_
  unfold sortedRules
  rw [mem_sortBy, mem_sortBy, hperm.mem_iff]

/-- The rule `evaluate` stops at: the one of least priority among those that apply. -/
theorem firstMatch_eq_some : firstMatch rules event = some compiled ↔
    compiled ∈ rules ∧ Applies compiled event ∧ ∀ c ∈ rules, Applies c event → c ≠ compiled →
      compiled.definition.val.priority < c.definition.val.priority := by
  have hstrict : Strict (fun c => c.definition.val.priority) (sortedRules rules) :=
    sortBy_strict hp
  have hfound : ∀ {c}, firstMatch rules event = some c →
      c ∈ rules ∧ Applies c event ∧ ∀ d ∈ rules, Applies d event → d ≠ c →
        c.definition.val.priority < d.definition.val.priority := fun h =>
    ⟨mem_sortBy.mp (List.mem_of_find?_eq_some h), 
      matchesRule_iff.mp (List.find?_some (p := fun r => matchesRule r event) h),
      fun d hd happlies hne =>
        hstrict.find?_lt h (mem_sortBy.mpr hd) (matchesRule_iff.mpr happlies) hne⟩
  constructor
  · exact hfound
  · rintro ⟨hmem, happlies, hleast⟩
    cases hfirst : firstMatch rules event with
    | none =>
      have := List.find?_eq_none.mp hfirst compiled (mem_sortBy.mpr hmem)
      exact absurd (matchesRule_iff.mpr happlies) this
    | some c =>
      obtain ⟨hc, hcapplies, hcleast⟩ := hfound hfirst
      by_contra hne
      have hne : c ≠ compiled := fun heq => hne (congrArg some heq)
      exact lt_asymm (hleast c hc hcapplies hne) (hcleast compiled hmem happlies hne.symm)

omit hp in
theorem firstMatch_eq_none :
    firstMatch rules event = none ↔ ∀ c ∈ rules, ¬ Applies c event := by
  unfold firstMatch
  rw [List.find?_eq_none]
  constructor
  · intro h c hc happlies
    exact h c (mem_sortBy.mpr hc) (matchesRule_iff.mpr happlies)
  · intro h c hc hmatches
    exact h c (mem_sortBy.mp hc) (matchesRule_iff.mp hmatches)

end Select

/-! ### Decisions -/

theorem ofReason_val {reason : String} (h : 1 ≤ reason.length) :
    ∃ decision : NoOpDecision, decision.val = { reason } ∧
      NoOpDecision.ofReason reason = .ok (.noOp decision) := by
  have hvalid : ({ reason } : NoOpFields).errors = [] := by
    simp only [NoOpFields.errors, itemErrors, List.flatMap_nil, List.nil_append, check_eq_nil,
      decide_eq_true_eq]
    exact h
  refine ⟨⟨_, hvalid⟩, rfl, ?_⟩
  rw [NoOpDecision.ofReason, modelValidate_of_valid hvalid]
  rfl

/-- The missing field named is the first one. -/
theorem findMissingGroupField_eq {compiled : CompiledRule} {event : EventData}
    {before after : List String} {field : String}
    (hfields : compiled.definition.val.window.val.groupBy = before ++ field :: after)
    (hbefore : ∀ f ∈ before, (resolveField f event).isSome = true)
    (hfield : resolveField field event = none) :
    findMissingGroupField compiled event = field := by
  have hfind : (compiled.definition.val.window.val.groupBy.find? fun f =>
      (resolveField f event).isNone) = some field := by
    rw [List.find?_eq_some_iff_append]
    refine ⟨by rw [hfield]; rfl, before, after, hfields, fun f hf => ?_⟩
    have := hbefore f hf
    rw [Bool.not_eq_true', Option.isNone_eq_false_iff]
    exact this
  rw [findMissingGroupField, hfind]
  rfl

/-- **Rule selection.**  A file that is accepted is accepted in every order of its rules, and every
order decides a problem alike: by the rule of least priority among those that apply.  That rule
makes the match, or a decision that names its first missing field. -/
theorem rule_selection {compile : RegexCompiler} {configHash : HexDigest}
    {knownActions knownPlugins : List String} {data : Option (List RuleDefinitionConfig)}
    {config : CompiledRuleConfig}
    (hload : loadRulesConfig compile configHash knownActions knownPlugins data = .ok config)
    (event : NormalizedEvent) (hproblem : event.val.eventType = .problem) :
    (∀ rules : List RuleDefinitionConfig, rules.Perm (data.getD []) → ∀ configHash',
      ∃ config', loadRulesConfig compile configHash' knownActions knownPlugins (some rules) =
        .ok config' ∧ evaluate config'.rules event = evaluate config.rules event) ∧
    (∀ compiled ∈ config.rules, Applies compiled event.val →
      (∀ c ∈ config.rules, Applies c event.val → c ≠ compiled →
        compiled.definition.val.priority < c.definition.val.priority) →
      (Grouped compiled event.val → evaluate config.rules event =
        (liftError (.validation "RuleMatch") (modelValidate MatchDecision.errors
          (matchDecision compiled.definition.val event.val ("|".intercalate
            (segmentTexts compiled.definition.val.window.val.groupBy event.val))))).map
          .ruleMatch) ∧
      ∀ before field after,
        compiled.definition.val.window.val.groupBy = before ++ field :: after →
        (∀ f ∈ before, (resolveField f event.val).isSome = true) →
        resolveField field event.val = none →
        ∃ decision : NoOpDecision,
          decision.val = { reason := "missing required group-by field: " ++ field } ∧
          evaluate config.rules event = .ok (.noOp decision)) ∧
    ((∃ compiled ∈ config.rules, Applies compiled event.val ∧
      ∀ c ∈ config.rules, Applies c event.val → c ≠ compiled →
        compiled.definition.val.priority < c.definition.val.priority) ∨
      (∀ compiled ∈ config.rules, ¬ Applies compiled event.val) ∧
        ∃ decision : NoOpDecision, decision.val = { reason := "no matching rule" } ∧
          evaluate config.rules event = .ok (.noOp decision)) := by
  have hpriorities := priorities_nodup hload
  have hne : event.val.eventType ≠ .recovery := by rw [hproblem]; decide
  refine ⟨fun rules hperm configHash' => ?_, fun compiled hmem happlies hleast => ?_, ?_⟩
  · obtain ⟨config', hload', hrules⟩ := load_perm configHash' hload hperm
    refine ⟨config', hload', ?_⟩
    unfold evaluate firstMatch
    rw [sortedRules_perm hpriorities hrules]
  · have hfirst := (firstMatch_eq_some hpriorities).mpr ⟨hmem, happlies, hleast⟩
    have hdecide : evaluate config.rules event = decideRule compiled event.val := by
      rw [evaluate, if_neg hne, hfirst]
    rw [hdecide]
    refine ⟨fun hgrouped => ?_, fun before field after hfields hbefore hfield => ?_⟩
    · rw [decideRule, buildGroupKey_eq_some hgrouped]
      rfl
    · have hmissing : ¬ Grouped compiled event.val := fun h => by
        have := h field (hfields ▸ List.mem_append_right _ List.mem_cons_self)
        rw [hfield] at this
        cases this
      rw [decideRule, buildGroupKey_eq_none hmissing, findMissingGroupField_eq hfields hbefore hfield]
      apply ofReason_val
      rw [String.length_append]
      have : 1 ≤ "missing required group-by field: ".length := by decide
      omega
  · cases hfirst : firstMatch config.rules event.val with
    | some compiled =>
      obtain ⟨hmem, happlies, hleast⟩ := (firstMatch_eq_some hpriorities).mp hfirst
      exact .inl ⟨compiled, hmem, happlies, hleast⟩
    | none =>
      obtain ⟨decision, hval, hdecision⟩ := ofReason_val (by decide : 1 ≤ "no matching rule".length)
      refine .inr ⟨firstMatch_eq_none.mp hfirst, decision, hval, ?_⟩
      rw [evaluate, if_neg hne, hfirst]
      exact hdecision

/-- The event of the sample payload. -/
def timeoutProblem : NormalizedEvent :=
  ⟨eventData sampleSha256 (samplePayload "timeout" (by decide)).val .critical .problem,
    (eventData_errors _ _ _ _).mpr (show "timeout".length ≤ 4096 by decide)⟩

/-- The sample rules behind a rule of the same match with a greater priority. -/
def fallbackRules : List RuleDefinitionConfig :=
  (sampleRules.map fun r => { r with name := "fallback", priority := 5 }) ++ sampleRules

def fallbackRule : CompiledRule :=
  { sampleCompiledRule with
    definition := ⟨{ sampleCompiledRule.definition.val with
      name := "fallback", priority := 5 }, by decide⟩ }

def fallbackConfig : CompiledRuleConfig := ⟨[fallbackRule, sampleCompiledRule], sampleConfigHash⟩

theorem fallbackConfig_loaded :
    loadRulesConfig sampleCompiler sampleConfigHash ["create_incident"] [] (some fallbackRules) =
      .ok fallbackConfig := rfl

/-- Both rules match, the one of greater priority stands first, and then last. -/
theorem rule_selection_sample :
    (∀ c ∈ fallbackConfig.rules, Applies c timeoutProblem.val) ∧
      (∃ config', loadRulesConfig sampleCompiler sampleConfigHash ["create_incident"] []
        (some fallbackRules.reverse) = .ok config' ∧
          evaluate config'.rules timeoutProblem = evaluate fallbackConfig.rules timeoutProblem) ∧
      ∃ decision : RuleMatch,
        evaluate fallbackConfig.rules timeoutProblem = .ok (.ruleMatch decision) ∧
          decision.val.ruleName = "outage" := by
  have happlies : ∀ c ∈ fallbackConfig.rules, Applies c timeoutProblem.val := by
    intro c hc
    rcases List.mem_pair.mp hc with rfl | rfl
    · exact matchesRule_iff.mp (by decide)
    · exact matchesRule_iff.mp (by decide)
  have hselection := rule_selection fallbackConfig_loaded timeoutProblem rfl
  have hmem : sampleCompiledRule ∈ fallbackConfig.rules := List.mem_cons_of_mem _ List.mem_cons_self
  refine ⟨happlies, hselection.1 _ (List.reverse_perm _) _, ?_⟩
  have hleast : ∀ c ∈ fallbackConfig.rules, Applies c timeoutProblem.val →
      c ≠ sampleCompiledRule →
        sampleCompiledRule.definition.val.priority < c.definition.val.priority := by
    intro c hc _ hne
    rcases List.mem_pair.mp hc with rfl | rfl
    · decide
    · exact absurd rfl hne
  have hgrouped : Grouped sampleCompiledRule timeoutProblem.val := by
    intro field hfield
    rw [List.mem_singleton.mp hfield]
    rfl
  have hdecides := (hselection.2.1 _ hmem (happlies _ hmem) hleast).1 hgrouped
  rw [modelValidate_of_valid (by decide)] at hdecides
  exact ⟨_, hdecides, rfl⟩

end Correlia
