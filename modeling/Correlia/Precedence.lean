import Correlia.Lib.Table
import Correlia.Migration
import Correlia.RuleSelection

/-!
# Precedence — a migrated file ranks the rules as the source did

The source's greatest priority comes first and is given rank 1.  So of two rules the one of greater
source priority has the smaller generated one, and the engine, which takes the smallest that
applies, takes the image of the rule the source ranks highest.
-/

namespace Correlia

open Lib

section

variable {calls : MigrationCalls} {rule : YamlMap} {sources : List YamlMap} {n : ℕ}

/-- The priority of a generated rule. -/
def generatedPriority (g : Yaml) : Option ℤ := (getKey "priority" g.entries).bind Yaml.int?

/-- The compiled rule a generated one is loaded as. -/
def IsImage (compile : RegexCompiler) (g : Yaml) (compiled : CompiledRule) : Prop :=
  ∃ r, readRule g = some r ∧ compileRuleConfig compile r = .ok compiled

/-! ### One rule -/

theorem transformRule_priority {g : Yaml} (h : transformRule calls n rule = .ok g) :
    generatedPriority g = some (n : ℤ) := by
  obtain ⟨_, -, h⟩ := bind_eq_ok.mp h
  obtain ⟨_, -, h⟩ := bind_eq_ok.mp h
  cases h
  rfl

theorem transformMatch_clean (h : CleanRule rule) :
    ∃ severities host service, transformMatch calls (matchBlock rule) = .ok (yamlMap [
      ("severities", severities), ("host_pattern", host), ("service_pattern", service),
      ("tags", yamlMap ((rewriteMatchTags (matchTags rule)).1.map fun e => (e.1, .str e.2)))]) := by
  have hhost : getKey "host" (matchBlock rule) = none ∨
      ∃ s, getKey "host" (matchBlock rule) = some (.str s) := by
    have hstr := h.host
    cases hget : getKey "host" (matchBlock rule) with
    | none => exact .inl rfl
    | some v =>
      rw [hget] at hstr
      cases v with
      | str s => exact .inr ⟨s, rfl⟩
      | null | bool _ | int _ | other _ | seq _ | map _ => cases hstr
  unfold transformMatch
  rcases hhost with hhost | ⟨s, hhost⟩ <;> rcases h.service with hservice | hservice | ⟨t, hservice⟩ <;>
    rw [hhost, hservice, h.tags] <;> exact ⟨_, _, _, rfl⟩

theorem transformWindow_clean (h : CleanRule rule) :
    ∃ g, transformWindow (windowBlock rule) = .ok g := by
  unfold transformWindow
  dsimp only
  rw [if_neg]
  · exact ⟨_, rfl⟩
  · split
    · rename_i entries heq
      have hall := List.all_eq_true.mp (h.groupBy entries heq)
      intro hany
      obtain ⟨e, he, hstr⟩ := List.any_eq_true.mp hany
      rw [hall e he] at hstr
      cases hstr
    · nofun

theorem transformRule_clean (calls : MigrationCalls) (n : ℕ) (h : CleanRule rule) :
    ∃ g, transformRule calls n rule = .ok g := by
  obtain ⟨severities, host, service, hm⟩ := @transformMatch_clean calls rule h
  obtain ⟨w, hw⟩ := transformWindow_clean h
  exact ⟨_, bind_eq_ok.mpr ⟨_, hm, bind_eq_ok.mpr ⟨w, hw, rfl⟩⟩⟩

/-! ### The loop -/

theorem transformSorted_clean (h : ∀ r ∈ sources, CleanRule r) (n : ℕ) :
    ∃ generated, transformSorted calls n sources = .ok generated ∧
      generated.length = sources.length ∧ ∀ i r, sources[i]? = some r →
        ∃ g, generated[i]? = some g ∧ transformRule calls (n + i) r = .ok g := by
  induction sources generalizing n with
  | nil => exact ⟨[], rfl, rfl, nofun⟩
  | cons r sources ih =>
    obtain ⟨hr, hsources⟩ := List.forall_mem_cons.mp h
    obtain ⟨g, hg⟩ := transformRule_clean calls n hr
    obtain ⟨generated, hrest, hlen, hall⟩ := ih hsources (n + 1)
    refine ⟨g :: generated, ?_, congrArg (· + 1) hlen, fun i r' hi => ?_⟩
    · exact bind_eq_ok.mpr ⟨g, hg, bind_eq_ok.mpr ⟨generated, hrest, rfl⟩⟩
    · cases i with
      | zero =>
        cases hi
        exact ⟨g, rfl, hg⟩
      | succ i =>
        obtain ⟨g', hget, hg'⟩ := hall i r' hi
        have hn : n + (i + 1) = n + 1 + i := by omega
        exact ⟨g', hget, hn ▸ hg'⟩

/-! ### The ranks -/

/-- The source rules by descending priority. -/
def rankedRules (sources : List YamlMap) : List YamlMap :=
  sortedDescending (sources.map fun r => (priorityOf r, r))

theorem rankedRules_perm (sources : List YamlMap) : (rankedRules sources).Perm sources := by
  have h := (List.perm_insertionSort (fun a b : ℤ × YamlMap => -a.1 ≤ -b.1)
    (sources.map fun r => (priorityOf r, r))).map Prod.snd
  rw [List.map_map] at h
  exact h.trans (.of_eq (List.map_id sources))

theorem rankedRules_descending (hnodup : (sources.map priorityOf).Nodup) :
    (rankedRules sources).Pairwise fun a b => priorityOf b < priorityOf a := by
  have hkeys : ((sources.map fun r => (priorityOf r, r)).map fun r => -r.1).Nodup := by
    rw [List.map_map]
    have := hnodup.map neg_injective
    rwa [List.map_map] at this
  have hstrict := sortBy_strict hkeys
  refine List.pairwise_map.mpr ((List.Pairwise.and_mem.mp hstrict).imp ?_)
  rintro ⟨p, a⟩ ⟨q, b⟩ ⟨ha, hb, hlt⟩
  obtain ⟨_, -, ha⟩ := List.mem_map.mp (mem_sortBy.mp ha)
  obtain ⟨_, -, hb⟩ := List.mem_map.mp (mem_sortBy.mp hb)
  cases ha
  cases hb
  exact neg_lt_neg_iff.mp hlt

theorem keyedRules_clean (h : ∀ r ∈ sources, CleanRule r) :
    keyedRules calls (sources.map .map) = .ok (sources.map fun r => (priorityOf r, r)) := by
  have hmaps : yamlMaps (sources.map .map) = sources := by
    rw [yamlMaps, List.filterMap_map]
    exact List.filterMap_some
  rw [keyedRules, hmaps, mapM_eq_ok, List.forall₂_map_right_iff, List.forall₂_same]
  intro r hr
  rw [(h r hr).priority]
  rfl

/-- The generated rules of a clean source: each is its rule's image at its rule's rank. -/
theorem transformRules_clean (calls : MigrationCalls) (h : ∀ r ∈ sources, CleanRule r) :
    ∃ generated, transformRules calls (sources.map .map) = .ok generated ∧
      generated.length = (rankedRules sources).length ∧ ∀ i r, (rankedRules sources)[i]? = some r →
        ∃ g, generated[i]? = some g ∧ transformRule calls (1 + i) r = .ok g := by
  have hranked : ∀ r ∈ rankedRules sources, CleanRule r := fun r hr =>
    h r ((rankedRules_perm sources).mem_iff.mp hr)
  obtain ⟨generated, hsorted, hlen, hall⟩ := @transformSorted_clean calls _ hranked 1
  exact ⟨generated, bind_eq_ok.mpr ⟨_, keyedRules_clean h, hsorted⟩, hlen, hall⟩

/-! ### Loading -/

/-- The rules of a loaded file are the images of its rules. -/
theorem loadRulesFile_images {compile : RegexCompiler} {configHash : HexDigest}
    {knownActions knownPlugins : List String} {file : List Yaml} {config : CompiledRuleConfig}
    (h : loadRulesFile compile configHash knownActions knownPlugins file = .ok config) :
    (∀ c ∈ config.rules, ∃ g ∈ file, IsImage compile g c) ∧
      (∀ g ∈ file, ∃ c ∈ config.rules, IsImage compile g c) ∧
      (config.rules.map fun c => c.definition.val.priority).Nodup := by
  unfold loadRulesFile at h
  cases hread : file.mapM readRule with
  | none =>
    rw [hread] at h
    cases h
  | some definitions =>
    rw [hread] at h
    have hcompiled := (loadRulesConfig_eq_ok.mp h).2.1
    rw [Option.getD_some, mapM_eq_ok] at hcompiled
    rw [mapM_eq_some] at hread
    refine ⟨fun c hc => ?_, fun g hg => ?_, priorities_nodup h⟩
    · obtain ⟨r, hr, hrc⟩ := exists_of_forall₂_right hcompiled hc
      obtain ⟨g, hg, hgr⟩ := exists_of_forall₂_right hread hr
      exact ⟨g, hg, r, hgr, hrc⟩
    · obtain ⟨r, hr, hgr⟩ := exists_of_forall₂_left hread hg
      obtain ⟨c, hc, hrc⟩ := exists_of_forall₂_left hcompiled hr
      exact ⟨c, hc, r, hgr, hrc⟩

/-- A loaded rule keeps the generated priority. -/
theorem image_priority {compile : RegexCompiler} {g : Yaml} {c : CompiledRule}
    (h : IsImage compile g c) : generatedPriority g = some c.definition.val.priority := by
  obtain ⟨r, hread, hcompile⟩ := h
  rw [(compileRuleConfig_fields hcompile).1]
  simp only [readRule, Option.bind_eq_bind, Option.bind_eq_some_iff] at hread
  obtain ⟨d, hd, _, -, priority, hpriority, _, -, _, -, _, -, _, -, heq⟩ := hread
  cases heq
  rw [generatedPriority, ← Yaml.fields?_eq_some hd]
  exact Option.bind_eq_some_iff.mpr hpriority

/-! ### The claim of the script's help text -/

/-- The rules of greater source priority come first in the ranking. -/
theorem ranked_lt_iff (hnodup : (sources.map priorityOf).Nodup) {i j : ℕ}
    (hi : i < (rankedRules sources).length) (hj : j < (rankedRules sources).length) :
    priorityOf (rankedRules sources)[j] < priorityOf (rankedRules sources)[i] ↔ i < j := by
  have hdescending := List.pairwise_iff_getElem.mp (rankedRules_descending hnodup)
  constructor
  · intro hlt
    by_contra hle
    rcases Nat.lt_or_eq_of_le (Nat.le_of_not_lt hle) with hji | rfl
    · exact lt_asymm hlt (hdescending j i hj hi hji)
    · exact lt_irrefl _ hlt
  · exact hdescending i j hi hj

/-- **Precedence is preserved.**  Where the preflight reports nothing, the transform gives one rule
for each source rule, with the priorities 1, 2, …; a greater source priority is a smaller generated
one; and of a file with the generated rules in any order, once it loads, the engine selects the
image of the rule of greatest source priority among those whose image applies. -/
theorem precedence_preserved (calls : MigrationCalls) {source : Yaml}
    (hclean : preflightRules source = []) :
    ∃ (sources : List YamlMap) (generated : List Yaml) (pairs : List (YamlMap × Yaml)),
      source = .seq (sources.map .map) ∧
      transformRules calls (sources.map .map) = .ok generated ∧
      ((pairs.map Prod.fst).Perm sources ∧ pairs.map Prod.snd = generated ∧
        ∀ p ∈ pairs, ∃ n, transformRule calls n p.1 = .ok p.2) ∧
      generated.map generatedPriority =
        (List.range' 1 sources.length).map (fun n : ℕ => some (n : ℤ)) ∧
      (∀ a ∈ pairs, ∀ b ∈ pairs, priorityOf b.1 < priorityOf a.1 ↔
        ∃ m n, generatedPriority a.2 = some m ∧ generatedPriority b.2 = some n ∧ m < n) ∧
      ∀ compile configHash knownActions knownPlugins file config, file.Perm generated →
        loadRulesFile compile configHash knownActions knownPlugins file = .ok config →
        (∀ a ∈ pairs, ∃ compiled ∈ config.rules, IsImage compile a.2 compiled) ∧
        ∀ event : EventData,
          (∀ compiled, firstMatch config.rules event = some compiled →
            ∃ a ∈ pairs, IsImage compile a.2 compiled ∧ Applies compiled event ∧
              ∀ b ∈ pairs, b ≠ a → ∀ c, IsImage compile b.2 c → Applies c event →
                priorityOf b.1 < priorityOf a.1) ∧
          (firstMatch config.rules event = none →
            ∀ b ∈ pairs, ∀ c, IsImage compile b.2 c → ¬ Applies c event) := by
  obtain ⟨sources, rfl, hsources, hnodup⟩ := clean_of_preflightRules hclean
  obtain ⟨generated, htransform, hlen, himage⟩ := transformRules_clean calls hsources
  have hfst : ((rankedRules sources).zip generated).map Prod.fst = rankedRules sources :=
    List.map_fst_zip hlen.ge
  have hsnd : ((rankedRules sources).zip generated).map Prod.snd = generated :=
    List.map_snd_zip hlen.le
  -- a pair is a rule and its image, at one rank
  have hpair : ∀ p ∈ (rankedRules sources).zip generated, ∃ i,
      ∃ hi : i < (rankedRules sources).length, p.1 = (rankedRules sources)[i] ∧
        transformRule calls (1 + i) p.1 = .ok p.2 := by
    intro p hp
    obtain ⟨i, hi, rfl⟩ := List.getElem_of_mem hp
    have hi' : i < (rankedRules sources).length := by
      rw [List.length_zip, hlen, min_self] at hi
      exact hi
    obtain ⟨g, hget, hg⟩ := himage i _ (List.getElem?_eq_getElem hi')
    obtain ⟨hlt, rfl⟩ := List.getElem?_eq_some_iff.mp hget
    exact ⟨i, hi', by rw [List.getElem_zip], by rw [List.getElem_zip]; exact hg⟩
  have hlt : ∀ a ∈ (rankedRules sources).zip generated,
      ∀ b ∈ (rankedRules sources).zip generated, priorityOf b.1 < priorityOf a.1 ↔
        ∃ m n, generatedPriority a.2 = some m ∧ generatedPriority b.2 = some n ∧ m < n := by
    intro a ha b hb
    obtain ⟨i, hi, ha1, hai⟩ := hpair a ha
    obtain ⟨j, hj, hb1, hbj⟩ := hpair b hb
    rw [ha1, hb1, ranked_lt_iff hnodup hi hj, transformRule_priority hai, transformRule_priority hbj]
    constructor
    · intro hij
      exact ⟨_, _, rfl, rfl, by omega⟩
    · rintro ⟨m, n, hm, hn, hmn⟩
      cases hm
      cases hn
      omega
  refine ⟨sources, generated, (rankedRules sources).zip generated, rfl, htransform,
    ⟨by rw [hfst]; exact rankedRules_perm sources, hsnd, fun p hp => ?_⟩, ?_, hlt, ?_⟩
  · obtain ⟨i, -, -, h⟩ := hpair p hp
    exact ⟨_, h⟩
  · have hsize : generated.length = sources.length :=
      hlen.trans (rankedRules_perm sources).length_eq
    refine List.ext_getElem (by simp [hsize]) fun i hi _ => ?_
    rw [List.length_map] at hi
    rw [List.getElem_map, List.getElem_map, List.getElem_range']
    obtain ⟨g, hget, hg⟩ := himage i _ (List.getElem?_eq_getElem (hlen ▸ hi))
    obtain ⟨hlt, rfl⟩ := List.getElem?_eq_some_iff.mp hget
    rw [transformRule_priority hg]
    simp
  · intro compile configHash knownActions knownPlugins file config hperm hload
    obtain ⟨hrules, himages, hpriorities⟩ := loadRulesFile_images hload
    have hloaded : ∀ b ∈ (rankedRules sources).zip generated, ∀ c, IsImage compile b.2 c →
        c ∈ config.rules := by
      intro b hb c hc
      have hmem : b.2 ∈ generated := hsnd ▸ List.mem_map_of_mem hb
      obtain ⟨c', hc', himage'⟩ := himages b.2 (hperm.mem_iff.mpr hmem)
      obtain ⟨r, hread, hcompile⟩ := hc
      obtain ⟨r', hread', hcompile'⟩ := himage'
      rw [hread] at hread'
      cases hread'
      rw [hcompile] at hcompile'
      cases hcompile'
      exact hc'
    refine ⟨fun a ha => ?_, fun event => ⟨fun compiled hfirst => ?_, fun hnone b hb c hc => ?_⟩⟩
    · exact himages a.2 (hperm.mem_iff.mpr (hsnd ▸ List.mem_map_of_mem ha))
    · obtain ⟨hmem, happlies, hleast⟩ := (firstMatch_eq_some hpriorities).mp hfirst
      obtain ⟨g, hg, himg⟩ := hrules compiled hmem
      rw [hperm.mem_iff, ← hsnd] at hg
      obtain ⟨a, ha, rfl⟩ := List.mem_map.mp hg
      refine ⟨a, ha, himg, happlies, fun b hb hne c hc hcapplies => ?_⟩
      have hcne : c ≠ compiled := by
        rintro rfl
        obtain ⟨i, hi, ha1, hai⟩ := hpair a ha
        obtain ⟨j, hj, hb1, hbj⟩ := hpair b hb
        have heq : generatedPriority b.2 = generatedPriority a.2 :=
          (image_priority hc).trans (image_priority himg).symm
        rw [transformRule_priority hai, transformRule_priority hbj] at heq
        have hij : j = i := by
          have := Option.some.inj heq
          omega
        subst hij
        have h1 : b.1 = a.1 := hb1.trans ha1.symm
        rw [h1, hai] at hbj
        exact hne (Prod.ext h1 (Except.ok.inj hbj).symm)
      have hprio := hleast c (hloaded b hb c hc) hcapplies hcne
      exact (hlt a ha b hb).mpr ⟨_, _, image_priority himg, image_priority hc, hprio⟩
    · exact firstMatch_eq_none.mp hnone c (hloaded b hb c hc)

/-- A source rule with this priority. -/
def sourceRule (name : String) (priority : ℤ) : Yaml :=
  yamlMap [("name", .str name), ("priority", .int priority),
    ("match", yamlMap [("severity", .seq [.str "CRITICAL"]), ("host", .str "web*"),
      ("tags", yamlMap [("dc", .str "fra1")])]),
    ("window", yamlMap [("group_by", .seq [.str "host"])]),
    ("output_summary", .str "host down"), ("actions", .seq [.str "smtp"])]

/-- The calls of the sample: `translate` of `web*`, and the groups of what it gives. -/
def webCalls : MigrationCalls where
  str _ := ""
  int _ := none
  translate pattern := if pattern = "web*" then "(?s:web.*)\\z" else pattern
  groups pattern := if pattern = "(?s:web.*)\\z" then some 0 else none

def webCompiler : RegexCompiler := fun pattern =>
  if pattern = "(?s:web.*)\\z" then some fun text => "web".toList.isPrefixOf text.toList else none

/-- The sample event with the tag. -/
def webProblem : EventData :=
  { timeoutProblem.val with tags := ⟨[("topology.dc", "fra1")], by decide⟩ }

/-- With its rules in the other order the generated file loads, both rules apply, and the image of the
rule of greater source priority is selected. -/
theorem precedence_preserved_sample :
    preflightRules (.seq [sourceRule "low" 1, sourceRule "high" 9]) = [] ∧
      ∃ (sources : List YamlMap) (generated : List Yaml) (pairs : List (YamlMap × Yaml)),
        [sourceRule "low" 1, sourceRule "high" 9] = sources.map .map ∧
        transformRules webCalls (sources.map .map) = .ok generated ∧
        pairs.map Prod.snd = generated ∧
        generated.map generatedPriority = [some 1, some 2] ∧
        ∃ config compiled,
          loadRulesFile webCompiler sampleConfigHash ["create_incident"] ["smtp"]
            generated.reverse = .ok config ∧
          (∀ c ∈ config.rules, Applies c webProblem) ∧
          firstMatch config.rules webProblem = some compiled ∧
          compiled.definition.val.name = "high" ∧
          ∃ a ∈ pairs, IsImage webCompiler a.2 compiled ∧
            ∀ b ∈ pairs, b ≠ a → priorityOf b.1 < priorityOf a.1 := by
  have hclean : preflightRules (.seq [sourceRule "low" 1, sourceRule "high" 9]) = [] :=
    List.isEmpty_iff.mp (by decide +kernel)
  obtain ⟨sources, generated, pairs, hsource, htransform, ⟨-, hsnd, -⟩, hpriorities, -, hselects⟩ :=
    precedence_preserved webCalls hclean
  have hlist := Yaml.seq.inj hsource
  have hlen : sources.length = 2 := by
    have := congrArg List.length hlist
    rw [List.length_map] at this
    exact this.symm
  rw [hlen] at hpriorities
  have hgenerated : ∃ g, transformRules webCalls [sourceRule "low" 1, sourceRule "high" 9] = .ok g ∧
      ∃ config compiled, loadRulesFile webCompiler sampleConfigHash ["create_incident"] ["smtp"]
        g.reverse = .ok config ∧ (config.rules.all fun c => matchesRule c webProblem) = true ∧
          firstMatch config.rules webProblem = some compiled ∧
            compiled.definition.val.name = "high" :=
    ⟨_, rfl, _, _, rfl, rfl, rfl, rfl⟩
  obtain ⟨g, hg, config, compiled, hload, hall, hfirst, hname⟩ := hgenerated
  rw [hlist, htransform] at hg
  cases hg
  have happlies : ∀ c ∈ config.rules, Applies c webProblem :=
    fun c hc => matchesRule_iff.mp (List.all_eq_true.mp hall c hc)
  obtain ⟨himages, hevent⟩ := hselects _ _ _ _ _ _ (List.reverse_perm generated) hload
  obtain ⟨a, ha, himage, -, hgreatest⟩ := (hevent webProblem).1 compiled hfirst
  refine ⟨hclean, sources, generated, pairs, hlist, htransform, hsnd, hpriorities, config, compiled,
    hload, happlies, hfirst, hname, a, ha, himage, fun b hb hne => ?_⟩
  obtain ⟨c, hc, hbimage⟩ := himages b hb
  exact hgreatest b hb hne c hbimage (happlies c hc)

end

end Correlia
