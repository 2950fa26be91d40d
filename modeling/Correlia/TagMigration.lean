import Correlia.Precedence

/-!
# TagMigration — the tags a migrated configuration asks for

Both transforms rename the keys of a mapping while they fill a dictionary.  A bare key and the same
key with its prefix get one name, so the later value stands; no preflight looks for it.
-/

namespace Correlia

open Lib

section

variable {calls : MigrationCalls} {rule entry tags kept : YamlMap} {n : ℕ}

/-- The literal tags of a hostname pattern, or of a generated hostname rule. -/
def literalTags (entry : YamlMap) : YamlMap := ((getKey "tags" entry).getD (.map [])).entries

/-- Every entry is there under its new key, with its value. -/
def KeepsTags (tags kept : YamlMap) : Prop :=
  ∀ e ∈ tags, ∃ key value newKey, e = (.str key, .str value) ∧
    toCorreliaTagKey key = some newKey ∧ getKey newKey kept = some (.str value)

/-- A key, and the same key as it is or with the prefix it lacks, with another value. -/
def TagClash (tags : YamlMap) : Prop :=
  ∃ key key' value value', (YamlKey.str key, Yaml.str value) ∈ tags ∧
    (YamlKey.str key', Yaml.str value') ∈ tags ∧
    (key' = key ∨ ¬ "topology.".toList <+: key.toList ∧ key' = "topology." ++ key) ∧
    value ≠ value'

/-! ### Keys -/

/-- What both transforms write for an entry. -/
def keptTag : YamlKey × Yaml → Option (String × String)
  | (.str key, .str value) => (toCorreliaTagKey key).map fun newKey => (newKey, value)
  | _ => none

theorem keptTag_eq_some {e : YamlKey × Yaml} {w : String × String} :
    keptTag e = some w ↔
      ∃ key, e = (.str key, .str w.2) ∧ toCorreliaTagKey key = some w.1 := by
  obtain ⟨k, v⟩ := e
  constructor
  · intro h
    cases k with
    | other t => cases h
    | str key =>
      cases v with
      | str value =>
        obtain ⟨newKey, hkey, rfl⟩ := Option.map_eq_some_iff.mp h
        exact ⟨key, rfl, hkey⟩
      | null | bool _ | int _ | other _ | seq _ | map _ => cases h
  · rintro ⟨key, heq, hkey⟩
    cases heq
    exact Option.map_eq_some_iff.mpr ⟨w.1, hkey, rfl⟩

theorem toCorreliaTagKey_eq {key newKey : String} (h : toCorreliaTagKey key = some newKey) :
    newKey = if "topology.".toList <+: key.toList then key else "topology." ++ key := by
  unfold toCorreliaTagKey at h
  split at h
  · cases h
  · dsimp only at h
    rw [Option.ite_none_right_eq_some] at h
    exact (Option.some.inj h.2).symm

/-- Two keys get one name when they are the same, or one is the other with the prefix. -/
theorem toCorreliaTagKey_inj {k₁ k₂ m₁ m₂ : String} (h₁ : toCorreliaTagKey k₁ = some m₁)
    (h₂ : toCorreliaTagKey k₂ = some m₂) :
    m₁ = m₂ ↔ k₂ = k₁ ∨ (¬ "topology.".toList <+: k₁.toList ∧ k₂ = "topology." ++ k₁) ∨
      (¬ "topology.".toList <+: k₂.toList ∧ k₁ = "topology." ++ k₂) := by
  have hstart : ∀ k : String, "topology.".toList <+: ("topology." ++ k).toList := fun k => by
    rw [String.toList_append]
    exact List.prefix_append _ _
  rw [toCorreliaTagKey_eq h₁, toCorreliaTagKey_eq h₂]
  constructor
  · intro heq
    by_cases hk₁ : "topology.".toList <+: k₁.toList <;>
      by_cases hk₂ : "topology.".toList <+: k₂.toList
    · rw [if_pos hk₁, if_pos hk₂] at heq
      exact .inl heq.symm
    · rw [if_pos hk₁, if_neg hk₂] at heq
      exact .inr (.inr ⟨hk₂, heq⟩)
    · rw [if_neg hk₁, if_pos hk₂] at heq
      exact .inr (.inl ⟨hk₁, heq.symm⟩)
    · rw [if_neg hk₁, if_neg hk₂] at heq
      refine .inl (String.toList_inj.mp ?_)
      have h := congrArg String.toList heq
      rw [String.toList_append, String.toList_append] at h
      exact (List.append_cancel_left h).symm
  · rintro (rfl | ⟨hk, rfl⟩ | ⟨hk, rfl⟩)
    · rfl
    · rw [if_neg hk, if_pos (hstart k₁)]
    · rw [if_pos (hstart k₂), if_neg hk]

/-! ### The dictionary that is filled -/

/-- A dictionary of strings as a mapping. -/
def stringEntries (l : List (String × String)) : YamlMap := l.map fun e => (.str e.1, .str e.2)

theorem getKey_stringEntries (k : String) (l : List (String × String)) :
    getKey k (stringEntries l) = (getItem k l).map .str := by
  induction l with
  | nil => rfl
  | cons e l ih =>
    show getItem _ (_ :: stringEntries l) = _
    rw [getItem_cons, getItem_cons]
    by_cases h : e.1 = k
    · rw [if_pos h, if_pos (congrArg YamlKey.str h)]
      rfl
    · rw [if_neg h, if_neg fun hk => h (YamlKey.str.inj hk)]
      exact ih

/-- **The dictionary of the written entries** keeps them all exactly when none clash. -/
theorem keepsTags_iff (hall : ∀ e ∈ tags, (keptTag e).isSome) :
    KeepsTags tags (stringEntries (setItems (tags.filterMap keptTag) [])) ↔ ¬ TagClash tags := by
  have hkeeps : KeepsTags tags (stringEntries (setItems (tags.filterMap keptTag) [])) ↔
      ∀ w ∈ tags.filterMap keptTag,
        getItem w.1 (setItems (tags.filterMap keptTag) []) = some w.2 := by
    constructor
    · intro h w hw
      obtain ⟨e, he, hew⟩ := List.mem_filterMap.mp hw
      obtain ⟨key, value, newKey, rfl, hkey, hget⟩ := h e he
      obtain ⟨key', heq, hkey'⟩ := keptTag_eq_some.mp hew
      cases heq
      rw [hkey] at hkey'
      cases hkey'
      rw [getKey_stringEntries] at hget
      obtain ⟨v, hv, heq⟩ := Option.map_eq_some_iff.mp hget
      rw [hv, Yaml.str.inj heq]
    · intro h e he
      obtain ⟨w, hw⟩ := Option.isSome_iff_exists.mp (hall e he)
      obtain ⟨key, rfl, hkey⟩ := keptTag_eq_some.mp hw
      refine ⟨key, w.2, w.1, rfl, hkey, ?_⟩
      rw [getKey_stringEntries, h w (List.mem_filterMap.mpr ⟨_, he, hw⟩)]
      rfl
  rw [hkeeps, getItem_setItems_all]
  constructor
  · rintro h ⟨key, key', value, value', hmem, hmem', hsame, hne⟩
    obtain ⟨w, hw⟩ := Option.isSome_iff_exists.mp (hall _ hmem)
    obtain ⟨w', hw'⟩ := Option.isSome_iff_exists.mp (hall _ hmem')
    obtain ⟨_, heq, hkey⟩ := keptTag_eq_some.mp hw
    obtain ⟨_, heq', hkey'⟩ := keptTag_eq_some.mp hw'
    cases heq
    cases heq'
    refine hne (h w (List.mem_filterMap.mpr ⟨_, hmem, hw⟩) w'
      (List.mem_filterMap.mpr ⟨_, hmem', hw'⟩) ?_)
    exact (toCorreliaTagKey_inj hkey hkey').mpr (hsame.imp id .inl)
  · intro hno w hw w' hw' hkeys
    obtain ⟨e, he, hew⟩ := List.mem_filterMap.mp hw
    obtain ⟨e', he', hew'⟩ := List.mem_filterMap.mp hw'
    obtain ⟨key, rfl, hkey⟩ := keptTag_eq_some.mp hew
    obtain ⟨key', rfl, hkey'⟩ := keptTag_eq_some.mp hew'
    by_contra hne
    rcases (toCorreliaTagKey_inj hkey hkey').mp hkeys with heq | hbare | hbare
    · exact hno ⟨key, key', w.2, w'.2, he, he', .inl heq, hne⟩
    · exact hno ⟨key, key', w.2, w'.2, he, he', .inr hbare, hne⟩
    · exact hno ⟨key', key, w'.2, w.2, he', he, .inr hbare, Ne.symm hne⟩

/-! ### Rules -/

theorem foldl_rewriteMatchTags_issues {acc : List (String × String)} {issues : List MigrationIssue}
    (h : (tags.foldl rewriteMatchTagsStep (acc, issues)).2 = []) : issues = [] := by
  induction tags generalizing acc issues with
  | nil => exact h
  | cons e tags ih =>
    rw [List.foldl_cons, rewriteMatchTagsStep] at h
    cases he : rewriteMatchTag e with
    | ok w =>
      rw [he] at h
      exact ih h
    | error issue =>
      rw [he] at h
      exact (List.append_eq_nil_iff.mp (ih h)).1

theorem keptTag_of_rewrite {e : YamlKey × Yaml} {w : String × String}
    (h : rewriteMatchTag e = .ok w) : keptTag e = some w := by
  unfold rewriteMatchTag at h
  dsimp only at h
  split at h
  · cases h
  · rename_i key value hkey hvalue
    split at h
    · cases h
    · split at h
      · cases h
      · rename_i newKey hnew
        cases h
        exact keptTag_eq_some.mpr ⟨key, Prod.ext hkey hvalue, hnew⟩
  · cases h

theorem foldl_rewriteMatchTags {acc : List (String × String)}
    (h : (tags.foldl rewriteMatchTagsStep (acc, [])).2 = []) :
    (tags.foldl rewriteMatchTagsStep (acc, [])).1 = setItems (tags.filterMap keptTag) acc ∧
      ∀ e ∈ tags, (keptTag e).isSome := by
  induction tags generalizing acc with
  | nil => exact ⟨rfl, nofun⟩
  | cons e tags ih =>
    rw [List.foldl_cons, rewriteMatchTagsStep] at h ⊢
    cases he : rewriteMatchTag e with
    | ok w =>
      rw [he] at h
      have hkept := keptTag_of_rewrite he
      obtain ⟨hrest, hall⟩ := ih h
      rw [List.filterMap_cons_some hkept]
      exact ⟨hrest, List.forall_mem_cons.mpr ⟨by rw [hkept]; rfl, hall⟩⟩
    | error issue =>
      rw [he] at h
      cases foldl_rewriteMatchTags_issues h

/-- The tags of the rule generated for a clean one. -/
theorem matchTags_transformRule {g : Yaml} (h : CleanRule rule)
    (hg : transformRule calls n rule = .ok g) :
    matchTags g.entries = stringEntries (rewriteMatchTags (matchTags rule)).1 := by
  obtain ⟨m, hm, hg⟩ := bind_eq_ok.mp hg
  obtain ⟨_, -, hg⟩ := bind_eq_ok.mp hg
  obtain ⟨severities, host, service, hm'⟩ := @transformMatch_clean calls rule h
  change transformMatch calls (matchBlock rule) = .ok m at hm
  rw [hm'] at hm
  cases hm
  cases hg
  show List.map _ _ = List.map _ _
  rw [List.map_map]
  rfl

theorem rule_keeps_iff {g : Yaml} (h : CleanRule rule) (hg : transformRule calls n rule = .ok g) :
    KeepsTags (matchTags rule) (matchTags g.entries) ↔ ¬ TagClash (matchTags rule) := by
  obtain ⟨hwritten, hall⟩ := foldl_rewriteMatchTags h.rewritten
  rw [matchTags_transformRule h hg, rewriteMatchTags, hwritten]
  exact keepsTags_iff hall

/-! ### Hostname patterns -/

/-- The sections of a topology the preflight passes are lists of mappings. -/
theorem maps_of_preflight {P : YamlMap → Prop} {preflight : ℕ → Yaml → List MigrationIssue}
    (hentry : ∀ i v, preflight i v = [] → ∃ entry, v = .map entry ∧ P entry)
    {items : List Yaml} (h : (items.mapIdx preflight).flatten = []) :
    ∃ entries : List YamlMap, items = entries.map .map ∧ ∀ e ∈ entries, P e := by
  rw [flatten_mapIdx_eq_nil] at h
  have hall : ∀ v ∈ items, ∃ entry, v = .map entry ∧ P entry := by
    intro v hv
    obtain ⟨i, hi, rfl⟩ := List.getElem_of_mem hv
    exact hentry i _ (h i hi)
  clear h
  induction items with
  | nil => exact ⟨[], rfl, nofun⟩
  | cons v items ih =>
    obtain ⟨entry, rfl, he⟩ := hall v List.mem_cons_self
    obtain ⟨entries, rfl, hentries⟩ := ih fun v hv => hall v (List.mem_cons_of_mem _ hv)
    exact ⟨entry :: entries, rfl, List.forall_mem_cons.mpr ⟨he, hentries⟩⟩

theorem keptTag_of_preflight {loc : String} {e : YamlKey × Yaml}
    (h : preflightLiteralTag loc e = []) : (keptTag e).isSome := by
  obtain ⟨k, v⟩ := e
  cases k with
  | other t => cases h
  | str key =>
    obtain ⟨hvalue, hkey⟩ := List.append_eq_nil_iff.mp h
    rw [issueUnless_eq_nil] at hkey
    cases v with
    | str value =>
      obtain ⟨newKey, hnew⟩ := Option.isSome_iff_exists.mp hkey
      rw [keptTag, hnew]
      rfl
    | null | bool _ | int _ | other _ | seq _ | map _ => cases hvalue

theorem hostname_of_preflight (idx : ℕ) (v : Yaml) (h : preflightHostname calls idx v = []) :
    ∃ entry, v = .map entry ∧ ∀ e ∈ literalTags entry, (keptTag e).isSome := by
  unfold preflightHostname at h
  split at h
  · rename_i entry
    refine ⟨entry, rfl, fun e he => ?_⟩
    have htags := (List.append_eq_nil_iff.mp h).2
    split at htags
    · split at htags
      · cases htags
      · have hliteral := (List.append_eq_nil_iff.mp htags).2
        exact keptTag_of_preflight (List.flatMap_eq_nil_iff.mp hliteral e he)
    · cases htags
  · cases h

theorem subnet_of_preflight (idx : ℕ) (v : Yaml) (h : preflightSubnet idx v = []) :
    ∃ entry, v = .map entry ∧ True := by
  unfold preflightSubnet at h
  split at h
  · exact ⟨_, rfl, trivial⟩
  · cases h

theorem rewriteLiteralTags_eq (hall : ∀ e ∈ tags, (keptTag e).isSome) :
    rewriteLiteralTags calls tags = setItems (tags.filterMap keptTag) [] := by
  rw [rewriteLiteralTags]
  generalize ([] : List (String × String)) = acc
  induction tags generalizing acc with
  | nil => rfl
  | cons e tags ih =>
    obtain ⟨he, htags⟩ := List.forall_mem_cons.mp hall
    obtain ⟨w, hw⟩ := Option.isSome_iff_exists.mp he
    obtain ⟨key, rfl, hkey⟩ := keptTag_eq_some.mp hw
    rw [List.filterMap_cons_some hw, List.foldl_cons, YamlKey.text, hkey]
    exact ih htags (setItem w.1 w.2 acc)

theorem literalTags_transformHostname (ruleId : String) :
    literalTags (transformHostname calls ruleId entry).entries =
      stringEntries (rewriteLiteralTags calls (literalTags entry)) := by
  show List.map _ _ = List.map _ _
  rw [List.map_map]
  rfl

theorem hostname_keeps_iff (hall : ∀ e ∈ literalTags entry, (keptTag e).isSome) (ruleId : String) :
    KeepsTags (literalTags entry) (literalTags (transformHostname calls ruleId entry).entries) ↔
      ¬ TagClash (literalTags entry) := by
  rw [literalTags_transformHostname, rewriteLiteralTags_eq hall]
  exact keepsTags_iff hall

/-! ### The lists of a topology -/

theorem length_uniqueSlugs (seen : List (String × ℕ)) (names : List String) :
    (uniqueSlugs seen names).length = names.length := by
  induction names generalizing seen with
  | nil => rfl
  | cons name names ih => exact congrArg (· + 1) (ih _)

/-- The mappings among indexed entries, where all are. -/
theorem filterMap_mapIdx_maps {β : Type} {g : Yaml × ℕ → Option β} {f : ℕ → YamlMap → β}
    (hg : ∀ idx entry, g (.map entry, idx) = some (f idx entry)) (entries : List YamlMap) :
    ((entries.map Yaml.map).mapIdx fun idx entry => (entry, idx)).filterMap g =
      entries.mapIdx f := by
  rw [List.mapIdx_eq_zipIdx_map, List.mapIdx_eq_zipIdx_map, List.zipIdx_map, List.map_map,
    List.filterMap_map, ← List.filterMap_eq_map]
  exact List.filterMap_congr fun e _ => hg e.2 e.1

theorem length_entryNames (key stem : String) (entries : List YamlMap) :
    (entryNames calls key stem (entries.map .map)).length = entries.length := by
  rw [entryNames, filterMap_mapIdx_maps (f := fun idx entry =>
    pyStr calls ((getKey key entry).getD (.str (stem ++ natText idx)))) fun _ _ => rfl,
    List.length_mapIdx]

theorem transformEntries_maps (transform : String → YamlMap → Yaml) {ids : List String}
    {entries : List YamlMap} (h : ids.length = entries.length) :
    transformEntries transform ids (entries.map .map) = some (List.zipWith transform ids entries) := by
  rw [transformEntries, filterMap_mapIdx_maps (f := fun idx entry => (entry, idx)) fun _ _ => rfl,
    mapM_eq_some, List.forall₂_iff_get]
  refine ⟨by simp [h], fun i hi _ => ?_⟩
  rw [List.length_mapIdx] at hi
  have hids : i < ids.length := h ▸ hi
  simp [List.getElem?_eq_getElem hids]

theorem forall₂_zipWith {α β γ : Type} {R : β → γ → Prop} {f : α → β → γ}
    (hR : ∀ a b, R b (f a b)) {as : List α} {bs : List β} (h : as.length = bs.length) :
    List.Forall₂ R bs (List.zipWith f as bs) := by
  rw [List.forall₂_iff_get]
  refine ⟨by simp [h], fun i _ _ => ?_⟩
  simp [hR]

/-- The ids of the rules generated for these entries. -/
def entryIds (calls : MigrationCalls) (key stem : String) (entries : List YamlMap) : List String :=
  uniqueSlugs [] (entryNames calls key stem (entries.map .map))

theorem length_entryIds (key stem : String) (entries : List YamlMap) :
    (entryIds calls key stem entries).length = entries.length :=
  (length_uniqueSlugs _ _).trans (length_entryNames key stem entries)

/-- A topology the preflight passes has lists of mappings. -/
theorem maps_of_preflightTopology {v : Yaml} (h : preflightTopology calls v = []) :
    ∃ (topology : YamlMap) (hostnames subnets : List YamlMap), v = .map topology ∧
      topologySection "hostname_patterns" topology = (hostnames.map Yaml.map, []) ∧
      topologySection "ip_subnets" topology = (subnets.map Yaml.map, []) ∧
      ∀ entry ∈ hostnames, ∀ e ∈ literalTags entry, (keptTag e).isSome := by
  unfold preflightTopology at h
  split at h
  · rename_i topology
    simp only [List.append_eq_nil_iff] at h
    obtain ⟨⟨⟨⟨-, hhostIssues⟩, hhosts⟩, hsubnetIssues⟩, hsubnets⟩ := h
    obtain ⟨hostnames, hhostnames, hall⟩ := maps_of_preflight hostname_of_preflight hhosts
    obtain ⟨subnets, hsubnetMaps, -⟩ := maps_of_preflight subnet_of_preflight hsubnets
    exact ⟨topology, hostnames, subnets, rfl, Prod.ext hhostnames hhostIssues,
      Prod.ext hsubnetMaps hsubnetIssues, hall⟩
  · cases h

/-- Every entry becomes a rule, with the id at its place. -/
theorem transformTopology_maps {topology : YamlMap} {hostnames subnets : List YamlMap}
    (hhosts : topologySection "hostname_patterns" topology = (hostnames.map Yaml.map, []))
    (hsubnets : topologySection "ip_subnets" topology = (subnets.map Yaml.map, [])) :
    transformTopology calls topology = .ok
      ⟨List.zipWith (transformHostname calls) (entryIds calls "name" "hostname-" hostnames)
          hostnames,
        List.zipWith (transformSubnet calls) (entryIds calls "target_tag" "subnet-" subnets)
          subnets⟩ := by
  have hlen : ∀ key stem entries, (entryIds calls key stem entries).length = entries.length :=
    length_entryIds
  have hhostIds := transformEntries_maps (transformHostname calls)
    (hlen "name" "hostname-" hostnames)
  have hsubnetIds := transformEntries_maps (transformSubnet calls)
    (hlen "target_tag" "subnet-" subnets)
  unfold entryIds at *
  unfold transformTopology
  dsimp only
  rw [hhosts, hsubnets, hhostIds, hsubnetIds]
  rfl

/-- The generated lists of a topology the preflight passes: every entry becomes a rule. -/
theorem transformTopology_clean {v : Yaml} (h : preflightTopology calls v = []) :
    ∃ topology hostnames generated, v = .map topology ∧
      (topologySection "hostname_patterns" topology).1 = hostnames.map Yaml.map ∧
      (∀ entry ∈ hostnames, ∀ e ∈ literalTags entry, (keptTag e).isSome) ∧
      transformTopology calls topology = .ok generated ∧
      List.Forall₂ (fun entry g => ∃ ruleId, g = transformHostname calls ruleId entry) hostnames
        generated.hostnameRules := by
  obtain ⟨topology, hostnames, subnets, rfl, hhosts, hsubnets, hall⟩ := maps_of_preflightTopology h
  exact ⟨topology, hostnames, _, rfl, by rw [hhosts], hall, transformTopology_maps hhosts hsubnets,
    forall₂_zipWith (fun ruleId _ => ⟨ruleId, rfl⟩) (length_entryIds "name" "hostname-" hostnames)⟩

/-! ### The two documents -/

/-- The generated rules, one for each source rule in the source's order of precedence, ask for its
tags, and the generated hostname rules, one for each pattern, give its literal tags. -/
def DocumentsKept (calls : MigrationCalls) (rules topology : Yaml) : Prop :=
  ∃ sources topologyRules hostnames generated generatedTopology,
    rules = .seq (sources.map .map) ∧ topology = .map topologyRules ∧
    (topologySection "hostname_patterns" topologyRules).1 = hostnames.map Yaml.map ∧
    transformRules calls (sources.map .map) = .ok generated ∧
    transformTopology calls topologyRules = .ok generatedTopology ∧
    List.Forall₂ (fun rule g => (∃ n, transformRule calls n rule = .ok g) ∧
      KeepsTags (matchTags rule) (matchTags g.entries)) (rankedRules sources) generated ∧
    List.Forall₂ (fun entry g => (∃ ruleId, g = transformHostname calls ruleId entry) ∧
      KeepsTags (literalTags entry) (literalTags g.entries)) hostnames
        generatedTopology.hostnameRules

/-- A rule or a hostname pattern of the documents has clashing tags. -/
def DocumentClash (rules topology : Yaml) : Prop :=
  (∃ items rule, rules = .seq items ∧ Yaml.map rule ∈ items ∧ TagClash (matchTags rule)) ∨
    ∃ topologyRules entry, topology = .map topologyRules ∧
      Yaml.map entry ∈ (topologySection "hostname_patterns" topologyRules).1 ∧
      TagClash (literalTags entry)

theorem forall₂_iff_forall {α β : Type} {R P : α → β → Prop} {Q : α → Prop} {l : List α}
    {l' : List β} (h : List.Forall₂ R l l') (hP : ∀ a ∈ l, ∀ b, R a b → (P a b ↔ Q a)) :
    List.Forall₂ P l l' ↔ ∀ a ∈ l, Q a := by
  induction h with
  | nil => exact ⟨nofun, fun _ => .nil⟩
  | @cons a b as bs hab _ ih =>
    rw [List.forall₂_cons, List.forall_mem_cons, hP a List.mem_cons_self b hab,
      ih fun a ha => hP a (List.mem_cons_of_mem _ ha)]

theorem yamlMaps_injective : Function.Injective (List.map Yaml.map) :=
  List.map_injective_iff.mpr fun _ _ h => Yaml.map.inj h

theorem documentClash_iff {sources : List YamlMap} {topologyRules : YamlMap}
    {hostnames : List YamlMap}
    (hhostnames : (topologySection "hostname_patterns" topologyRules).1 = hostnames.map Yaml.map) :
    DocumentClash (.seq (sources.map .map)) (.map topologyRules) ↔
      (∃ rule ∈ sources, TagClash (matchTags rule)) ∨
        ∃ entry ∈ hostnames, TagClash (literalTags entry) := by
  have hmem : ∀ (entries : List YamlMap) (entry : YamlMap),
      Yaml.map entry ∈ entries.map Yaml.map ↔ entry ∈ entries := fun entries entry =>
    List.mem_map_of_injective fun _ _ h => Yaml.map.inj h
  constructor
  · rintro (⟨items, rule, heq, hrule, hclash⟩ | ⟨_, entry, heq, hentry, hclash⟩)
    · cases heq
      exact .inl ⟨rule, (hmem _ _).mp hrule, hclash⟩
    · cases heq
      rw [hhostnames] at hentry
      exact .inr ⟨entry, (hmem _ _).mp hentry, hclash⟩
  · rintro (⟨rule, hrule, hclash⟩ | ⟨entry, hentry, hclash⟩)
    · exact .inl ⟨_, rule, rfl, (hmem _ _).mpr hrule, hclash⟩
    · refine .inr ⟨_, entry, rfl, ?_, hclash⟩
      rw [hhostnames]
      exact (hmem _ _).mpr hentry

theorem documentsKept_iff {rules topology : Yaml} (hrules : preflightRules rules = [])
    (htopology : preflightTopology calls topology = []) :
    DocumentsKept calls rules topology ↔ ¬ DocumentClash rules topology := by
  obtain ⟨sources, rfl, hclean, -⟩ := clean_of_preflightRules hrules
  obtain ⟨generated, hgenerated, hlen, himage⟩ := transformRules_clean calls hclean
  obtain ⟨topologyRules, hostnames, generatedTopology, rfl, hhostnames, hliteral, htransform,
    himages⟩ := transformTopology_clean htopology
  have hrule : List.Forall₂ (fun rule g => ∃ n, transformRule calls n rule = .ok g)
      (rankedRules sources) generated := by
    rw [List.forall₂_iff_get]
    refine ⟨hlen.symm, fun i hi hi' => ?_⟩
    obtain ⟨g, hget, hg⟩ := himage i _ (List.getElem?_eq_getElem hi)
    obtain ⟨_, rfl⟩ := List.getElem?_eq_some_iff.mp hget
    exact ⟨_, hg⟩
  have hrules := forall₂_iff_forall (P := fun rule g => (∃ n, transformRule calls n rule = .ok g) ∧
      KeepsTags (matchTags rule) (matchTags g.entries))
    (Q := fun rule => ¬ TagClash (matchTags rule)) hrule fun rule hmem g ⟨n, hg⟩ => by
      have hclean := hclean rule ((rankedRules_perm sources).mem_iff.mp hmem)
      rw [rule_keeps_iff hclean hg]
      exact and_iff_right ⟨n, hg⟩
  have hhosts := forall₂_iff_forall (P := fun entry g =>
      (∃ ruleId, g = transformHostname calls ruleId entry) ∧
        KeepsTags (literalTags entry) (literalTags g.entries))
    (Q := fun entry => ¬ TagClash (literalTags entry)) himages fun entry hmem g ⟨ruleId, hg⟩ => by
      rw [hg, hostname_keeps_iff (hliteral entry hmem)]
      exact and_iff_right ⟨ruleId, rfl⟩
  have hiff : DocumentsKept calls (.seq (sources.map .map)) (.map topologyRules) ↔
      (∀ rule ∈ rankedRules sources, ¬ TagClash (matchTags rule)) ∧
        ∀ entry ∈ hostnames, ¬ TagClash (literalTags entry) := by
    rw [← hrules, ← hhosts]
    constructor
    · rintro ⟨sources', topologyRules', hostnames', generated', generatedTopology', hs, ht, hh, hg,
        hgt, hkept⟩
      cases yamlMaps_injective (Yaml.seq.inj hs)
      cases ht
      cases yamlMaps_injective (hhostnames.symm.trans hh)
      rw [hgenerated] at hg
      rw [htransform] at hgt
      cases hg
      cases hgt
      exact hkept
    · intro hkept
      exact ⟨sources, topologyRules, hostnames, generated, generatedTopology, rfl, rfl, hhostnames,
        hgenerated, htransform, hkept⟩
  rw [hiff, documentClash_iff hhostnames, not_or]
  refine and_congr ?_ (by simp)
  simp only [(rankedRules_perm sources).mem_iff, not_exists, not_and]

theorem migrate_of_issues {fails : PublishStep → Bool} {debris : Directory Yaml}
    {out : Option (Directory Yaml)} {source : MigrationSource}
    (h : preflightRules source.rulesList.1 ≠ [] ∨
      preflightTopology calls source.topologyRules.1 ≠ []) :
    (migrate calls fails debris out source).issues ≠ [] ∧
      (migrate calls fails debris out source).failureCode = some .catalogedIncompatibility ∧
      (migrate calls fails debris out source).out = out := by
  have hissues : sourceIssues calls source ≠ [] := by
    intro hnil
    simp only [sourceIssues, List.append_eq_nil_iff] at hnil
    rcases h with h | h
    · exact h hnil.1.1.2
    · exact h hnil.1.2
  have hempty : (sourceIssues calls source).isEmpty = false := List.isEmpty_eq_false_iff.mpr hissues
  unfold migrate
  dsimp only
  rw [hempty]
  exact ⟨hissues, rfl, rfl⟩

/-- **Tags through the migration.**  Where the preflights report an issue, so does the run, and it
promotes nothing.  Where they report none, the generated files keep every tag exactly when no rule
and no pattern has a bare key beside the same key with its prefix and another value. -/
theorem migration_keeps_tags (calls : MigrationCalls) (source : MigrationSource) :
    ((preflightRules source.rulesList.1 = [] →
        preflightTopology calls source.topologyRules.1 = [] →
          DocumentsKept calls source.rulesList.1 source.topologyRules.1) ∧
      ((preflightRules source.rulesList.1 ≠ [] ∨
          preflightTopology calls source.topologyRules.1 ≠ []) →
        ∀ fails debris out, (migrate calls fails debris out source).issues ≠ [] ∧
          (migrate calls fails debris out source).failureCode = some .catalogedIncompatibility ∧
          (migrate calls fails debris out source).out = out)) ↔
      (preflightRules source.rulesList.1 ≠ [] ∨
        preflightTopology calls source.topologyRules.1 ≠ [] ∨
        ¬ DocumentClash source.rulesList.1 source.topologyRules.1) := by
  constructor
  · rintro ⟨hkept, -⟩
    by_contra hnot
    simp only [ne_eq, not_or, not_not] at hnot
    obtain ⟨hrules, htopology, hclash⟩ := hnot
    exact (documentsKept_iff hrules htopology).mp (hkept hrules htopology) hclash
  · intro h
    refine ⟨fun hrules htopology => (documentsKept_iff hrules htopology).mpr ?_,
      fun hissues fails debris out => migrate_of_issues hissues⟩
    rcases h with h | h | h
    · exact absurd hrules h
    · exact absurd htopology h
    · exact h

/-- A rule that asks for two data centres, of which the generated one asks for the second only. -/
def clashingRule : YamlMap :=
  [(.str "name", .str "dc down"), (.str "priority", .int 1),
    (.str "match", yamlMap [("severity", .seq [.str "CRITICAL"]),
      ("tags", yamlMap [("dc", .str "fra1"), ("topology.dc", .str "fra2")])]),
    (.str "output_summary", .str "dc down"), (.str "actions", .seq [.str "smtp"])]

theorem tag_dropped :
    preflightRules (.seq [.map clashingRule]) = [] ∧
      preflightTopology ⟨fun _ => "", fun _ => none, id, fun _ => none⟩ (.map []) = [] ∧ ∃ g,
      transformRules ⟨fun _ => "", fun _ => none, id, fun _ => none⟩ [.map clashingRule] =
        .ok [g] ∧
      (YamlKey.str "dc", Yaml.str "fra1") ∈ matchTags clashingRule ∧
      toCorreliaTagKey "dc" = some "topology.dc" ∧
      getKey "topology.dc" (matchTags g.entries) = some (.str "fra2") := by
  refine ⟨List.isEmpty_iff.mp (by decide +kernel), rfl, _, rfl, ?_, by decide +kernel, rfl⟩
  exact List.mem_cons_self

end

end Correlia
