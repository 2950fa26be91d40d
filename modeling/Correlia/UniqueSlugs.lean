import Correlia.Lib.Delimited
import Correlia.Lib.Occurrences
import Correlia.TagMigration

/-!
# UniqueSlugs — when generated topology ids are distinct

The slugs of the names, numbered from the second occurrence of one on.  A numbered slug may be the
slug of another name, and exactly then two ids are equal (`unique_slugs_iff`).
-/

namespace Correlia

open Lib

/-- The id of the occurrence of a slug that has `count` before it. -/
def numberedSlug (slug : String) (count : ℕ) : String :=
  if count = 0 then slug else slug ++ "-" ++ natText count

/-- No name's slug is the numbered slug of a later occurrence. -/
def SlugsApart (names : List String) : Prop :=
  ∀ slug count, 1 ≤ count → count < (names.map toSlug).count slug →
    slug ++ "-" ++ natText count ∉ names.map toSlug

theorem numberedSlug_numbering : Numbering numberedSlug where
  zero := fun _ => rfl
  inj := by
    intro slug slug' j k hj hk heq
    unfold numberedSlug at heq
    rw [if_neg (by omega), if_neg (by omega)] at heq
    have hchars : slug.toList ++ '-' :: (natText j).toList =
        slug'.toList ++ '-' :: (natText k).toList := by
      simpa using congrArg String.toList heq
    have hdash : ∀ n, '-' ∉ (natText n).toList := fun n h =>
      absurd (natText_chars n '-' h) (by decide)
    obtain ⟨hslug, hcount⟩ := append_cons_inj_of_notMem_right (hdash j) (hdash k) hchars
    exact ⟨String.toList_inj.mp hslug, natText_injective (String.toList_inj.mp hcount)⟩

/-- The counts so far are those of the slugs before. -/
theorem uniqueSlugs_eq {seen : List (String × ℕ)} {before : List String}
    (hseen : ∀ slug, (getItem slug seen).getD 0 = before.count slug) (names : List String) :
    uniqueSlugs seen names =
      (occurrencesAfter before (names.map toSlug)).map fun e => numberedSlug e.1 e.2 := by
  induction names generalizing seen before with
  | nil => rfl
  | cons name names ih =>
    have hnext : ∀ slug, (getItem slug (setItem (toSlug name) (before.count (toSlug name) + 1)
        seen)).getD 0 = (toSlug name :: before).count slug := by
      intro slug
      rw [getItem_setItem, List.count_cons]
      by_cases h : toSlug name = slug
      · simp [h]
      · simp [h, hseen]
    unfold uniqueSlugs
    dsimp only
    rw [hseen, ih hnext, List.map_cons, occurrencesAfter, List.map_cons, numberedSlug]

theorem uniqueSlugs_nodup_iff (names : List String) :
    (uniqueSlugs [] names).Nodup ↔ SlugsApart names := by
  rw [@uniqueSlugs_eq [] [] (fun _ => rfl)]
  exact (numberedSlug_numbering.nodup_iff (names.map toSlug)).trans
    (forall₃_congr fun slug count hcount => by rw [numberedSlug, if_neg (by omega)])

/-! ### The ids of a topology -/

/-- The `id` of a generated rule. -/
def ruleId (rule : Yaml) : Option Yaml := getKey "id" rule.entries

/-- Generated rules carry the ids they are given. -/
theorem ruleIds_zipWith {transform : String → YamlMap → Yaml}
    (hid : ∀ id entry, ruleId (transform id entry) = some (.str id)) {ids : List String}
    {entries : List YamlMap} (h : ids.length = entries.length) :
    (List.zipWith transform ids entries).map ruleId = ids.map fun id => some (.str id) := by
  induction ids generalizing entries with
  | nil => rfl
  | cons id ids ih =>
    cases entries with
    | nil => cases h
    | cons entry entries =>
      rw [List.zipWith_cons_cons, List.map_cons, List.map_cons, hid,
        ih (Nat.succ.inj h)]

/-- Rules with the ids made of these names share none exactly when the slugs are apart. -/
theorem ruleIds_nodup_iff {transform : String → YamlMap → Yaml}
    (hid : ∀ id entry, ruleId (transform id entry) = some (.str id)) {names : List String}
    {entries : List YamlMap} (h : names.length = entries.length) :
    ((List.zipWith transform (uniqueSlugs [] names) entries).map ruleId).Nodup ↔
      SlugsApart names := by
  have hinj : Function.Injective fun id => some (Yaml.str id) := fun id id' heq =>
    Yaml.str.inj (Option.some.inj heq)
  rw [ruleIds_zipWith hid ((length_uniqueSlugs _ _).trans h), List.nodup_map_iff hinj,
    uniqueSlugs_nodup_iff]

/-- The names of a topology's hostname patterns, and of its subnets. -/
def hostnameNames (calls : MigrationCalls) (topology : YamlMap) : List String :=
  entryNames calls "name" "hostname-" (topologySection "hostname_patterns" topology).1

def subnetNames (calls : MigrationCalls) (topology : YamlMap) : List String :=
  entryNames calls "target_tag" "subnet-" (topologySection "ip_subnets" topology).1

/-- **Unique ids.**  As many slugs as names, and they are distinct if and only if no name's slug is a
numbered slug of a repeated one; the hostname rules of a migrated topology share no id exactly
when this is so for the patterns' names, and the subnet rules when it is for the target tags. -/
theorem unique_slugs_iff (names : List String) :
    ((uniqueSlugs [] names).length = names.length ∧
      ((uniqueSlugs [] names).Nodup ↔ SlugsApart names)) ∧
    ∀ calls topology, preflightTopology calls (.map topology) = [] →
      ∃ generated, transformTopology calls topology = .ok generated ∧
        ((generated.hostnameRules.map ruleId).Nodup ↔ SlugsApart (hostnameNames calls topology)) ∧
        ((generated.subnetRules.map ruleId).Nodup ↔ SlugsApart (subnetNames calls topology)) := by
  refine ⟨⟨length_uniqueSlugs _ _, uniqueSlugs_nodup_iff names⟩, fun calls topology h => ?_⟩
  obtain ⟨topology', hostnames, subnets, heq, hhosts, hsubnets, -⟩ := maps_of_preflightTopology h
  cases heq
  refine ⟨_, transformTopology_maps hhosts hsubnets, ?_, ?_⟩
  · rw [hostnameNames, hhosts]
    exact ruleIds_nodup_iff (fun _ _ => rfl) (length_entryNames _ _ _)
  · rw [subnetNames, hsubnets]
    exact ruleIds_nodup_iff (fun _ _ => rfl) (length_entryNames _ _ _)

/-- Three names, of which the third is the second's numbered slug. -/
theorem slugs_repeated :
    uniqueSlugs [] ["db", "db", "db-1"] = ["db", "db-1", "db-1"] ∧
      ¬ (uniqueSlugs [] ["db", "db", "db-1"]).Nodup := by
  decide +kernel

/-- Patterns of these three names, and two subnets of one tag. -/
def repeatedTopology : YamlMap :=
  [(.str "hostname_patterns", .seq (["db", "db", "db-1"].map fun name =>
      yamlMap [("name", .str name), ("regex", .str "db.*"), ("tags", yamlMap [("dc", .str "fra1")])])),
    (.str "ip_subnets", .seq (["10.0.0.0/16", "10.1.0.0/16"].map fun cidr =>
      yamlMap [("cidr", .str cidr), ("value", .str "fra1"), ("target_tag", .str "dc")]))]

/-- The regex of the sample has no groups. -/
def repeatedCalls : MigrationCalls :=
  ⟨fun _ => "", fun _ => none, id, fun regex => if regex = "db.*" then some 0 else none⟩

/-- Two of the hostname rules have one id, and the subnet rules have two. -/
theorem unique_slugs_iff_sample :
    preflightTopology repeatedCalls (.map repeatedTopology) = [] ∧
      ∃ generated, transformTopology repeatedCalls repeatedTopology = .ok generated ∧
        ¬(generated.hostnameRules.map ruleId).Nodup ∧ (generated.subnetRules.map ruleId).Nodup := by
  have hclean : preflightTopology repeatedCalls (.map repeatedTopology) = [] :=
    List.isEmpty_iff.mp (by decide +kernel)
  obtain ⟨generated, htransform, hhostnames, hsubnets⟩ :=
    (unique_slugs_iff []).2 repeatedCalls repeatedTopology hclean
  have hnames : hostnameNames repeatedCalls repeatedTopology = ["db", "db", "db-1"] ∧
      subnetNames repeatedCalls repeatedTopology = ["dc", "dc"] := by decide +kernel
  rw [hnames.1, ← uniqueSlugs_nodup_iff] at hhostnames
  rw [hnames.2, ← uniqueSlugs_nodup_iff] at hsubnets
  exact ⟨hclean, generated, htransform, hhostnames.not.mpr (by decide +kernel),
    hsubnets.mpr (by decide +kernel)⟩

end Correlia
