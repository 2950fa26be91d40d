import Correlia.Scripts.MigrateVigiloConfig

/-!
# Migration — what an empty preflight says of the source

Where `_preflight_rules` reports nothing, every rule is a mapping in whose fields the transform finds
what it expects, and the priorities are distinct integers.
-/

namespace Correlia

open Lib

/-! ### Lists of issues -/

theorem flatten_mapIdx_eq_nil {α β : Type} {f : ℕ → α → List β} {l : List α} :
    (l.mapIdx f).flatten = [] ↔ ∀ i (h : i < l.length), f i l[i] = [] := by
  rw [List.flatten_eq_nil_iff]
  constructor
  · intro hall i h
    exact hall _ (List.mem_mapIdx.mpr ⟨i, h, rfl⟩)
  · intro hall x hx
    obtain ⟨i, h, rfl⟩ := List.mem_mapIdx.mp hx
    exact hall i h

@[simp] theorem issueUnless_eq_nil {ok : Bool} {domain location code message : String} :
    issueUnless ok domain location code message = [] ↔ ok = true := by
  cases ok <;> simp [issueUnless]

theorem firstRepeated_eq_none {seen ps : List ℤ} (h : firstRepeated seen ps = none) :
    ps.Nodup ∧ ∀ p ∈ ps, p ∉ seen := by
  induction ps generalizing seen with
  | nil => exact ⟨List.nodup_nil, nofun⟩
  | cons p ps ih =>
    unfold firstRepeated at h
    split at h
    · cases h
    · rename_i hp
      obtain ⟨hnodup, hseen⟩ := ih h
      refine ⟨List.nodup_cons.mpr ⟨fun hmem => hseen p hmem List.mem_cons_self, hnodup⟩, ?_⟩
      rintro q (_ | ⟨_, hq⟩)
      · exact hp
      · exact fun hin => hseen q hq (List.mem_cons_of_mem _ hin)

/-! ### Clean rules -/

/-- The `match` block, the tags it asks for, and the `window` of a source rule. -/
def matchBlock (rule : YamlMap) : YamlMap := ((getKey "match" rule).getD (.map [])).entries

def matchTags (rule : YamlMap) : YamlMap :=
  ((getKey "tags" (matchBlock rule)).getD (.map [])).entries

def windowBlock (rule : YamlMap) : YamlMap := ((getKey "window" rule).getD (.map [])).entries

/-- The priority of a source rule. -/
def priorityOf (rule : YamlMap) : ℤ :=
  match getKey "priority" rule with
  | some (.int n) => n
  | _ => 0

/-- What an empty preflight says of a rule. -/
structure CleanRule (rule : YamlMap) : Prop where
  priority : getKey "priority" rule = some (.int (priorityOf rule))
  host : (getKey "host" (matchBlock rule)).all Yaml.isStr = true
  service : getKey "service" (matchBlock rule) = none ∨
    getKey "service" (matchBlock rule) = some .null ∨
    ∃ s, getKey "service" (matchBlock rule) = some (.str s)
  tags : (getKey "tags" (matchBlock rule)).getD (.map []) = .map (matchTags rule)
  rewritten : (rewriteMatchTags (matchTags rule)).2 = []
  groupBy : ∀ entries, (getKey "group_by" (windowBlock rule)).getD (.seq []) = .seq entries →
    entries.all Yaml.isStr = true

theorem priority_of_preflight {loc : String} {v : Option Yaml} (h : preflightPriority loc v = []) :
    ∃ n, v = some (.int n) := by
  unfold preflightPriority at h
  split at h
  · exact ⟨_, rfl⟩
  · cases h
  · cases h
  · cases h

/-- The strings of a group-by list, where no entry has an issue. -/
theorem groupBy_of_preflight {entries : List Yaml} (h : (rewriteGroupBy entries).2 = []) :
    entries.all Yaml.isStr = true := by
  have hnone := List.filterMap_eq_nil_iff.mp h
  rw [List.all_eq_true]
  intro e he
  obtain ⟨i, hi, rfl⟩ := List.getElem_of_mem he
  have := hnone _ (List.mem_mapIdx.mpr ⟨i, hi, rfl⟩)
  cases hv : entries[i] with
  | str s => rfl
  | null | bool _ | int _ | other _ | seq _ | map _ =>
    rw [hv] at this
    cases this

theorem clean_of_preflight {idx : ℕ} {v : Yaml} (h : preflightRule idx v = []) :
    ∃ rule, v = .map rule ∧ CleanRule rule := by
  unfold preflightRule at h
  split at h
  · rename_i rule
    simp only [List.append_eq_nil_iff] at h
    obtain ⟨⟨⟨⟨⟨-, hmatch⟩, hpriority⟩, hgroup⟩, -⟩, -⟩ := h
    obtain ⟨n, hn⟩ := priority_of_preflight hpriority
    refine ⟨rule, rfl, ?_⟩
    unfold preflightMatch at hmatch
    split at hmatch
    · rename_i block hblock
      have hentries : matchBlock rule = block := by rw [matchBlock, hblock]; rfl
      simp only [List.append_eq_nil_iff, issueUnless_eq_nil] at hmatch
      obtain ⟨⟨⟨-, hhost⟩, hservice⟩, htags⟩ := hmatch
      split at htags
      · rename_i tags htagsMap
        have htagsOf : matchTags rule = tags := by rw [matchTags, hentries, htagsMap]; rfl
        refine ⟨?_, ?_, ?_, ?_, ?_, ?_⟩
        · rw [priorityOf, hn]
        · rwa [hentries]
        · rw [hentries]
          split at hservice
          · exact .inl ‹_›
          · exact .inr (.inl ‹_›)
          · exact .inr (.inr ⟨_, ‹_›⟩)
          · cases hservice
        · rwa [hentries, htagsOf]
        · rw [htagsOf]
          exact List.map_eq_nil_iff.mp htags
        · intro entries hseq
          have hwindow : (getKey "group_by" ((getKey "window" rule).getD (.map [])).entries).getD
              (.seq []) = .seq entries := hseq
          rw [hwindow] at hgroup
          exact groupBy_of_preflight (List.map_eq_nil_iff.mp hgroup)
      · cases htags
    · cases hmatch
  · cases h

/-- **An empty preflight**: clean rules with distinct priorities. -/
theorem clean_of_preflightRules {v : Yaml} (h : preflightRules v = []) :
    ∃ sources : List YamlMap, v = .seq (sources.map .map) ∧ (∀ r ∈ sources, CleanRule r) ∧
      (sources.map priorityOf).Nodup := by
  unfold preflightRules at h
  split at h
  · rename_i rules
    obtain ⟨hrules, hrepeated⟩ := List.append_eq_nil_iff.mp h
    rw [flatten_mapIdx_eq_nil] at hrules
    have hclean : ∀ v ∈ rules, ∃ rule, v = .map rule ∧ CleanRule rule := by
      intro v hv
      obtain ⟨i, hi, rfl⟩ := List.getElem_of_mem hv
      exact clean_of_preflight (hrules i hi)
    have hsources : ∃ sources : List YamlMap, rules = sources.map .map ∧
        ∀ r ∈ sources, CleanRule r := by
      clear hrules hrepeated h
      induction rules with
      | nil => exact ⟨[], rfl, nofun⟩
      | cons v rules ih =>
        obtain ⟨rule, rfl, hrule⟩ := hclean v List.mem_cons_self
        obtain ⟨sources, rfl, hall⟩ := ih fun v hv => hclean v (List.mem_cons_of_mem _ hv)
        exact ⟨rule :: sources, rfl, List.forall_mem_cons.mpr ⟨hrule, hall⟩⟩
    obtain ⟨sources, rfl, hall⟩ := hsources
    refine ⟨sources, rfl, hall, ?_⟩
    have hpriorities : (sources.map Yaml.map).filterMap sourcePriority = sources.map priorityOf := by
      rw [List.filterMap_map]
      rw [← List.filterMap_eq_map]
      refine List.filterMap_congr fun r hr => ?_
      show sourcePriority (.map r) = some (priorityOf r)
      rw [sourcePriority, (hall r hr).priority]
    rw [hpriorities] at hrepeated
    split at hrepeated
    · exact (firstRepeated_eq_none ‹_›).1
    · cases hrepeated
  · cases h

end Correlia
