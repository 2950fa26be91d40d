import Correlia.Lib.Table
import Correlia.Processing.Enrichment

/-!
# TopologyTags — what enrichment does to an event

Literal tags and captured values are written one after the other, and the diagnostic is kept along
the way (`Faithful`).  A literal tag is written as a captured one is: its key has not been added
before, since the keys of a rule differ.  What a loaded file promises (`WellFormed`) is that the keys
are topology keys and the groups exist.
-/

namespace Correlia

open Lib

/-! ### What is written -/

/-- What group `i` holds. -/
def Match.text {n : ℕ} (m : Match n) (i : ℤ) : Option String := (m.lookup i).toOption.join

/-- The captured values that are not empty, each under its key. -/
def captures {n : ℕ} (m : Match n) (groups : List (String × ℤ)) : List (String × String) :=
  groups.filterMap fun e => (m.text e.2).bind fun value =>
    if value = "" then none else some (e.1, value)

/-- The diagnostic tells what became of the tags: the added ones with their final values, the final
value of every overridden one last, and every old tag whose value changed. -/
structure Faithful (old new added : Items String String)
    (overridden : List (String × String × String)) : Prop where
  added : ∀ k v, added.get k = some v ↔ old.get k = none ∧ new.get k = some v
  last : ∀ k e, getItem k overridden.reverse = some e → new.get k = some e.2
  changed : ∀ k o v, old.get k = some o → new.get k = some v → o ≠ v → ∃ e, (k, e) ∈ overridden

/-- What a rule gives an event. -/
structure Assignment where
  ruleId : String
  ruleName : String
  matchSource : String
  literals : List (String × String)
  captures : List (String × String)

/-- The rule that applies: the first hostname rule that matches, else the first subnet rule that
holds the address, else none. -/
inductive Assigns (config : CompiledTopologyConfig) (event : EventData) : Option Assignment → Prop
  | hostname {before after : List CompiledHostnameRule} {rule : CompiledHostnameRule}
      {m : Match rule.pattern.groups} (split : config.hostnameRules = before ++ rule :: after)
      (first : ∀ r ∈ before, (r.pattern.match event.host).isNone)
      (found : rule.pattern.match event.host = some m) :
      Assigns config event (some ⟨rule.id, rule.name, "hostname", rule.tags.entries,
        captures m rule.tagCaptureGroups.entries⟩)
  | subnet {before after : List CompiledSubnetRule} {rule : CompiledSubnetRule} {text : String}
      {addr : IPAddress} (unmatched : ∀ r ∈ config.hostnameRules, (r.pattern.match event.host).isNone)
      (ip : event.ipAddress = some text) (parsed : ipAddress text = some addr)
      (split : config.subnetRules = before ++ rule :: after)
      (first : ∀ r ∈ before, r.network.contains addr = false)
      (found : rule.network.contains addr = true) :
      Assigns config event (some ⟨rule.id, rule.name, "subnet", rule.tags.entries, []⟩)
  | nothing (unmatched : ∀ r ∈ config.hostnameRules, (r.pattern.match event.host).isNone)
      (outside : ∀ text ∈ event.ipAddress, ∀ addr ∈ ipAddress text,
        ∀ r ∈ config.subnetRules, r.network.contains addr = false) :
      Assigns config event none

/-- Only tags change, in tags only topology keys, and the assignment is written exactly. -/
structure Exact (event : EventData) (assignment : Option Assignment) (result : EnrichmentResult) :
    Prop where
  frame : result.event = { event with tags := result.event.tags }
  confined : ∀ k, isTopologyKey k = false → result.event.tags.get k = event.tags.get k
  unassigned : assignment = none → result.event.tags = event.tags ∧ result.diagnostics = []
  assigned : ∀ a, assignment = some a →
    result.event.tags.entries = setItems a.captures (setItems a.literals event.tags.entries) ∧
      ∃ d, result.diagnostics = [d] ∧ d.ruleId = a.ruleId ∧ d.ruleName = a.ruleName ∧
        d.matchSource = a.matchSource ∧
        Faithful event.tags result.event.tags d.tagsAdded d.tagsOverridden

/-! ### One tag after the other -/

namespace AppliedTags

section

variable (t : AppliedTags) (k v o k' : String)

@[simp] theorem setTag_newTags : (t.setTag k v).newTags = t.newTags.set k v := rfl
@[simp] theorem setTag_tagsAdded : (t.setTag k v).tagsAdded = t.tagsAdded := rfl
@[simp] theorem setTag_tagsOverridden : (t.setTag k v).tagsOverridden = t.tagsOverridden := rfl

@[simp] theorem addTag_newTags : (t.addTag k v).newTags = t.newTags := rfl
@[simp] theorem addTag_tagsAdded : (t.addTag k v).tagsAdded = t.tagsAdded.set k v := rfl
@[simp] theorem addTag_tagsOverridden : (t.addTag k v).tagsOverridden = t.tagsOverridden := rfl

@[simp] theorem overridden_newTags : (t.overridden k o v).newTags = t.newTags := rfl
@[simp] theorem overridden_tagsAdded : (t.overridden k o v).tagsAdded = t.tagsAdded := rfl
@[simp] theorem overridden_tagsOverridden :
    (t.overridden k o v).tagsOverridden = t.tagsOverridden ++ [(k, o, v)] := rfl

@[simp] theorem readd_newTags : (t.readd k v).newTags = t.newTags := by
  unfold readd
  split_ifs <;> rfl

@[simp] theorem readd_tagsOverridden : (t.readd k v).tagsOverridden = t.tagsOverridden := by
  unfold readd
  split_ifs <;> rfl

theorem readd_tagsAdded_get : (t.readd k v).tagsAdded.get k' =
    if k = k' ∧ (t.tagsAdded.get k).isSome then some v else t.tagsAdded.get k' := by
  unfold readd
  by_cases h : (t.tagsAdded.get k).isSome
  · rw [if_pos h, addTag_tagsAdded, Items.get_set]
    simp only [h, and_true]
  · rw [if_neg h, if_neg fun hk => h hk.2]

end

variable {old : Items String String} {t : AppliedTags} {e : String × String}

@[simp] theorem captured_newTags (t : AppliedTags) (e : String × String) :
    (t.captured e).newTags = t.newTags.set e.1 e.2 := by
  unfold captured
  split
  · split_ifs <;> simp
  · simp

/-- A key that has not been added makes no difference between the loops. -/
theorem literal_eq_captured (h : t.tagsAdded.get e.1 = none) : t.literal e = t.captured e := by
  have hreadd : ∀ o, (t.overridden e.1 o e.2).readd e.1 e.2 = t.overridden e.1 o e.2 := fun o => by
    rw [readd, overridden_tagsAdded, h]
    rfl
  unfold literal captured
  simp only [hreadd]

theorem captured_tagsAdded_of_ne {k : String} (h : e.1 ≠ k) :
    (t.captured e).tagsAdded.get k = t.tagsAdded.get k := by
  unfold captured
  split
  · split_ifs
    · simp [readd_tagsAdded_get, h]
    · rfl
  · simp [Items.get_set, h]

/-- The loop over the literal tags, as if they were captured. -/
theorem foldl_literal {entries : List (String × String)} (hkeys : (entries.map Prod.fst).Nodup)
    (h : ∀ e ∈ entries, t.tagsAdded.get e.1 = none) :
    entries.foldl literal t = entries.foldl captured t := by
  induction entries generalizing t with
  | nil => rfl
  | cons e entries ih =>
    obtain ⟨hnot, hkeys⟩ := List.nodup_cons.mp hkeys
    rw [List.foldl_cons, List.foldl_cons, literal_eq_captured (h e List.mem_cons_self)]
    apply ih hkeys
    intro e' he'
    rw [captured_tagsAdded_of_ne]
    · exact h e' (List.mem_cons_of_mem _ he')
    · exact fun heq => hnot (heq ▸ List.mem_map_of_mem he')

theorem foldl_captured_newTags (entries : List (String × String)) (t : AppliedTags) :
    (entries.foldl captured t).newTags.entries = setItems entries t.newTags.entries := by
  induction entries generalizing t with
  | nil => rfl
  | cons e entries ih =>
    rw [List.foldl_cons, ih, captured_newTags]
    rfl

/-! ### The diagnostic -/

/-- The diagnostic so far, and no old key is lost. -/
structure Tracks (old : Items String String) (t : AppliedTags) : Prop where
  faithful : Faithful old t.newTags t.tagsAdded t.tagsOverridden
  kept : ∀ k, t.newTags.get k = none → old.get k = none

theorem tracks_start (old : Items String String) : Tracks old { newTags := old } := by
  constructor
  · constructor
    · intro k v
      constructor
      · nofun
      · rintro ⟨hnone, hsome⟩
        rw [show old.get k = some v from hsome] at hnone
        cases hnone
    · nofun
    · intro k o v ho hv hne
      rw [show old.get k = some v from hv] at ho
      exact absurd (Option.some.inj ho).symm hne
  · exact fun _ h => h

/-- A tag that was not there is added. -/
theorem Tracks.add (h : Tracks old t) (hnew : t.newTags.get e.1 = none) :
    Tracks old ((t.addTag e.1 e.2).setTag e.1 e.2) := by
  have hset : ∀ k, ((t.addTag e.1 e.2).setTag e.1 e.2).newTags.get k =
      if e.1 = k then some e.2 else t.newTags.get k := fun k => by simp [Items.get_set]
  constructor
  · constructor
    · intro k v
      rw [hset, setTag_tagsAdded, addTag_tagsAdded, Items.get_set]
      by_cases hk : e.1 = k
      · subst hk
        simp [h.kept _ hnew]
      · rw [if_neg hk, if_neg hk]
        exact h.faithful.added k v
    · intro k e' he'
      have hlast := h.faithful.last k e' he'
      rw [hset, if_neg, hlast]
      rintro rfl
      rw [hnew] at hlast
      cases hlast
    · intro k o v ho hv hne
      rw [hset, if_neg] at hv
      · exact h.faithful.changed k o v ho hv hne
      · rintro rfl
        rw [h.kept _ hnew] at ho
        cases ho
  · intro k hk
    rw [hset] at hk
    split_ifs at hk
    exact h.kept k hk

/-- A tag is set to the value it has. -/
theorem Tracks.same (h : Tracks old t) (hnew : t.newTags.get e.1 = some e.2) :
    Tracks old (t.setTag e.1 e.2) := by
  have hset : ∀ k, (t.setTag e.1 e.2).newTags.get k = t.newTags.get k := fun k => by
    rw [setTag_newTags, Items.get_set]
    split_ifs with hk
    · rw [← hk, hnew]
    · rfl
  constructor
  · constructor
    · intro k v
      rw [hset]
      exact h.faithful.added k v
    · intro k e' he'
      rw [hset]
      exact h.faithful.last k e' he'
    · intro k o v ho hv
      rw [hset] at hv
      exact h.faithful.changed k o v ho hv
  · intro k hk
    rw [hset] at hk
    exact h.kept k hk

/-- A tag gets another value, and one that was added is added with it. -/
theorem Tracks.override {o : String} (h : Tracks old t) (hnew : t.newTags.get e.1 = some o) :
    Tracks old (((t.overridden e.1 o e.2).readd e.1 e.2).setTag e.1 e.2) := by
  have hset : ∀ k, (((t.overridden e.1 o e.2).readd e.1 e.2).setTag e.1 e.2).newTags.get k =
      if e.1 = k then some e.2 else t.newTags.get k := fun k => by simp [Items.get_set]
  have hadded : (t.tagsAdded.get e.1).isSome = true ↔ old.get e.1 = none := by
    rw [Option.isSome_iff_exists]
    constructor
    · rintro ⟨v, hv⟩
      exact ((h.faithful.added _ v).mp hv).1
    · exact fun hnone => ⟨o, (h.faithful.added _ o).mpr ⟨hnone, hnew⟩⟩
  constructor
  · constructor
    · intro k v
      rw [hset, setTag_tagsAdded, readd_tagsAdded_get, overridden_tagsAdded]
      simp only [hadded]
      by_cases hk : e.1 = k
      · subst hk
        by_cases hnone : old.get e.1 = none
        · simp [hnone]
        · have := h.faithful.added e.1 v
          simp [hnone, this]
      · rw [if_neg hk, if_neg fun hand => hk hand.1]
        exact h.faithful.added k v
    · intro k e' he'
      rw [setTag_tagsOverridden, readd_tagsOverridden, overridden_tagsOverridden,
        List.reverse_append, List.reverse_singleton, List.singleton_append, getItem_cons] at he'
      rw [hset]
      split_ifs at he' ⊢
      · rw [← Option.some.inj he']
      · exact h.faithful.last k e' he'
    · intro k v v' ho hv hne
      rw [hset] at hv
      rw [setTag_tagsOverridden, readd_tagsOverridden, overridden_tagsOverridden]
      by_cases hk : e.1 = k
      · exact ⟨(o, e.2), List.mem_append_right _ (hk ▸ List.mem_singleton_self _)⟩
      · rw [if_neg hk] at hv
        obtain ⟨x, hx⟩ := h.faithful.changed k v v' ho hv hne
        exact ⟨x, List.mem_append_left _ hx⟩
  · intro k hk
    rw [hset] at hk
    split_ifs at hk
    exact h.kept k hk

theorem Tracks.captured (h : Tracks old t) (e : String × String) : Tracks old (t.captured e) := by
  unfold AppliedTags.captured
  split
  · rename_i o hnew
    split_ifs with hne
    · exact h.override hnew
    · exact h.same (hnew.trans (congrArg some (not_not.mp hne)))
  · rename_i hnew
    exact h.add hnew

theorem Tracks.foldl_captured (h : Tracks old t) (entries : List (String × String)) :
    Tracks old (entries.foldl AppliedTags.captured t) := by
  induction entries generalizing t with
  | nil => exact h
  | cons e entries ih => exact ih (h.captured e)

end AppliedTags

/-! ### A rule applied -/

section

variable {n : ℕ} {m : Match n} {event : EventData}

theorem lookup_eq_ok {i : ℤ} (h : 1 ≤ i ∧ i ≤ n) : ∃ o, m.lookup i = .ok o := by
  unfold Match.lookup
  rw [if_neg (by omega), dif_pos h]
  exact ⟨_, rfl⟩

/-- With groups that exist the loop over them raises nothing. -/
theorem foldlM_derive {groups : List (String × ℤ)} (h : ∀ e ∈ groups, 1 ≤ e.2 ∧ e.2 ≤ n)
    (t : AppliedTags) :
    groups.foldlM (AppliedTags.derive m) t =
      .ok ((captures m groups).foldl AppliedTags.captured t) := by
  induction groups generalizing t with
  | nil => rfl
  | cons e groups ih =>
    obtain ⟨o, ho⟩ := lookup_eq_ok (m := m) (h e List.mem_cons_self)
    have htext : m.text e.2 = o := by rw [Match.text, ho]; rfl
    have hrest := ih fun e' he' => h e' (List.mem_cons_of_mem _ he')
    rw [List.foldlM_cons, AppliedTags.derive, ho, captures, List.filterMap_cons, htext, ← captures]
    cases o with
    | none => exact hrest t
    | some value =>
      by_cases hempty : value = ""
      · simp only [hempty, Option.bind_some, if_true]
        exact hrest t
      · simp only [Option.bind_some, if_neg hempty, List.foldl_cons]
        simp only [ok_bind, if_neg hempty]
        exact hrest _

/-- The containers after a rule with these tags. -/
def appliedTags (event : EventData) (literals captures : List (String × String)) : AppliedTags :=
  captures.foldl AppliedTags.captured
    (literals.foldl AppliedTags.captured { newTags := event.tags })

theorem tracks_appliedTags (event : EventData) (literals captures : List (String × String)) :
    (appliedTags event literals captures).Tracks event.tags :=
  ((AppliedTags.tracks_start event.tags).foldl_captured literals).foldl_captured captures

theorem appliedTags_newTags (event : EventData) (literals captures : List (String × String)) :
    (appliedTags event literals captures).newTags.entries =
      setItems captures (setItems literals event.tags.entries) := by
  rw [appliedTags, AppliedTags.foldl_captured_newTags, AppliedTags.foldl_captured_newTags]

theorem foldl_literal_start (event : EventData) (tags : Items String String) :
    tags.entries.foldl AppliedTags.literal { newTags := event.tags } =
      tags.entries.foldl AppliedTags.captured { newTags := event.tags } :=
  AppliedTags.foldl_literal tags.nodup fun _ _ => rfl

theorem applySubnetRule_eq (event : EventData) (rule : CompiledSubnetRule) :
    applySubnetRule event rule =
      enrichmentResult event rule.id rule.name "subnet" (appliedTags event rule.tags.entries []) := by
  rw [applySubnetRule, foldl_literal_start]
  rfl

theorem applyHostnameRule_eq {rule : CompiledHostnameRule} (m : Match rule.pattern.groups)
    (h : ∀ e ∈ rule.tagCaptureGroups.entries, 1 ≤ e.2 ∧ e.2 ≤ rule.pattern.groups) :
    applyHostnameRule event rule m = .ok (enrichmentResult event rule.id rule.name "hostname"
      (appliedTags event rule.tags.entries (captures m rule.tagCaptureGroups.entries))) := by
  rw [applyHostnameRule, foldl_literal_start, foldlM_derive h]
  rfl

end

/-! ### The rule that applies -/

theorem firstHostnameMatch_eq_none {host : String} {rules : List CompiledHostnameRule} :
    firstHostnameMatch host rules = none ↔ ∀ r ∈ rules, (r.pattern.match host).isNone := by
  induction rules with
  | nil => simp [firstHostnameMatch]
  | cons r rules ih =>
    rw [firstHostnameMatch, List.forall_mem_cons]
    cases r.pattern.match host with
    | none => simpa using ih
    | some m => simp

theorem firstHostnameMatch_eq_some {host : String} {rules : List CompiledHostnameRule}
    {rule : CompiledHostnameRule} {m : Match rule.pattern.groups}
    (h : firstHostnameMatch host rules = some ⟨rule, m⟩) :
    rule.pattern.match host = some m ∧ ∃ before after, rules = before ++ rule :: after ∧
      ∀ r ∈ before, (r.pattern.match host).isNone := by
  induction rules with
  | nil => cases h
  | cons r rules ih =>
    rw [firstHostnameMatch] at h
    cases hm : r.pattern.match host with
    | none =>
      rw [hm] at h
      obtain ⟨hfound, before, after, rfl, hfirst⟩ := ih h
      refine ⟨hfound, r :: before, after, rfl, List.forall_mem_cons.mpr ⟨?_, hfirst⟩⟩
      rw [hm]
      rfl
    | some m' =>
      rw [hm] at h
      cases h
      exact ⟨hm, [], rules, rfl, nofun⟩

/-- The version test before the membership test changes nothing. -/
theorem firstSubnet_eq_find? (addr : IPAddress) (rules : List CompiledSubnetRule) :
    firstSubnet addr rules = rules.find? fun r => r.network.contains addr := by
  induction rules with
  | nil => rfl
  | cons r rules ih =>
    rw [firstSubnet, List.find?_cons, ih]
    cases hc : r.network.contains addr with
    | true =>
      have hversion := (IPNetwork.contains_iff.mp hc).1
      rw [if_neg (not_not.mpr hversion.symm), if_pos rfl]
    | false => simp

/-! ### A loaded configuration -/

/-- What loading promises: topology keys, and groups that exist. -/
structure CompiledTopologyConfig.WellFormed (config : CompiledTopologyConfig) : Prop where
  hostnameTags : ∀ r ∈ config.hostnameRules, ∀ e ∈ r.tags.entries, isTopologyKey e.1 = true
  captureGroups : ∀ r ∈ config.hostnameRules, ∀ e ∈ r.tagCaptureGroups.entries,
    isTopologyKey e.1 = true ∧ 1 ≤ e.2 ∧ e.2 ≤ r.pattern.groups
  subnetTags : ∀ r ∈ config.subnetRules, ∀ e ∈ r.tags.entries, isTopologyKey e.1 = true

section

variable {compile : PatternCompiler} {config : TopologyConfig} {compiled : CompiledTopologyConfig}

theorem compileTopologyConfig_eq_ok : compileTopologyConfig compile config = .ok compiled ↔
    List.Forall₂ (fun r c => compileHostnameRule compile r = .ok c) config.val.hostnameRules
        compiled.hostnameRules ∧
      List.Forall₂ (fun r c => compileSubnetRule r = .ok c) config.val.subnetRules
        compiled.subnetRules := by
  unfold compileTopologyConfig
  rw [bind_eq_ok]
  constructor
  · rintro ⟨hostnames, hh, h⟩
    obtain ⟨subnets, hs, h⟩ := bind_eq_ok.mp h
    cases h
    exact ⟨mapM_eq_ok.mp hh, mapM_eq_ok.mp hs⟩
  · rintro ⟨hh, hs⟩
    exact ⟨_, mapM_eq_ok.mpr hh, bind_eq_ok.mpr ⟨_, mapM_eq_ok.mpr hs, rfl⟩⟩

/-- The rules of a valid file pass their own checks, and no two subnets conflict. -/
theorem TopologyFields.errors_eq_nil {c : TopologyFields} : c.errors = [] ↔
    (∀ r ∈ c.hostnameRules, r.errors = []) ∧ (∀ r ∈ c.subnetRules, r.errors = []) ∧
      rejectOverlapping c.subnetRules = .ok () := by
  rw [errors, thenErrors_eq_nil, List.append_eq_nil_iff, itemErrors_eq_nil, itemErrors_eq_nil,
    and_assoc]
  refine and_congr_right' (and_congr_right' ?_)
  cases rejectOverlapping c.subnetRules with
  | ok u => simp
  | error e => simp

theorem wellFormed_of_compile (h : compileTopologyConfig compile config = .ok compiled) :
    compiled.WellFormed := by
  obtain ⟨hhosts, hsubnets⟩ := compileTopologyConfig_eq_ok.mp h
  obtain ⟨hhost, hsubnet, -⟩ := TopologyFields.errors_eq_nil.mp config.valid
  constructor
  · intro c hc
    obtain ⟨r, hr, hok⟩ := exists_of_forall₂_right hhosts hc
    obtain ⟨pattern, -, -, rfl⟩ := compileHostnameRule_eq_ok.mp hok
    exact isTopologyKey_of_topologyTagsErrors (List.append_eq_nil_iff.mp (hhost r hr)).1
  · intro c hc e he
    obtain ⟨r, hr, hok⟩ := exists_of_forall₂_right hhosts hc
    obtain ⟨pattern, -, hgroups, rfl⟩ := compileHostnameRule_eq_ok.mp hok
    obtain ⟨hkey, hpos⟩ := captureGroup_of_errors (List.append_eq_nil_iff.mp (hhost r hr)).2 e he
    exact ⟨hkey, hpos, hgroups e he⟩
  · intro c hc
    obtain ⟨r, hr, hok⟩ := exists_of_forall₂_right hsubnets hc
    obtain ⟨network, -, rfl⟩ := compileSubnetRule_eq_ok.mp hok
    exact isTopologyKey_of_topologyTagsErrors (hsubnet r hr)

end

/-! ### Exactness -/

section

variable {config : CompiledTopologyConfig} {event : EventData}

theorem mem_captures {n : ℕ} {m : Match n} {groups : List (String × ℤ)} {e : String × String}
    (h : e ∈ captures m groups) : ∃ i, (e.1, i) ∈ groups := by
  obtain ⟨g, hg, he⟩ := List.mem_filterMap.mp h
  obtain ⟨value, -, he⟩ := Option.bind_eq_some_iff.mp he
  split_ifs at he
  cases he
  exact ⟨g.2, hg⟩

/-- A rule with topology keys is applied exactly. -/
theorem exact_enrichmentResult {a : Assignment}
    (hliterals : ∀ e ∈ a.literals, isTopologyKey e.1 = true)
    (hcaptures : ∀ e ∈ a.captures, isTopologyKey e.1 = true) :
    Exact event (some a) (enrichmentResult event a.ruleId a.ruleName a.matchSource
      (appliedTags event a.literals a.captures)) := by
  have htags := appliedTags_newTags event a.literals a.captures
  constructor
  · rfl
  · intro k hk
    have hfree : ∀ l : List (String × String), (∀ e ∈ l, isTopologyKey e.1 = true) →
        getItem k l.reverse = none := by
      intro l hl
      rw [getItem_eq_none]
      intro hmem
      obtain ⟨e, he, rfl⟩ := List.mem_map.mp hmem
      rw [hl e (List.mem_reverse.mp he)] at hk
      cases hk
    show getItem k (appliedTags event a.literals a.captures).newTags.entries = _
    rw [htags, getItem_setItems, getItem_setItems, hfree _ hcaptures, hfree _ hliterals]
    rfl
  · nofun
  · rintro a ⟨⟩
    exact ⟨htags, _, rfl, rfl, rfl, rfl, (tracks_appliedTags event a.literals a.captures).faithful⟩

theorem exact_nothing (event : EventData) : Exact event none ⟨event, []⟩ :=
  ⟨rfl, fun _ _ => rfl, fun _ => ⟨rfl, rfl⟩, nofun⟩

theorem enrich_exact (h : config.WellFormed) :
    ∃ result assignment, enrich config event = .ok result ∧ Assigns config event assignment ∧
      Exact event assignment result := by
  unfold enrich
  cases hhost : firstHostnameMatch event.host config.hostnameRules with
  | some found =>
    obtain ⟨rule, m⟩ := found
    obtain ⟨hfound, before, after, hsplit, hfirst⟩ := firstHostnameMatch_eq_some hhost
    have hmem : rule ∈ config.hostnameRules := hsplit ▸ by simp
    have hgroups := h.captureGroups rule hmem
    refine ⟨_, _, applyHostnameRule_eq m fun e he => (hgroups e he).2,
      .hostname hsplit hfirst hfound, exact_enrichmentResult (h.hostnameTags rule hmem) ?_⟩
    intro e he
    obtain ⟨i, hi⟩ := mem_captures he
    exact (hgroups _ hi).1
  | none =>
    have hunmatched := firstHostnameMatch_eq_none.mp hhost
    cases hip : event.ipAddress with
    | none =>
      exact ⟨_, none, rfl, .nothing hunmatched (by rw [hip]; nofun), exact_nothing event⟩
    | some text =>
      dsimp only
      cases hparsed : ipAddress text with
      | none =>
        refine ⟨_, none, rfl, .nothing hunmatched ?_, exact_nothing event⟩
        rintro t ht addr haddr
        rw [hip] at ht
        cases ht
        rw [hparsed] at haddr
        cases haddr
      | some addr =>
        dsimp only
        rw [firstSubnet_eq_find?]
        cases hfind : config.subnetRules.find? fun r => r.network.contains addr with
        | none =>
          refine ⟨_, none, rfl, .nothing hunmatched ?_, exact_nothing event⟩
          rintro t ht addr' haddr r hr
          rw [hip] at ht
          cases ht
          rw [hparsed] at haddr
          cases haddr
          simpa using List.find?_eq_none.mp hfind r hr
        | some rule =>
          obtain ⟨hfound, before, after, hsplit, hfirst⟩ := List.find?_eq_some_iff_append.mp hfind
          have hmem : rule ∈ config.subnetRules := hsplit ▸ by simp
          have hfree : ∀ r ∈ before, r.network.contains addr = false := by simpa using hfirst
          refine ⟨_, _, rfl, .subnet hunmatched hip hparsed hsplit hfree hfound, ?_⟩
          rw [applySubnetRule_eq]
          exact exact_enrichmentResult (h.subnetTags rule hmem) nofun

/-- **Enrichment.**  With every configuration that loads and for every event: no group is missing,
the rule that applies is the first one, and what it gives is written exactly and reported so. -/
theorem enrichment_exact {compile : PatternCompiler} {data : Option TopologyFields}
    (hload : loadTopologyConfig compile data = .ok config) (event : EventData) :
    ∃ result assignment, enrich config event = .ok result ∧ Assigns config event assignment ∧
      Exact event assignment result := by
  obtain ⟨fields, -, hcompile⟩ := bind_eq_ok.mp hload
  exact enrich_exact (wellFormed_of_compile hcompile)

end

/-! ### Overlapping subnets -/

theorem tags_eq_comm (a b : Items String String) : a.eq b = b.eq a := by
  rw [Bool.eq_iff_iff, Items.eq_iff, Items.eq_iff]
  exact ⟨fun h k => (h k).symm, fun h k => (h k).symm⟩

theorem conflicting_comm (a b : SubnetTopologyRule × IPNetwork) :
    conflicting a b = conflicting b a := by
  rw [conflicting, conflicting, IPNetwork.overlaps_comm, tags_eq_comm]
  simp only [eq_comm]

theorem conflicting_self (a : SubnetTopologyRule × IPNetwork) : conflicting a a = false := by
  have hself : a.1.tags.eq a.1.tags = true := Items.eq_iff.mpr fun _ => rfl
  simp [conflicting, hself]

theorem firstConflict_eq_none {l : List (SubnetTopologyRule × IPNetwork)} :
    firstConflict l = none ↔ l.Pairwise fun a b => conflicting a b = false := by
  induction l with
  | nil => simp [firstConflict]
  | cons a l ih =>
    rw [firstConflict, List.pairwise_cons, ← ih]
    cases hfind : l.find? (conflicting a) with
    | none =>
      have hfree : ∀ b ∈ l, conflicting a b = false := by
        simpa using List.find?_eq_none.mp hfind
      exact ⟨fun h => ⟨hfree, h⟩, fun h => h.2⟩
    | some b =>
      constructor
      · nofun
      · rintro ⟨hfree, -⟩
        have hb : conflicting a b = true := List.find?_some hfind
        rw [hfree b (List.mem_of_find?_eq_some hfind)] at hb
        cases hb

theorem rejectOverlapping_eq_ok {rules : List SubnetTopologyRule} :
    rejectOverlapping rules = .ok () ↔ ∃ subnets, rules.mapM parseSubnet = .ok subnets ∧
      subnets.Pairwise fun a b => conflicting a b = false := by
  unfold rejectOverlapping
  rw [bind_eq_ok]
  refine exists_congr fun subnets => and_congr_right' ?_
  rw [← firstConflict_eq_none]
  cases firstConflict subnets with
  | none => simp
  | some p => simp

section

variable {rules rules' : List SubnetTopologyRule}

/-- Rearranged rules are accepted as well. -/
theorem rejectOverlapping_perm (hperm : rules'.Perm rules) (h : rejectOverlapping rules = .ok ()) :
    rejectOverlapping rules' = .ok () := by
  obtain ⟨subnets, hparse, hpair⟩ := rejectOverlapping_eq_ok.mp h
  obtain ⟨subnets', hparse', hsubnets⟩ := mapM_perm hperm hparse
  refine rejectOverlapping_eq_ok.mpr ⟨subnets', hparse', ?_⟩
  exact (hsubnets.pairwise_iff fun {a b} hab => (conflicting_comm b a).trans hab).mpr hpair

/-- Accepted rules that hold one address give the same tags: their networks overlap. -/
theorem tags_eq_of_contains (h : rejectOverlapping rules = .ok ()) {a b : SubnetTopologyRule}
    (ha : a ∈ rules) (hb : b ∈ rules) {m n : IPNetwork} (hm : ipNetwork a.subnet = some m)
    (hn : ipNetwork b.subnet = some n) {addr : IPAddress} (hma : m.contains addr = true)
    (hnb : n.contains addr = true) : a.tags.eq b.tags = true := by
  obtain ⟨subnets, hparse, hpair⟩ := rejectOverlapping_eq_ok.mp h
  have hmem : ∀ {r : SubnetTopologyRule} {k : IPNetwork}, r ∈ rules → ipNetwork r.subnet = some k →
      (r, k) ∈ subnets := by
    intro r k hr hk
    obtain ⟨p, hp, hparsed⟩ := exists_of_forall₂_left (mapM_eq_ok.mp hparse) hr
    obtain ⟨k', hk', rfl⟩ := Option.map_eq_some_iff.mp (orThrow_eq_ok.mp hparsed)
    rw [hk] at hk'
    cases hk'
    exact hp
  have : Std.Symm fun x y : SubnetTopologyRule × IPNetwork => conflicting x y = false :=
    ⟨fun x y hxy => (conflicting_comm y x).trans hxy⟩
  have hfree : conflicting (a, m) (b, n) = false :=
    List.Pairwise.forall_of_forall (fun x _ => conflicting_self x) hpair (hmem ha hm) (hmem hb hn)
  obtain ⟨hversion, hoverlaps⟩ := IPNetwork.overlaps_of_contains hma hnb
  simpa [conflicting, hversion, hoverlaps] using hfree

end

/-! ### The order of the subnet rules -/

theorem getItem_reverse (d : Items String String) (k : String) :
    getItem k d.entries.reverse = d.get k := by
  refine Option.ext fun v => ?_
  have hnodup : (d.entries.reverse.map Prod.fst).Nodup := by
    rw [List.map_reverse]
    exact List.nodup_reverse.mpr d.nodup
  rw [getItem_eq_some hnodup, Items.get_eq_some, List.mem_reverse]

theorem applySubnetRule_tags (event : EventData) (rule : CompiledSubnetRule) (k : String) :
    (applySubnetRule event rule).event.tags.get k = (rule.tags.get k).or (event.tags.get k) := by
  rw [applySubnetRule_eq]
  show getItem k (appliedTags event rule.tags.entries []).newTags.entries = _
  rw [appliedTags_newTags, getItem_setItems, getItem_setItems, getItem_reverse]
  rfl

/-- The tags when the subnet rules are reached. -/
theorem enrich_subnet {config config' : CompiledTopologyConfig} {event : EventData}
    {result : EnrichmentResult} (hhosts : config'.hostnameRules = config.hostnameRules)
    (hperm : config'.subnetRules.Perm config.subnetRules)
    (hsame : ∀ a ∈ config.subnetRules, ∀ b ∈ config.subnetRules, ∀ addr,
      a.network.contains addr = true → b.network.contains addr = true → a.tags.eq b.tags = true)
    (h : enrich config event = .ok result) :
    ∃ result', enrich config' event = .ok result' ∧
      result'.event.tags.eq result.event.tags = true := by
  have hrefl : ∀ r : EnrichmentResult, r.event.tags.eq r.event.tags = true :=
    fun r => Items.eq_iff.mpr fun _ => rfl
  unfold enrich at h ⊢
  rw [hhosts]
  cases hhost : firstHostnameMatch event.host config.hostnameRules with
  | some found =>
    rw [hhost] at h
    exact ⟨result, h, hrefl result⟩
  | none =>
    rw [hhost] at h
    dsimp only at h ⊢
    cases hip : event.ipAddress with
    | none =>
      rw [hip] at h
      exact ⟨result, h, hrefl result⟩
    | some text =>
      rw [hip] at h
      dsimp only at h ⊢
      cases hparsed : ipAddress text with
      | none =>
        rw [hparsed] at h
        exact ⟨result, h, hrefl result⟩
      | some addr =>
        rw [hparsed] at h
        dsimp only at h ⊢
        rw [firstSubnet_eq_find?] at h ⊢
        cases hfind : config.subnetRules.find? fun r => r.network.contains addr with
        | none =>
          have hfind' : (config'.subnetRules.find? fun r => r.network.contains addr) = none := by
            rw [List.find?_eq_none] at hfind ⊢
            exact fun r hr => hfind r (hperm.mem_iff.mp hr)
          rw [hfind] at h
          rw [hfind']
          exact ⟨result, h, hrefl result⟩
        | some a =>
          have ha : a.network.contains addr = true := by simpa using List.find?_some hfind
          have hamem := List.mem_of_find?_eq_some hfind
          cases hfind' : config'.subnetRules.find? fun r => r.network.contains addr with
          | none =>
            exact absurd ha (List.find?_eq_none.mp hfind' a (hperm.mem_iff.mpr hamem))
          | some b =>
            have hb : b.network.contains addr = true := by simpa using List.find?_some hfind'
            have hbmem := hperm.mem_iff.mp (List.mem_of_find?_eq_some hfind')
            rw [hfind] at h
            cases h
            refine ⟨_, rfl, Items.eq_iff.mpr fun k => ?_⟩
            rw [applySubnetRule_tags, applySubnetRule_tags,
              Items.eq_iff.mp (hsame b hbmem a hamem addr hb ha)]

/-! ### A sample file -/

/-- `(db)-(.*)`. -/
def databasePattern : Pattern where
  groups := 2
  «match» host :=
    if "db-".toList <+: host.toList then
      let rest := (host.toList.drop 3).takeWhile fun c => c ≠ '\n'
      some ⟨"db-" ++ String.ofList rest, fun i => some (if i = 0 then "db" else String.ofList rest)⟩
    else none

/-- A hostname rule, and nested networks of which one is written with host bits. -/
def sampleTopology : TopologyFields where
  hostnameRules := [⟨"h1", "databases", "(db)-(.*)",
    ⟨[("topology.tier", "database"), ("topology.unit", "none")], by decide⟩,
    ⟨[("topology.unit", 2)], by decide⟩⟩]
  subnetRules := [
    ⟨"s1", "site", "10.0.0.0/8", ⟨[("topology.site", "north")], by decide⟩⟩,
    ⟨"s2", "rack", "10.1.2.3/255.255.0.0", ⟨[("topology.site", "north")], by decide⟩⟩,
    ⟨"s3", "lab", "2001:db8::1/32", ⟨[("topology.site", "lab")], by decide⟩⟩]

theorem sampleTopology_valid : sampleTopology.errors = [] := by
  have h : sampleTopology.errors.isEmpty = true := by decide +kernel
  exact List.isEmpty_iff.mp h

def topologyCompiler : PatternCompiler := fun p => if p = "(db)-(.*)" then some databasePattern else none

theorem enrichment_exact_sample : ∃ config,
    loadTopologyConfig topologyCompiler (some sampleTopology) = .ok config ∧
      ∀ event, ∃ result assignment, enrich config event = .ok result ∧
        Assigns config event assignment ∧ Exact event assignment result := by
  have hok : (loadTopologyConfig topologyCompiler (some sampleTopology)).isOk = true := by
    decide +kernel
  cases hload : loadTopologyConfig topologyCompiler (some sampleTopology) with
  | error e =>
    rw [hload] at hok
    cases hok
  | ok config => exact ⟨config, rfl, enrichment_exact hload⟩

/-- **Subnet order.**  Accepted subnet rules that hold one address give equal tags, however many
there are, and with the rules in any other order the file is accepted and enriches every event with
the same tags. -/
theorem subnet_order_irrelevant (config : TopologyConfig) {rules : List SubnetTopologyRule}
    (hperm : rules.Perm config.val.subnetRules) :
    (∀ a ∈ config.val.subnetRules, ∀ b ∈ config.val.subnetRules, ∀ m n addr,
      ipNetwork a.subnet = some m → ipNetwork b.subnet = some n → m.contains addr = true →
        n.contains addr = true → ∀ k, a.tags.get k = b.tags.get k) ∧
    ∃ config' : TopologyConfig, config'.val = { config.val with subnetRules := rules } ∧
      ∀ compile compiled, compileTopologyConfig compile config = .ok compiled →
        ∃ compiled', compileTopologyConfig compile config' = .ok compiled' ∧
          ∀ event result, enrich compiled event = .ok result →
            ∃ result', enrich compiled' event = .ok result' ∧
              ∀ k, result'.event.tags.get k = result.event.tags.get k := by
  obtain ⟨hhost, hsubnet, hreject⟩ := TopologyFields.errors_eq_nil.mp config.valid
  refine ⟨fun a ha b hb m n addr hm hn hma hnb =>
    Items.eq_iff.mp (tags_eq_of_contains hreject ha hb hm hn hma hnb), ?_⟩
  refine ⟨⟨{ config.val with subnetRules := rules }, TopologyFields.errors_eq_nil.mpr
    ⟨hhost, fun r hr => hsubnet r (hperm.mem_iff.mp hr), rejectOverlapping_perm hperm hreject⟩⟩,
    rfl, ?_⟩
  intro compile compiled hcompile
  obtain ⟨hhosts, hsubnets⟩ := compileTopologyConfig_eq_ok.mp hcompile
  obtain ⟨subnets', hmap, hcompiled⟩ := mapM_perm hperm (mapM_eq_ok.mpr hsubnets)
  refine ⟨⟨compiled.hostnameRules, subnets'⟩,
    compileTopologyConfig_eq_ok.mpr ⟨hhosts, mapM_eq_ok.mp hmap⟩, ?_⟩
  intro event result hresult
  have hsame : ∀ a ∈ compiled.subnetRules, ∀ b ∈ compiled.subnetRules, ∀ addr,
      a.network.contains addr = true → b.network.contains addr = true →
        a.tags.eq b.tags = true := by
    intro a ha b hb addr haddr hbddr
    obtain ⟨r, hr, hra⟩ := exists_of_forall₂_right hsubnets ha
    obtain ⟨m, hm, rfl⟩ := compileSubnetRule_eq_ok.mp hra
    obtain ⟨r', hr', hrb⟩ := exists_of_forall₂_right hsubnets hb
    obtain ⟨n, hn, rfl⟩ := compileSubnetRule_eq_ok.mp hrb
    exact tags_eq_of_contains hreject hr hr' hm hn haddr hbddr
  obtain ⟨result', hok, heq⟩ :=
    @enrich_subnet compiled ⟨compiled.hostnameRules, subnets'⟩ event result rfl hcompiled hsame hresult
  exact ⟨result', hok, Items.eq_iff.mp heq⟩

theorem subnet_order_irrelevant_sample :
    ∃ config' : TopologyConfig,
      config'.val = { sampleTopology with subnetRules := sampleTopology.subnetRules.reverse } :=
  (subnet_order_irrelevant ⟨sampleTopology, sampleTopology_valid⟩
    (List.reverse_perm sampleTopology.subnetRules)).2.imp fun _ h => h.1

end Correlia
