import Correlia.AllOrNothing
import Correlia.Precedence
import Correlia.Scripts.MigratePlugins

/-!
# PluginMigration — the plugins file of a migration

A migration that succeeds leaves a plugins file in which no text holds a placeholder, with an entry
for each output of the source, and a rules file whose actions name these entries.
-/

namespace Correlia

open Lib

/-! ### Values without placeholders -/

/-- Induction on a value, with the members of a container at hand. -/
@[elab_as_elim] theorem yaml_induction {P : Yaml → Prop} (null : P .null) (bool : ∀ b, P (.bool b))
    (int : ∀ n, P (.int n)) (str : ∀ s, P (.str s)) (other : ∀ text, P (.other text))
    (seq : ∀ items, (∀ v ∈ items, P v) → P (.seq items))
    (map : ∀ entries, (∀ e ∈ entries, P e.2) → P (.map entries)) (v : Yaml) : P v := by
  refine Yaml.rec (motive_1 := P) (motive_2 := fun l => ∀ v ∈ l, P v)
    (motive_3 := fun l => ∀ e ∈ l, P e.2) (motive_4 := fun e => P e.2) null bool int str other
    seq map ?_ ?_ ?_ ?_ ?_ v
  · simp
  · exact fun v l hv hl => List.forall_mem_cons.mpr ⟨hv, hl⟩
  · simp
  · exact fun e l he hl => List.forall_mem_cons.mpr ⟨he, hl⟩
  · exact fun k v hv => hv

/-- A value that can be written anywhere. -/
def PlaceholderFree (v : Yaml) : Prop := ∀ location, unsupportedPlaceholders location v = []

theorem placeholdersOfItems_eq_nil {items : List Yaml} {location : String} {idx : ℕ} :
    placeholdersOfItems location idx items = [] ↔
      ∀ i (h : i < items.length),
        unsupportedPlaceholders (location ++ "[" ++ natText (idx + i) ++ "]") items[i] = [] := by
  induction items generalizing idx with
  | nil => exact ⟨fun _ i hi => absurd hi (Nat.not_lt_zero i), fun _ => rfl⟩
  | cons item items ih =>
    rw [placeholdersOfItems, List.append_eq_nil_iff, ih]
    constructor
    · rintro ⟨hitem, hitems⟩ i hi
      cases i with
      | zero => exact hitem
      | succ i =>
        have hidx : idx + (i + 1) = idx + 1 + i := by omega
        rw [hidx]
        exact hitems i (Nat.lt_of_succ_lt_succ hi)
    · intro h
      refine ⟨h 0 (Nat.succ_pos _), fun i hi => ?_⟩
      have hidx : idx + 1 + i = idx + (i + 1) := by omega
      rw [hidx]
      exact h (i + 1) (Nat.succ_lt_succ hi)

theorem placeholdersOfEntries_eq_nil {entries : YamlMap} {location : String} :
    placeholdersOfEntries location entries = [] ↔
      ∀ e ∈ entries, unsupportedPlaceholders (location ++ "." ++ e.1.text) e.2 = [] := by
  induction entries with
  | nil => simp [placeholdersOfEntries]
  | cons e entries ih =>
    rw [placeholdersOfEntries, List.append_eq_nil_iff, ih, List.forall_mem_cons]

theorem plain_seq {items : List Yaml} (h : ∀ v ∈ items, PlaceholderFree v) :
    PlaceholderFree (.seq items) := by
  intro location
  rw [unsupportedPlaceholders, placeholdersOfItems_eq_nil]
  exact fun i hi => h _ (List.getElem_mem hi) _

theorem plain_map {entries : YamlMap} (henv : getKey "env" entries = none)
    (h : ∀ e ∈ entries, PlaceholderFree e.2) : PlaceholderFree (.map entries) := by
  intro location
  rw [unsupportedPlaceholders, henv, if_neg (by simp), placeholdersOfEntries_eq_nil]
  exact fun e he => h e he _

/-- Where a value stands does not matter. -/
theorem plain_of_eq_nil {v : Yaml} {location : String}
    (h : unsupportedPlaceholders location v = []) : PlaceholderFree v := by
  induction v using yaml_induction generalizing location with
  | str s =>
    intro location'
    rw [unsupportedPlaceholders] at h ⊢
    split_ifs at h ⊢
    rfl
  | seq items ih =>
    rw [unsupportedPlaceholders, placeholdersOfItems_eq_nil] at h
    refine plain_seq fun v hv => ?_
    obtain ⟨i, hi, rfl⟩ := List.getElem_of_mem hv
    exact ih _ hv (h i hi)
  | map entries ih =>
    rw [unsupportedPlaceholders] at h
    split_ifs at h with henv
    rw [placeholdersOfEntries_eq_nil] at h
    exact plain_map (by simpa using henv) fun e he => ih e he (h e he)
  | _ => exact fun _ => rfl

theorem placeholderIssues_eq_nil {location : String} {v : Yaml} :
    placeholderIssues location v = [] ↔ PlaceholderFree v := by
  rw [placeholderIssues, List.map_eq_nil_iff]
  exact ⟨plain_of_eq_nil, fun h => h location⟩

/-! ### One output -/

theorem getKey_yamlMap (k : String) (l : List (String × Yaml)) :
    getKey k (yamlMap l).entries = getItem k l := by
  induction l with
  | nil => rfl
  | cons e l ih =>
    show getItem _ (_ :: (yamlMap l).entries) = _
    rw [getItem_cons, getItem_cons]
    simp only [YamlKey.str.injEq]
    split_ifs
    · rfl
    · exact ih

/-- Where each option comes from, and its default. -/
def optionSources : List (String × String × Option Yaml) :=
  [("host", "smtp_host", some (.str "localhost")), ("port", "smtp_port", some (.int 587)),
    ("from_address", "from_address", some (.str "correlia@localhost")),
    ("to_addresses", "to_addresses", some (.seq [.str "ops@localhost"])),
    ("subject_prefix", "subject_prefix", none), ("start_tls", "use_tls", some (.bool true))]

/-- What an output becomes: an email output under its name, with the options of its source and the
defaults in their place and no others under a string key, where nothing of the source's options is
left out. -/
def OutputMigrated (e : YamlKey × Yaml) (g : Yaml) : Prop :=
  ∃ output config options : YamlMap, e.2 = .map output ∧
    (getKey "config" output).getD (.map []) = .map config ∧
    g = yamlMap [("name", keyValue e.1), ("plugin_type", .str "email"),
      ("class_path", .str emailTargetClass), ("options", .map options)] ∧
    (∀ key, getKey key options =
      (getItem key optionSources).bind fun f => (getKey f.1 config).or f.2) ∧
    ∀ o ∈ config, ∃ f ∈ optionSources, o.1 = .str f.2.1

/-- A clean option of an output. -/
structure CleanOption (o : YamlKey × Yaml) : Prop where
  key : ∃ f ∈ optionSources, o.1 = .str f.2.1
  plain : PlaceholderFree o.2
  useTls : o.1 = .str "use_tls" → ∃ b, o.2 = .bool b

theorem cleanOption_of_preflight {loc : String} {o : YamlKey × Yaml}
    (h : preflightOption loc o = []) : CleanOption o := by
  obtain ⟨key, value⟩ := o
  cases key with
  | other text => cases h
  | str key =>
    simp only [preflightOption] at h
    split_ifs at h with hcredential hallowed htls
    have hkey : ∃ f ∈ optionSources, YamlKey.str key = .str f.2.1 := by
      have hmem : key ∈ optionSources.map fun f => f.2.1 := hallowed
      obtain ⟨f, hf, rfl⟩ := List.mem_map.mp hmem
      exact ⟨f, hf, rfl⟩
    refine ⟨hkey, placeholderIssues_eq_nil.mp h, fun huse => ?_⟩
    have hname : key = "use_tls" := YamlKey.str.inj huse
    cases value with
    | bool b => exact ⟨b, rfl⟩
    | _ => exact absurd ⟨hname, rfl⟩ htls

theorem getKey_emailOptions {config : YamlMap} {startTls : Bool}
    (htls : (getKey "use_tls" config).getD (.bool true) = .bool startTls) (key : String) :
    getKey key (emailOptions config startTls).entries =
      (getItem key optionSources).bind fun f => (getKey f.1 config).or f.2 := by
  have hor : ∀ (o : Option Yaml) (v : Yaml), o.or (some v) = some (o.getD v) := by
    intro o v
    cases o <;> rfl
  rw [emailOptions, getKey_yamlMap]
  cases hgiven : getKey "subject_prefix" config with
  | none =>
    simp only [optionSources, List.cons_append, List.nil_append, List.append_nil, getItem_cons,
      getItem_nil]
    split_ifs <;> simp_all
    rename_i hstart hsubject
    exact absurd (hstart.trans hsubject.symm) (by decide)
  | some subjectPrefix =>
    simp only [optionSources, List.cons_append, List.nil_append, getItem_cons, getItem_nil]
    split_ifs <;> simp_all

section

variable {calls : MigrationCalls} {name : YamlKey} {output config : YamlMap} {startTls : Bool}

theorem plain_str {s : String} (henvVar : hasEnvVarPlaceholder s = false)
    (henvKey : hasEnvKeyPlaceholder s = false) : PlaceholderFree (.str s) := by
  intro location
  rw [unsupportedPlaceholders, henvVar, henvKey]
  rfl

theorem plain_emailOptions (hplain : ∀ o ∈ config, PlaceholderFree o.2)
    (htls : (getKey "use_tls" config).getD (.bool true) = .bool startTls) :
    PlaceholderFree (emailOptions config startTls) := by
  have hget : ∀ key v, getKey key config = some v → PlaceholderFree v :=
    fun key v h => hplain _ (mem_of_getItem h)
  have hgetD : ∀ key d, PlaceholderFree d → PlaceholderFree ((getKey key config).getD d) := by
    intro key d hd
    cases h : getKey key config with
    | none => exact hd
    | some v => exact hget key v h
  refine plain_map ?_ fun e he => ?_
  · exact (getKey_emailOptions htls "env").trans (by rfl)
  · obtain ⟨field, hfield, rfl⟩ := List.mem_map.mp he
    rcases List.mem_append.mp hfield with he | he
    · rcases List.mem_append.mp he with he | he
      · simp only [List.mem_cons, List.not_mem_nil, or_false] at he
        rcases he with rfl | rfl | rfl | rfl
        · exact hgetD _ _ (plain_str (by decide) (by decide))
        · exact hgetD _ _ fun _ => rfl
        · exact hgetD _ _ (plain_str (by decide) (by decide))
        · refine hgetD _ _ (plain_seq fun v hv => ?_)
          rw [List.mem_singleton.mp hv]
          exact plain_str (by decide) (by decide)
      · cases hgiven : getKey "subject_prefix" config with
        | none =>
          rw [hgiven] at he
          cases he
        | some subjectPrefix =>
          rw [hgiven] at he
          rw [List.mem_singleton.mp he]
          exact hget _ _ hgiven
    · rw [List.mem_singleton.mp he]
      exact fun _ => rfl

theorem transformOutput_clean (hname : PlaceholderFree (keyValue name))
    (hconfig : (getKey "config" output).getD (.map []) = .map config)
    (hplain : ∀ o ∈ config, PlaceholderFree o.2)
    (htls : getKey "use_tls" config = none ∧ startTls = true ∨
      getKey "use_tls" config = some (.bool startTls)) :
    transformOutput (name, output) = .ok (yamlMap [("name", keyValue name),
      ("plugin_type", .str "email"), ("class_path", .str emailTargetClass),
      ("options", emailOptions config startTls)]) := by
  have hcarries : config.any carriesPlaceholder = false := by
    refine List.any_eq_false.mpr fun o ho => ?_
    unfold carriesPlaceholder
    split
    · simp [hplain o ho _]
    · simp
  unfold transformOutput
  simp only [hname "name", hconfig, List.isEmpty_nil, Bool.not_true, Bool.false_eq_true, if_false]
  refine bind_eq_ok.mpr ⟨config, rfl, ?_⟩
  rw [hcarries]
  rcases htls with ⟨htls, rfl⟩ | htls
  · rw [htls]
    rfl
  · rw [htls]
    rfl

/-- What a clean output becomes. -/
theorem output_of_preflight {e : YamlKey × Yaml} (h : preflightOutput calls e = []) :
    ∃ output g, e.2 = .map output ∧ transformOutput (e.1, output) = .ok g ∧
      OutputMigrated e g ∧ PlaceholderFree g := by
  obtain ⟨name, value⟩ := e
  unfold preflightOutput at h
  obtain ⟨hname, hvalue⟩ := List.append_eq_nil_iff.mp h
  have hname := placeholderIssues_eq_nil.mp hname
  cases value with
  | map output =>
    obtain ⟨-, hemail⟩ := List.append_eq_nil_iff.mp hvalue
    simp only [preflightEmail] at hemail
    split_ifs at hemail
    split at hemail
    · rename_i config hconfig
      have hclean : ∀ o ∈ config, CleanOption o := fun o ho =>
        cleanOption_of_preflight (List.flatMap_eq_nil_iff.mp hemail o ho)
      have hplain : ∀ o ∈ config, PlaceholderFree o.2 := fun o ho => (hclean o ho).plain
      have htls : ∃ startTls, getKey "use_tls" config = none ∧ startTls = true ∨
          getKey "use_tls" config = some (.bool startTls) := by
        cases hget : getKey "use_tls" config with
        | none => exact ⟨true, .inl ⟨rfl, rfl⟩⟩
        | some v =>
          obtain ⟨b, rfl⟩ := (hclean _ (mem_of_getItem hget)).useTls rfl
          exact ⟨b, .inr rfl⟩
      obtain ⟨startTls, htls⟩ := htls
      have hdefault : (getKey "use_tls" config).getD (.bool true) = .bool startTls := by
        rcases htls with ⟨htls, rfl⟩ | htls <;> rw [htls] <;> rfl
      refine ⟨output, _, rfl, transformOutput_clean hname hconfig hplain htls, ?_, ?_⟩
      · exact ⟨output, config, (emailOptions config startTls).entries, rfl, hconfig, rfl,
          getKey_emailOptions hdefault, fun o ho => (hclean o ho).key⟩
      · refine plain_map (by rfl) fun e he => ?_
        simp only [List.map_cons, List.map_nil, List.mem_cons, List.not_mem_nil, or_false] at he
        rcases he with rfl | rfl | rfl | rfl
        · exact hname
        · exact plain_str (by decide) (by decide)
        · exact plain_str (by decide) (by decide)
        · exact plain_emailOptions hplain hdefault
    · cases hemail
  | _ => cases hvalue

/-! ### The plugins file -/

/-- The outputs of a source document. -/
def sourceOutputs (plugins : Yaml) : YamlMap :=
  ((getKey "outputs" plugins.entries).getD (.map [])).entries

theorem outputs_of_preflight {outputs : YamlMap}
    (h : ∀ e ∈ outputs, preflightOutput calls e = []) :
    ∃ generated, (outputMaps outputs).mapM transformOutput = .ok generated ∧
      List.Forall₂ OutputMigrated outputs generated ∧ (∀ g ∈ generated, PlaceholderFree g) ∧
      (outputMaps outputs).map Prod.fst = outputs.map Prod.fst := by
  induction outputs with
  | nil => exact ⟨[], rfl, .nil, by simp, rfl⟩
  | cons e outputs ih =>
    obtain ⟨he, houtputs⟩ := List.forall_mem_cons.mp h
    obtain ⟨output, g, hvalue, hg, hmigrated, hplain⟩ := output_of_preflight he
    obtain ⟨generated, hgenerated, hall, hplains, hnames⟩ := ih houtputs
    have hmaps : outputMaps (e :: outputs) = (e.1, output) :: outputMaps outputs := by
      rw [outputMaps, List.filterMap_cons, hvalue]
      rfl
    refine ⟨g :: generated, ?_, .cons hmigrated hall,
      List.forall_mem_cons.mpr ⟨hplain, hplains⟩, ?_⟩
    · rw [hmaps, List.mapM_cons]
      exact bind_eq_ok.mpr ⟨g, hg, bind_eq_ok.mpr ⟨generated, hgenerated, rfl⟩⟩
    · rw [hmaps, List.map_cons, List.map_cons, hnames]

theorem plugins_of_preflight {plugins : Yaml} (h : preflightPlugins calls plugins = []) :
    ∃ generated, transformPlugins plugins.entries = .ok (yamlMap [("outputs", .seq generated)]) ∧
      List.Forall₂ OutputMigrated (sourceOutputs plugins) generated ∧
      (∀ g ∈ generated, PlaceholderFree g) ∧
      extractOutputNames plugins = (sourceOutputs plugins).map Prod.fst := by
  cases plugins with
  | map raw =>
    obtain ⟨-, houtputs⟩ := List.append_eq_nil_iff.mp h
    split at houtputs
    · rename_i outputs hmap
      obtain ⟨generated, hgenerated, hall, hplain, hnames⟩ :=
        outputs_of_preflight fun e he => List.flatMap_eq_nil_iff.mp houtputs e he
      have hsource : sourceOutputs (.map raw) = outputs := by
        show ((getKey "outputs" raw).getD (.map [])).entries = outputs
        rw [hmap]
        rfl
      refine ⟨generated, ?_, hsource.symm ▸ hall, hplain, ?_⟩
      · show transformPlugins raw = _
        unfold transformPlugins
        rw [hmap]
        exact bind_eq_ok.mpr ⟨outputs, rfl, bind_eq_ok.mpr ⟨generated, hgenerated, rfl⟩⟩
      · show (outputMaps (sourceOutputs (.map raw))).map Prod.fst = _
        rw [hsource, hnames]
    · cases houtputs
  | _ => cases h

/-! ### The actions -/

/-- The list under a key. -/
def itemsUnder (key : String) (v : Yaml) : List Yaml :=
  match getKey key v.entries with
  | some (.seq items) => items
  | _ => []

/-- The names of the outputs of a plugins file. -/
def outputNames (file : Yaml) : List Yaml :=
  (itemsUnder "outputs" file).filterMap fun o => getKey "name" o.entries

/-- The plugins that the actions of a rules file name, of those that have a key `plugin`. -/
def actionPlugins (file : Yaml) : List Yaml :=
  (itemsUnder "rules" file).flatMap fun rule =>
    (itemsUnder "actions" rule).filterMap fun a => getKey "plugin" a.entries

theorem mem_actionObjects {actions : Yaml} {a p : Yaml} (ha : a ∈ actionObjects actions)
    (hp : getKey "plugin" a.entries = some p) :
    ∃ items s, actions = .seq items ∧ .str s ∈ items ∧ p = .str s := by
  cases actions with
  | seq items =>
    obtain ⟨action, haction, hobject⟩ := List.mem_filterMap.mp ha
    cases action with
    | str s =>
      cases hobject
      rw [getKey_yamlMap] at hp
      cases hp
      exact ⟨items, s, rfl, haction, rfl⟩
    | _ => cases hobject
  | _ => cases ha

/-- Where the check reports nothing, the actions that are strings are names of outputs. -/
theorem mem_names_of_check {names : List YamlKey} {sources : List YamlMap} {rule : YamlMap}
    {items : List Yaml} {s : String}
    (h : checkActionPluginsExist names (.seq (sources.map .map)) = []) (hrule : rule ∈ sources)
    (hactions : (getKey "actions" rule).getD (.seq []) = .seq items) (hs : .str s ∈ items) :
    YamlKey.str s ∈ names := by
  obtain ⟨i, hi, rfl⟩ := List.getElem_of_mem hrule
  have hchecked := flatten_mapIdx_eq_nil.mp h i (by rwa [List.length_map])
  rw [List.getElem_map] at hchecked
  simp only [checkActions, hactions] at hchecked
  obtain ⟨j, hj, heq⟩ := List.getElem_of_mem hs
  have hitem := flatten_mapIdx_eq_nil.mp hchecked j hj
  rw [heq] at hitem
  exact of_decide_eq_true (issueUnless_eq_nil.mp hitem)

/-- The actions of a generated rule are those of its rule. -/
theorem actions_transformRule {n : ℕ} {rule : YamlMap} {g : Yaml}
    (h : transformRule calls n rule = .ok g) :
    itemsUnder "actions" g = actionObjects ((getKey "actions" rule).getD (.seq [])) := by
  obtain ⟨_, -, h⟩ := bind_eq_ok.mp h
  obtain ⟨_, -, h⟩ := bind_eq_ok.mp h
  cases h
  rfl

/-- Each generated rule comes from a rule of the source. -/
theorem mem_transformRules {sources : List YamlMap} {generated : List Yaml} {g : Yaml}
    (hclean : ∀ r ∈ sources, CleanRule r)
    (h : transformRules calls (sources.map .map) = .ok generated) (hg : g ∈ generated) :
    ∃ rule ∈ sources, ∃ n, transformRule calls n rule = .ok g := by
  obtain ⟨generated', hgenerated, hlen, hall⟩ := transformRules_clean calls hclean
  rw [h] at hgenerated
  obtain rfl := Except.ok.inj hgenerated
  obtain ⟨i, hi, rfl⟩ := List.getElem_of_mem hg
  have hranked : i < (rankedRules sources).length := hlen ▸ hi
  obtain ⟨g, hget, hrule⟩ := hall i _ (List.getElem?_eq_getElem hranked)
  rw [List.getElem?_eq_getElem hi] at hget
  obtain rfl := Option.some.inj hget
  exact ⟨_, (rankedRules_perm sources).mem_iff.mp (List.getElem_mem hranked), _, hrule⟩

/-- Where the check reports nothing, the generated actions name outputs. -/
theorem actionPlugins_named {names : List YamlKey} {sources : List YamlMap} {generated : List Yaml}
    (hclean : ∀ r ∈ sources, CleanRule r)
    (htransform : transformRules calls (sources.map .map) = .ok generated)
    (hcheck : checkActionPluginsExist names (.seq (sources.map .map)) = []) {p : Yaml}
    (hp : p ∈ actionPlugins (yamlMap [("rules", .seq generated)])) :
    ∃ key ∈ names, p = keyValue key := by
  obtain ⟨g, hg, hp⟩ := List.mem_flatMap.mp hp
  obtain ⟨rule, hrule, n, hgenerated⟩ := mem_transformRules hclean htransform hg
  obtain ⟨a, ha, hp⟩ := List.mem_filterMap.mp hp
  rw [actions_transformRule hgenerated] at ha
  obtain ⟨items, s, hactions, hs, rfl⟩ := mem_actionObjects ha hp
  exact ⟨.str s, mem_names_of_check hcheck hrule hactions hs, rfl⟩

/-! ### A migration -/

/-- What a migration makes of the plugins: an entry for each output, in order, a file in which no
text holds a placeholder, and rules whose actions name entries of the file. -/
structure PluginsMigrated (plugins rulesFile pluginsFile : Yaml) : Prop where
  outputs : List.Forall₂ OutputMigrated (sourceOutputs plugins) (itemsUnder "outputs" pluginsFile)
  plain : PlaceholderFree pluginsFile
  actions : ∀ name ∈ actionPlugins rulesFile, name ∈ outputNames pluginsFile

theorem names_of_migrated {outputs : YamlMap} {generated : List Yaml}
    (h : List.Forall₂ OutputMigrated outputs generated) :
    generated.filterMap (fun o => getKey "name" o.entries) = outputs.map fun e => keyValue e.1 := by
  induction h with
  | nil => rfl
  | cons hmigrated _ ih =>
    obtain ⟨output, config, options, -, -, rfl, -⟩ := hmigrated
    rw [List.filterMap_cons, getKey_yamlMap, ih]
    rfl

theorem plain_outputs {generated : List Yaml} (h : ∀ g ∈ generated, PlaceholderFree g) :
    PlaceholderFree (yamlMap [("outputs", .seq generated)]) := by
  refine plain_map (by rfl) fun e he => ?_
  rw [List.mem_singleton.mp he]
  exact plain_seq h

theorem pluginsMigrated_of_issues {rules topology plugins generated : Yaml} {rulesList : List Yaml}
    (hissues : sourceIssues calls (documentSource calls rules topology plugins generated) = [])
    (hrules : (documentSource calls rules topology plugins generated).rulesList.1 = .seq rulesList)
    {newRules : List Yaml} {file : Yaml}
    (htransform : transformRules calls rulesList = .ok newRules)
    (hfile : transformPlugins plugins.entries = .ok file) :
    PluginsMigrated plugins (yamlMap [("rules", .seq newRules)]) file := by
  simp only [sourceIssues, List.append_eq_nil_iff, documentSource] at hissues
  obtain ⟨⟨⟨-, hpreflight⟩, -⟩, hplugins, hcheck⟩ := hissues
  obtain ⟨outputs, htransformed, hall, hplain, hnames⟩ := plugins_of_preflight hplugins
  rw [hfile] at htransformed
  obtain rfl := Except.ok.inj htransformed
  obtain ⟨sources, hsources, hclean, -⟩ := clean_of_preflightRules hpreflight
  have hlist : Yaml.seq rulesList = .seq (sources.map .map) := hrules.symm.trans hsources
  obtain rfl := Yaml.seq.inj hlist
  have hcheck : checkActionPluginsExist (extractOutputNames plugins)
      (.seq (sources.map .map)) = [] :=
    (congrArg (checkActionPluginsExist (extractOutputNames plugins)) hsources).symm.trans hcheck
  refine ⟨hall, plain_outputs hplain, fun p hp => ?_⟩
  obtain ⟨key, hkey, rfl⟩ := actionPlugins_named hclean htransform hcheck hp
  rw [hnames] at hkey
  obtain ⟨e, he, rfl⟩ := List.mem_map.mp hkey
  have hmem : keyValue e.1 ∈ (sourceOutputs plugins).map fun e => keyValue e.1 :=
    List.mem_map.mpr ⟨e, he, rfl⟩
  rw [← names_of_migrated hall] at hmem
  exact hmem

/-- The plugins and the rules in the output directory are migrated. -/
def MigratedOut (plugins : Yaml) (out : Option (Directory Yaml)) : Prop :=
  ∃ rulesFile pluginsFile, fileIn out .rules = some rulesFile ∧
    fileIn out .plugins = some pluginsFile ∧ PluginsMigrated plugins rulesFile pluginsFile

/-- Up to `_finish`: everything is migrated, or the three files are as they were. -/
theorem migrateDocuments_spec (fails : PublishStep → Bool) (debris : Directory Yaml)
    (out : Option (Directory Yaml)) (rules topology plugins : Yaml) :
    let r := migrateDocuments calls fails debris out rules topology plugins
    (r.failureCode = some .none ∧ MigratedOut plugins r.out) ∨
      (r.failureCode ≠ some .none ∧ ∀ n, fileIn r.out n = fileIn out n) := by
  dsimp only
  unfold migrateDocuments
  dsimp only
  by_cases hissues : (sourceIssues calls (documentSource calls rules topology plugins .null)) = []
  · rw [if_pos (by rw [hissues]; rfl)]
    cases hfile : transformPlugins plugins.entries with
    | error e => exact .inr ⟨by simp, fun _ => rfl⟩
    | ok file =>
      dsimp only
      have hissues : sourceIssues calls (documentSource calls rules topology plugins file) = [] :=
        hissues
      unfold migrate
      dsimp only
      rw [if_pos (by rw [hissues]; rfl)]
      split
      · rename_i rulesList topologyRules hrules htopology
        split
        · rename_i newRules newTopology htransform htransformed
          rcases publish_spec debris fails out
              (generatedFile newRules newTopology file) with ⟨hcode, hfiles⟩ | hfailed
          · exact .inl ⟨hcode, _, _, hfiles .rules, hfiles .plugins,
              pluginsMigrated_of_issues hissues hrules htransform hfile⟩
          · exact .inr hfailed
        · exact .inr ⟨by simp, fun _ => rfl⟩
      · exact .inr ⟨by simp, fun _ => rfl⟩
  · rw [if_neg (by simpa using hissues)]
    unfold migrate
    dsimp only
    rw [if_neg (by simpa using hissues)]
    exact .inr ⟨by simp, fun _ => rfl⟩

end

/-- `_finish` passes the exit code on, unless there is a report that it cannot write. -/
theorem finish_cases (reporting : Reporting) (ok : Bool) (issues : List MigrationIssue)
    (outDir : Option String) (code : MigrationFailureCode) (exitCode : ℕ) :
    let f := finish reporting.now reporting.reportPath reporting.writes ok issues outDir code exitCode
    f.exitCode = exitCode ∨
      (reporting.writes = false ∧ ∃ previous, reporting.reportPath = some previous ∧
        f = ⟨previous, terminalJson false "report_emission" 0 false, 1⟩) := by
  unfold finish
  cases reporting.reportPath with
  | none => exact .inl rfl
  | some previous =>
    cases reporting.writes with
    | true => exact .inl rfl
    | false => exact .inr ⟨rfl, previous, rfl, rfl⟩

/-- **The plugins of a migration.**  A preflight of the plugins that reports nothing lets the
transform go through.  A run that exits with 0 leaves the plugins and the rules migrated; any other
one leaves the three files of the output directory as they were, but for one: where the report alone
cannot be written the migrated files stay, the report file is as it was, and the exit code is 1. -/
theorem migrated_plugins (calls : MigrationCalls) (fails : PublishStep → Bool)
    (debris : Directory Yaml) (stagedIssues : List MigrationIssue) (reporting : Reporting)
    (outDir : String) (out : Option (Directory Yaml)) (rules topology plugins : Yaml) :
    (preflightPlugins calls plugins = [] → ∃ file, transformPlugins plugins.entries = .ok file) ∧
    let r := mainOnDocuments calls fails debris stagedIssues reporting outDir out rules topology
      plugins
    (r.exitCode = some 0 → MigratedOut plugins r.out) ∧
    (r.exitCode ≠ some 0 → (∀ n, fileIn r.out n = fileIn out n) ∨
      (MigratedOut plugins r.out ∧ reporting.writes = false ∧
        ∃ previous, reporting.reportPath = some previous ∧
          r.finished = some ⟨previous, terminalJson false "report_emission" 0 false, 1⟩)) := by
  refine ⟨fun h => ?_, ?_⟩
  · obtain ⟨generated, hgenerated, -⟩ := plugins_of_preflight h
    exact ⟨_, hgenerated⟩
  dsimp only
  have hspec : (_ ∧ MigratedOut plugins
      (migrateDocuments calls fails debris out rules topology plugins).out) ∨ _ :=
    migrateDocuments_spec fails debris out rules topology plugins
  have hout : (mainOnDocuments calls fails debris stagedIssues reporting outDir out rules topology
      plugins).out = (migrateDocuments calls fails debris out rules topology plugins).out := rfl
  rw [hout]
  unfold MainRun.exitCode mainOnDocuments
  dsimp only
  generalize migrateDocuments calls fails debris out rules topology plugins = m at hspec
  rcases hspec with ⟨hcode, hmigrated⟩ | ⟨hcode, hfiles⟩
  · -- promoted: the exit code is 0, or the report could not be written
    refine ⟨fun _ => hmigrated, fun hexit => .inr ⟨hmigrated, ?_⟩⟩
    rw [hcode] at hexit ⊢
    rcases finish_cases reporting true (finalIssues stagedIssues m) (some outDir) .none 0 with
      hzero | ⟨hwrites, previous, hpath, hfinished⟩
    · exact absurd (congrArg some hzero) hexit
    · exact ⟨hwrites, previous, hpath, congrArg some hfinished⟩
  · refine ⟨fun hexit => ?_, fun _ => .inl hfiles⟩
    -- not promoted: `_finish` is given 1
    obtain ⟨f, hf, hzero⟩ := Option.map_eq_some_iff.mp hexit
    obtain ⟨code, hcode', rfl⟩ := Option.map_eq_some_iff.mp hf
    have hnot : decide (code = .none) = false :=
      decide_eq_false fun h => hcode (hcode'.trans (congrArg some h))
    rw [hnot] at hzero
    rcases finish_cases reporting false (finalIssues stagedIssues m) none code 1 with
      hone | ⟨-, previous, -, hfinished⟩
    · exact absurd (hzero.symm.trans hone) (by decide)
    · exact absurd (hzero.symm.trans (congrArg Finished.exitCode hfinished)) Nat.zero_ne_one

end Correlia
