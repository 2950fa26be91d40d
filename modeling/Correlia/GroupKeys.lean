import Correlia.Lib.Delimited
import Correlia.RuleSelection

/-!
# GroupKeys — what a group key tells of its group

The values of a key are free text, joined by `|field=`.  A group-by field that resolves has no `|`
in its name, so each `|field=` is a marker, and a key can be read back exactly when no value contains
one that it stands beside.
-/

namespace Correlia

open Lib

/-- What stands in a key before the value of a field that is not the first. -/
def fieldMarker (field : String) : List Char := '|' :: (field.toList ++ ['='])

/-- The values of the group-by fields, when all resolve. -/
def groupValues (fields : List String) (event : EventData) : Option (List String) :=
  fields.mapM fun field => resolveField field event

/-- The key of these values. -/
def keyOf (fields values : List String) : String :=
  "|".intercalate (List.zipWith (fun field value => field ++ "=" ++ value) fields values)

/-- Of two neighbouring fields no value contains the marker of the second. -/
def ClearValues : (fields values : List String) → Prop
  | _ :: g :: fields, v :: w :: values =>
    ¬ fieldMarker g <:+: v.toList ∧ ¬ fieldMarker g <:+: w.toList ∧
      ClearValues (g :: fields) (w :: values)
  | _, _ => True

/-! ### Keys as joined values -/

section

variable {fields values ws : List String}

/-- The values behind their markers. -/
def markedValues (fields values : List String) : List (List Char × List Char) :=
  List.zipWith (fun g w => (fieldMarker g, w.toList)) fields values

theorem toList_keyOf (f v : String) (h : values.length = fields.length) :
    (keyOf (f :: fields) (v :: values)).toList =
      f.toList ++ '=' :: weave v.toList (markedValues fields values) := by
  induction fields generalizing f v values with
  | nil =>
    cases List.length_eq_zero_iff.mp h
    show (String.intercalate "|" [f ++ "=" ++ v]).toList = _
    simp [markedValues, weave]
  | cons g fields ih =>
    obtain ⟨w, values, rfl⟩ := List.exists_cons_of_length_eq_add_one h
    have hrest := ih g w (Nat.succ.inj h)
    have hcons : keyOf (f :: g :: fields) (v :: w :: values) =
        f ++ "=" ++ v ++ "|" ++ keyOf (g :: fields) (w :: values) := by
      simp only [keyOf, List.zipWith_cons_cons, String.intercalate_cons_cons]
    rw [hcons]
    simp [hrest, markedValues, weave, fieldMarker]

theorem clear_iff_clearValues (f v : String) (h : values.length = fields.length) :
    Clear v.toList (markedValues fields values) ↔ ClearValues (f :: fields) (v :: values) := by
  induction fields generalizing f v values with
  | nil =>
    cases List.length_eq_zero_iff.mp h
    exact Iff.rfl
  | cons g fields ih =>
    obtain ⟨w, values, rfl⟩ := List.exists_cons_of_length_eq_add_one h
    exact and_congr_right' (and_congr_right' (ih g w (Nat.succ.inj h)))

theorem markedValues_fst (h : values.length = fields.length) :
    (markedValues fields values).map Prod.fst = fields.map fieldMarker := by
  rw [markedValues, List.map_zipWith]
  exact List.ext_getElem (by simp [h]) (by simp)

theorem exists_markedValues {ps : List (List Char × List Char)}
    (h : ps.map Prod.fst = fields.map fieldMarker) :
    ∃ ws, ws.length = fields.length ∧ ps = markedValues fields ws := by
  refine ⟨ps.map fun p => String.ofList p.2, ?_, ?_⟩
  · have := congrArg List.length h
    simpa using this
  · induction fields generalizing ps with
    | nil =>
      rw [List.map_eq_nil_iff.mp h]
      rfl
    | cons g fields ih =>
      obtain ⟨p, ps, rfl, hp, htail⟩ := List.map_eq_cons_iff.mp h
      show _ = (fieldMarker g, (String.ofList p.2).toList) :: markedValues fields _
      rw [← ih htail, ← hp, String.toList_ofList]

theorem markedValues_injective (h : values.length = fields.length)
    (hws : ws.length = fields.length) (heq : markedValues fields ws = markedValues fields values) :
    ws = values := by
  have hsnd : ∀ l : List String, l.length = fields.length →
      (markedValues fields l).map Prod.snd = l.map String.toList := fun l hl => by
    rw [markedValues, List.map_zipWith]
    exact List.ext_getElem (by simp [hl]) (by simp)
  have hmap := congrArg (List.map Prod.snd) heq
  rw [hsnd ws hws, hsnd values h] at hmap
  exact List.map_injective_iff.mpr (fun _ _ => String.toList_inj.mp) hmap

theorem isMarker_fieldMarker {g : String} (h : '|' ∉ g.toList) : IsMarker '|' (fieldMarker g) :=
  ⟨_, rfl, by simp [h]⟩

/-- **Unique reading of a key.** -/
theorem clearValues_iff (hfields : ∀ g ∈ fields, '|' ∉ g.toList)
    (h : values.length = fields.length) :
    ClearValues fields values ↔
      ∀ ws : List String, ws.length = fields.length → keyOf fields ws = keyOf fields values →
        ws = values := by
  cases fields with
  | nil =>
    cases List.length_eq_zero_iff.mp h
    exact ⟨fun _ ws hws _ => List.length_eq_zero_iff.mp hws, fun _ => trivial⟩
  | cons f fields =>
    obtain ⟨v, values, rfl⟩ := List.exists_cons_of_length_eq_add_one h
    have hlen : values.length = fields.length := Nat.succ.inj h
    have hmarkers : ∀ p ∈ markedValues fields values, IsMarker '|' p.1 := fun p hp => by
      have hmem := List.mem_map_of_mem (f := Prod.fst) hp
      rw [markedValues_fst hlen] at hmem
      obtain ⟨g, hg, heq⟩ := List.mem_map.mp hmem
      exact heq ▸ isMarker_fieldMarker (hfields g (List.mem_cons_of_mem f hg))
    rw [← clear_iff_clearValues f v hlen, clear_iff hmarkers, markedValues_fst hlen]
    constructor
    · intro hread ws hws heq
      obtain ⟨w, ws, rfl⟩ := List.exists_cons_of_length_eq_add_one hws
      have hws' : ws.length = fields.length := Nat.succ.inj hws
      have htext := congrArg String.toList heq
      rw [toList_keyOf f w hws', toList_keyOf f v hlen] at htext
      have hweave := (List.cons_eq_cons.mp (List.append_cancel_left htext)).2
      obtain ⟨hw, hps⟩ := hread _ _ (markedValues_fst hws') hweave
      rw [String.toList_inj.mp hw, markedValues_injective hlen hws' hps]
    · intro hkey v' ps' hfst hweave
      obtain ⟨ws, hws, rfl⟩ := exists_markedValues hfst
      have heq := hkey (String.ofList v' :: ws) (by simp [hws]) (String.toList_inj.mp (by
        rw [toList_keyOf f _ hws, toList_keyOf f v hlen, String.toList_ofList, hweave]))
      obtain ⟨rfl, rfl⟩ := List.cons_eq_cons.mp heq
      exact ⟨String.toList_ofList.symm, rfl⟩

end

/-! ### Fields that resolve -/

/-- The keys of an event's tags. -/
theorem tagKey_of_mem {e : NormalizedEvent} {key value : String}
    (h : (key, value) ∈ e.val.tags.entries) :
    matchesTagKey key = true ∧ key.length ≤ eventTagMaxKeyBytes := by
  have herrors := e.valid
  simp only [EventData.errors, List.append_eq_nil_iff, eventTagsErrors, thenErrors_eq_nil,
    itemErrors_eq_nil] at herrors
  have hkey := (herrors.1.1.2.1 _ h).1
  rw [eventTagKeyErrors, thenErrors_eq_nil, check_eq_nil, strErrors_eq_nil] at hkey
  exact ⟨hkey.2, hkey.1.2⟩

/-- A field that is no normalized one is a tag. -/
theorem resolveField_tag {field : String} {event : EventData}
    (h : field ∉ knownNormalizedFields) :
    resolveField field event = getItem field event.tags.entries := by
  simp only [knownNormalizedFields, List.mem_cons, List.not_mem_nil, or_false, not_or] at h
  obtain ⟨h1, h2, h3, h4, h5, h6, h7, h8, h9⟩ := h
  rw [resolveField, if_neg h1, if_neg h2, if_neg h3, if_neg h4, if_neg h5, if_neg h6, if_neg h7,
    if_neg h8, if_neg h9]

theorem bar_notMem_of_resolveField {field value : String} {e : NormalizedEvent}
    (h : resolveField field e.val = some value) : '|' ∉ field.toList := by
  by_cases hknown : field ∈ knownNormalizedFields
  · have hall : knownNormalizedFields.all fun f => decide ('|' ∉ f.toList) := by decide
    exact of_decide_eq_true (List.all_eq_true.mp hall field hknown)
  · rw [resolveField_tag hknown] at h
    intro hbar
    cases isTagChar_of_matchesTagKey (tagKey_of_mem (mem_of_getItem h)).1 _ hbar

section

variable {fields values : List String} {e e' : NormalizedEvent}

theorem bar_notMem_of_groupValues (h : groupValues fields e.val = some values) :
    ∀ g ∈ fields, '|' ∉ g.toList := by
  intro g hg
  obtain ⟨_, -, hv⟩ := exists_of_forall₂_left (mapM_eq_some.mp h) hg
  exact bar_notMem_of_resolveField hv

theorem buildGroupKey_eq {compiled : CompiledRule} {event : EventData}
    (h : groupValues compiled.definition.val.window.val.groupBy event = some values) :
    buildGroupKey compiled event =
      some (keyOf compiled.definition.val.window.val.groupBy values) := by
  rw [buildGroupKey, Option.map_eq_some_iff]
  refine ⟨_, ?_, rfl⟩
  generalize compiled.definition.val.window.val.groupBy = fields at h
  rw [groupSegments, mapM_eq_some]
  rw [groupValues, mapM_eq_some] at h
  induction h with
  | nil => exact .nil
  | cons hv _ ih => exact .cons (by rw [hv]; rfl) ih

end

/-- **Group keys.**  Let all group-by fields of a rule resolve in an event.  No other values have the
event's key if and only if no value contains the marker it stands beside; and then an event has the
same key exactly when it has the same values. -/
theorem group_keys_separate {compiled : CompiledRule} {e : NormalizedEvent} {values : List String}
    (hvalues : groupValues compiled.definition.val.window.val.groupBy e.val = some values) :
    ((∀ ws : List String, ws.length = values.length →
        some (keyOf compiled.definition.val.window.val.groupBy ws) = buildGroupKey compiled e.val →
          ws = values) ↔
      ClearValues compiled.definition.val.window.val.groupBy values) ∧
    (ClearValues compiled.definition.val.window.val.groupBy values →
      ∀ (e' : NormalizedEvent) values',
        groupValues compiled.definition.val.window.val.groupBy e'.val = some values' →
          (buildGroupKey compiled e'.val = buildGroupKey compiled e.val ↔ values' = values)) := by
  have hlen : values.length = compiled.definition.val.window.val.groupBy.length :=
    (mapM_eq_some.mp hvalues).length_eq.symm
  have hiff := clearValues_iff (bar_notMem_of_groupValues hvalues) hlen
  rw [buildGroupKey_eq hvalues]
  constructor
  · rw [hiff, hlen]
    exact forall₂_congr fun ws hws => by rw [Option.some_inj]
  · intro hclear e' values' hvalues'
    have hlen' := (mapM_eq_some.mp hvalues').length_eq.symm
    rw [buildGroupKey_eq hvalues', Option.some_inj]
    exact ⟨hiff.mp hclear values' hlen', fun h => h ▸ rfl⟩

/-- The sample rules, grouped by host and service. -/
def serviceRules : List RuleDefinitionConfig :=
  sampleRules.map fun r => { r with window := { r.window with groupBy := ["host", "service"] } }

def serviceRule : CompiledRule :=
  { sampleCompiledRule with
    definition := ⟨{ sampleCompiledRule.definition.val with
      window := ⟨⟨300, ["host", "service"], 2⟩, by decide⟩ }, by decide⟩ }

/-- The sample event, of another service. -/
def serviceEvent (host service : String) : EventData :=
  { timeoutProblem.val with host := host, service := some service }

/-- Two services of two hosts whose problems are counted into one incident. -/
theorem group_keys_collide :
    loadRulesConfig sampleCompiler sampleConfigHash ["create_incident"] [] (some serviceRules) =
        .ok ⟨[serviceRule], sampleConfigHash⟩ ∧
      ∃ e e' : NormalizedEvent, e.val = serviceEvent "a|service=b" "c" ∧
        e'.val = serviceEvent "a" "b|service=c" ∧
        matchesRule serviceRule e.val = true ∧ matchesRule serviceRule e'.val = true ∧
        buildGroupKey serviceRule e.val = some "host=a|service=b|service=c" ∧
        buildGroupKey serviceRule e'.val = some "host=a|service=b|service=c" := by
  have herrors : (serviceEvent "a|service=b" "c").errors.isEmpty = true ∧
      (serviceEvent "a" "b|service=c").errors.isEmpty = true := by decide +kernel
  have hkeys : matchesRule serviceRule (serviceEvent "a|service=b" "c") = true ∧
      matchesRule serviceRule (serviceEvent "a" "b|service=c") = true ∧
      buildGroupKey serviceRule (serviceEvent "a|service=b" "c") =
        some "host=a|service=b|service=c" ∧
      buildGroupKey serviceRule (serviceEvent "a" "b|service=c") =
        some "host=a|service=b|service=c" := by decide +kernel
  exact ⟨rfl, ⟨_, List.isEmpty_iff.mp herrors.1⟩, ⟨_, List.isEmpty_iff.mp herrors.2⟩, rfl, rfl,
    hkeys⟩

theorem group_keys_separate_sample :
    ∃ e' : NormalizedEvent, e'.val = serviceEvent "web-1" "ssh" ∧
      (buildGroupKey serviceRule e'.val = buildGroupKey serviceRule timeoutProblem.val ↔
        ["web-1", "ssh"] = ["web-1", "http"]) := by
  have hvalues : groupValues serviceRule.definition.val.window.val.groupBy timeoutProblem.val =
      some ["web-1", "http"] := by decide +kernel
  have herrors : (serviceEvent "web-1" "ssh").errors.isEmpty = true := by decide +kernel
  have hvalues' : groupValues serviceRule.definition.val.window.val.groupBy
      (serviceEvent "web-1" "ssh") = some ["web-1", "ssh"] := by decide +kernel
  refine ⟨⟨_, List.isEmpty_iff.mp herrors⟩, rfl, (group_keys_separate hvalues).2 ?_ _ _ hvalues'⟩
  refine ⟨?_, ?_, trivial⟩ <;> decide +kernel

end Correlia
