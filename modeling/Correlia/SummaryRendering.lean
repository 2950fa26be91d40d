import Correlia.Lib.Template
import Correlia.GroupKeys

/-!
# SummaryRendering — the placeholders of a summary

`_render_summary` replaces the placeholders of one name after the other, over the whole text and so
over the values put in before.  A value with a placeholder in it is therefore filled in itself when
the name comes later in the dictionary.
-/

namespace Correlia

open Lib

/-- The template with each placeholder replaced, once, by the field or tag it names. -/
def substitute (template : String) (event : EventData) : String :=
  String.ofList (fill (fun n => (resolveField (String.ofList n) event).map String.toList)
    (pieces none template.toList))

/-! ### Templates -/

section

variable {template : String} {n : List Char}

theorem validateSummaryVariables_eq_ok :
    validateSummaryVariables template = .ok () ↔
      ∀ n ∈ scanVariables none template.toList, summaryVariableOk n = true := by
  unfold validateSummaryVariables
  split
  · rename_i hnone
    have hall := List.find?_eq_none.mp hnone
    exact ⟨fun _ n hn => by simpa using hall n hn, fun _ => rfl⟩
  · rename_i n hsome
    refine ⟨nofun, fun hall => ?_⟩
    have hbad := List.find?_some hsome
    rw [hall n (List.mem_of_find?_eq_some hsome)] at hbad
    cases hbad

/-- The variables of a template are the names of its pieces. -/
theorem name_mem_pieces (inner : Option (List Char)) (cs : List Char) :
    Piece.name n ∈ pieces inner cs ↔ n ∈ scanVariables inner cs := by
  induction cs generalizing inner with
  | nil =>
    cases inner with
    | none => simp [pieces, scanVariables]
    | some i => simp [pieces, scanVariables]
  | cons c cs ih =>
    cases inner with
    | none =>
      unfold pieces scanVariables
      split
      · exact ih _
      · rw [List.mem_cons, ← ih]
        exact or_iff_right fun h => by cases h
    | some i =>
      unfold pieces scanVariables
      split
      · rw [List.mem_cons, List.mem_cons, ih]
        exact or_congr_left ⟨Piece.name.inj, congrArg _⟩
      · exact ih _

theorem braceFree_of_isTagChar (h : ∀ c ∈ n, isTagChar c = true) : BraceFree n := by
  constructor <;> intro hmem <;> cases h _ hmem

theorem matchesTagKey_of_known {field : String} (h : field ∈ knownNormalizedFields) :
    matchesTagKey field = true := by
  have hall : knownNormalizedFields.all matchesTagKey = true := by decide
  exact List.all_eq_true.mp hall field h

/-- A variable the validation lets pass has the form of a tag key. -/
theorem matchesTagKey_of_variable (h : summaryVariableOk n = true) :
    matchesTagKey (String.ofList n) = true := by
  obtain ⟨-, hname⟩ := Bool.and_eq_true_iff.mp h
  rcases (Bool.or_eq_true _ _).mp hname with hknown | htag
  · exact matchesTagKey_of_known (of_decide_eq_true hknown)
  · exact htag

theorem braceFree_of_matchesTagKey {key : String} (h : matchesTagKey key = true) :
    BraceFree key.toList :=
  braceFree_of_isTagChar (isTagChar_of_matchesTagKey h)

theorem wellRead_of_validate (h : validateSummaryVariables template = .ok ()) :
    WellRead (pieces none template.toList) := by
  refine wellRead_pieces none nofun fun n hn => ?_
  have hok := validateSummaryVariables_eq_ok.mp h n ((name_mem_pieces none _).mp hn)
  have hfree := braceFree_of_matchesTagKey (matchesTagKey_of_variable hok)
  rwa [String.toList_ofList] at hfree

end

/-! ### The dictionary of values -/

section

variable {event : EventData} {e : NormalizedEvent}

/-- The values that are not `None`, in the order of the dictionary. -/
def presentValues (context : List (String × Option String)) : List (List Char × List Char) :=
  context.filterMap fun e => e.2.map fun v => (e.1.toList, v.toList)

@[simp] theorem presentValues_none (key : String) (context : List (String × Option String)) :
    presentValues ((key, none) :: context) = presentValues context := rfl

@[simp] theorem presentValues_some (key v : String) (context : List (String × Option String)) :
    presentValues ((key, some v) :: context) = (key.toList, v.toList) :: presentValues context :=
  rfl

theorem renderSummary_eq (template : String) (event : EventData) :
    (renderSummary template event).toList = (presentValues (summaryContext event)).foldl
      (fun t e => replaceFrom (Piece.name e.1).chars e.2 0 t) template.toList := by
  rw [renderSummary]
  generalize summaryContext event = context
  induction context generalizing template with
  | nil => rfl
  | cons entry context ih =>
    obtain ⟨key, value⟩ := entry
    rw [List.foldl_cons, ih]
    cases value with
    | none => rfl
    | some v =>
      rw [presentValues_some, List.foldl_cons]
      congr 1
      simp [substituteVariable, replaceText, Piece.chars]

theorem getItem_presentValues {context : List (String × Option String)}
    (hk : (context.map Prod.fst).Nodup) (n : List Char) :
    getItem n (presentValues context) =
      (getItem (String.ofList n) context).join.map String.toList := by
  induction context with
  | nil => rfl
  | cons entry context ih =>
    obtain ⟨key, value⟩ := entry
    obtain ⟨hnot, hrest⟩ := List.nodup_cons.mp hk
    have hkey : key = String.ofList n ↔ key.toList = n :=
      ⟨fun h => h ▸ String.toList_ofList, fun h => h ▸ String.ofList_toList.symm⟩
    rw [getItem_cons]
    cases value with
    | none =>
      rw [presentValues_none, ih hrest]
      by_cases h : key = String.ofList n
      · rw [if_pos h, getItem_eq_none.mpr (h ▸ hnot)]
        rfl
      · rw [if_neg h]
    | some v =>
      rw [presentValues_some, getItem_cons]
      by_cases h : key = String.ofList n
      · rw [if_pos h, if_pos (hkey.mp h)]
        rfl
      · rw [if_neg h, if_neg (mt hkey.mpr h), ih hrest]

theorem nodup_setItems {κ ν : Type} [DecidableEq κ] {items d : List (κ × ν)}
    (h : (d.map Prod.fst).Nodup) : ((setItems items d).map Prod.fst).Nodup := by
  induction items generalizing d with
  | nil => exact h
  | cons e items ih => exact ih (setItem_nodup h)

theorem summaryContext_nodup (event : EventData) :
    ((summaryContext event).map Prod.fst).Nodup := by
  refine nodup_setItems ?_
  rw [List.map_map]
  exact event.tags.nodup

/-- The dictionary holds the normalized fields, and the tags of other names. -/
theorem getItem_summaryContext (field : String) (event : EventData) :
    (getItem field (summaryContext event)).join = resolveField field event := by
  have htags : getItem field (event.tags.entries.map fun e => (e.1, some e.2)) =
      (getItem field event.tags.entries).map some := by
    rw [getItem, getItem, List.find?_map, Option.map_map, Option.map_map]
    rfl
  show (getItem field (setItems (normalizedFields event) _)).join = _
  rw [getItem_setItems, htags]
  by_cases hknown : field ∈ knownNormalizedFields
  · simp only [knownNormalizedFields, List.mem_cons, List.not_mem_nil, or_false] at hknown
    rcases hknown with rfl | rfl | rfl | rfl | rfl | rfl | rfl | rfl | rfl <;> rfl
  · have hnone : getItem field (normalizedFields event).reverse = none := by
      refine getItem_eq_none.mpr fun hmem => hknown ?_
      rw [List.map_reverse, List.mem_reverse] at hmem
      exact hmem
    rw [hnone, Option.none_or, resolveField_tag hknown]
    cases getItem field event.tags.entries <;> rfl

theorem presentValues_nodup {context : List (String × Option String)}
    (h : (context.map Prod.fst).Nodup) : ((presentValues context).map Prod.fst).Nodup := by
  have hsub : ((presentValues context).map Prod.fst).Sublist
      ((context.map Prod.fst).map String.toList) := by
    clear h
    induction context with
    | nil => exact .slnil
    | cons entry context ih =>
      obtain ⟨key, value⟩ := entry
      cases value with
      | none => exact ih.cons _
      | some v => exact ih.cons_cons _
  exact (h.map fun _ _ => String.toList_inj.mp).sublist hsub

/-- The values that can be put in for a name. -/
theorem getItem_context (n : List Char) (event : EventData) :
    getItem n (presentValues (summaryContext event)) =
      (resolveField (String.ofList n) event).map String.toList := by
  rw [getItem_presentValues (summaryContext_nodup event), getItem_summaryContext]

theorem mem_context {p : List Char × List Char} :
    p ∈ presentValues (summaryContext event) ↔
      (resolveField (String.ofList p.1) event).map String.toList = some p.2 := by
  rw [← getItem_context, getItem_eq_some (presentValues_nodup (summaryContext_nodup event))]

theorem braceFree_of_mem_context {p : List Char × List Char}
    (h : p ∈ presentValues (summaryContext e.val)) : BraceFree p.1 := by
  have hget : (resolveField (String.ofList p.1) e.val).isSome := by
    rw [← Option.isSome_map, mem_context.mp h]
    rfl
  have hkey : matchesTagKey (String.ofList p.1) = true := by
    by_cases hknown : String.ofList p.1 ∈ knownNormalizedFields
    · exact matchesTagKey_of_known hknown
    · rw [resolveField_tag hknown] at hget
      obtain ⟨v, hv⟩ := Option.isSome_iff_exists.mp hget
      exact (tagKey_of_mem (mem_of_getItem hv)).1
  have hfree := braceFree_of_matchesTagKey hkey
  rwa [String.toList_ofList] at hfree

/-- The text with the values put in one after the other, where they bring plain pieces. -/
theorem toList_renderSummary {template : String} {S : List Char → Prop}
    (htemplate : validateSummaryVariables template = .ok ())
    (hvalues : ∀ n v, S n → resolveField (String.ofList n) e.val = some v →
      Lib.Plain (pieces none v.toList) ∧ ∀ m, Piece.name m ∈ pieces none v.toList → S m)
    (hS : ∀ n, Piece.name n ∈ pieces none template.toList → S n) :
    (renderSummary template e.val).toList =
      textOf (fillEach (presentValues (summaryContext e.val)) (pieces none template.toList)) := by
  have htext : template.toList = textOf (pieces none template.toList) :=
    (textOf_pieces none template.toList).symm
  rw [renderSummary_eq]
  conv_lhs => rw [htext]
  refine foldl_replaceFrom (fun p hp => braceFree_of_mem_context hp) (fun p hp hSp => ?_)
    (wellRead_of_validate htemplate) hS
  obtain ⟨v, hv, hpv⟩ := Option.map_eq_some_iff.mp (mem_context.mp hp)
  rw [← hpv]
  exact hvalues p.1 v hSp hv

/-- Values without an opening brace. -/
theorem renderSummary_eq_substitute {template : String}
    (htemplate : validateSummaryVariables template = .ok ())
    (h : ∀ n ∈ scanVariables none template.toList, ∀ v,
      resolveField (String.ofList n) e.val = some v → '\x7b' ∉ v.toList) :
    renderSummary template e.val = substitute template e.val := by
  apply String.toList_inj.mp
  have hplain : ∀ n v, Piece.name n ∈ pieces none template.toList →
      resolveField (String.ofList n) e.val = some v → '\x7b' ∉ v.toList := fun n v hn =>
    h n ((name_mem_pieces none _).mp hn) v
  rw [toList_renderSummary htemplate (S := fun n => Piece.name n ∈ pieces none template.toList) ?_
    fun _ => id, textOf_fillEach, substitute, String.toList_ofList]
  · congr 1
    exact funext fun n => getItem_context n e.val
  · intro n v hn hget
    rw [getItem_context] at hget
    obtain ⟨w, hw, rfl⟩ := Option.map_eq_some_iff.mp hget
    exact hplain n w hn hw
  · intro n v hn hv
    rw [pieces_of_notMem (hplain n v hn hv)]
    refine ⟨fun p hp => ?_, fun m hm => ?_⟩
    · obtain ⟨c, hc, rfl⟩ := List.mem_map.mp hp
      exact fun heq => hplain n v hn hv (heq ▸ hc)
    · obtain ⟨c, -, hc⟩ := List.mem_map.mp hm
      cases hc

end

/-! ### A value that is filled in itself -/

def timestampName : List Char := "timestamp".toList

def timestampVariable : String := "\x7btimestamp\x7d"

/-- Every free text is `\x7btimestamp\x7d`, and so is the tag. -/
def recursiveEvent (tag : String) : EventData where
  fingerprint := timestampVariable
  sourceId := timestampVariable
  host := timestampVariable
  service := some timestampVariable
  severity := .critical
  eventType := .problem
  timestamp := sampleNoon
  tags := ⟨[(tag, timestampVariable)], List.nodup_singleton _⟩
  message := timestampVariable
  ipAddress := some timestampVariable

/-- The fields that never hold free text. -/
def fixedFields : List String := ["severity", "event_type", "timestamp"]

section

variable {tag : String}

theorem jsonStringBytes_le (s : String) : jsonStringBytes s ≤ 6 * s.length + 2 := by
  have hchar : ∀ c : Char, jsonCharBytes c ≤ 6 := fun c => by
    have := c.utf8Size_le_four
    unfold jsonCharBytes
    split_ifs <;> omega
  have hsum : (s.toList.map jsonCharBytes).sum ≤ s.toList.length * 6 := by
    have := List.sum_le_card_nsmul (s.toList.map jsonCharBytes) 6 fun n hn => by
      obtain ⟨c, -, rfl⟩ := List.mem_map.mp hn
      exact hchar c
    rwa [List.length_map, smul_eq_mul] at this
  rw [String.length_toList] at hsum
  unfold jsonStringBytes
  omega

theorem recursiveEvent_valid (hkey : matchesTagKey tag = true)
    (hlen : tag.length ≤ eventTagMaxKeyBytes) : (recursiveEvent tag).errors = [] := by
  have hpos : 1 ≤ tag.length := by
    rw [← String.length_toList]
    refine List.length_pos_iff.mpr fun hnil => ?_
    rw [matchesTagKey, hnil] at hkey
    cases hkey
  have htext : 1 ≤ timestampVariable.length ∧ timestampVariable.length ≤ 256 := by decide
  have hbytes : 2 + (jsonStringBytes tag + 1 + jsonStringBytes timestampVariable + 0) ≤
      eventTagMaxBytes := by
    have h1 := jsonStringBytes_le tag
    have h2 : jsonStringBytes timestampVariable = 13 := by decide
    unfold eventTagMaxKeyBytes at hlen
    unfold eventTagMaxBytes
    omega
  have hpair : eventTagPairOk tag timestampVariable = true := by
    have hnul : timestampVariable.toList.contains (Char.ofNat 0) = false := by decide
    simp only [eventTagPairOk, hkey, hlen, htext, hnul, decide_true, Bool.and_self, Bool.not_false,
      and_self]
  have htags : validateEventTags ⟨[(tag, timestampVariable)], List.nodup_singleton _⟩ = true := by
    have hloop : eventTagLoop 2 0 [(tag, timestampVariable)] = true := by
      simp only [eventTagLoop, hpair, hbytes, decide_true, Bool.and_self]
    exact Bool.and_eq_true_iff.mpr ⟨(by decide : decide (1 ≤ eventTagMaxEntries) = true), hloop⟩
  have hkeys : eventTagKeyErrors "tags" tag = [] := by
    rw [eventTagKeyErrors, thenErrors_eq_nil, strErrors_eq_nil, check_eq_nil]
    exact ⟨⟨hpos, hlen⟩, hkey⟩
  have hvalue : tagValueErrors "tags" timestampVariable = [] := tagValueErrors_eq_nil.mpr htext
  simp only [EventData.errors, eventTagsErrors, List.append_eq_nil_iff, thenErrors_eq_nil,
    itemErrors_eq_nil, check_eq_nil, strErrors_eq_nil, optErrors_eq_nil, decide_eq_true_eq]
  refine ⟨⟨⟨⟨⟨⟨htext.1, htext.1⟩, htext.1⟩, ?_⟩, ?_, htags⟩, htext.1, ?_⟩, ?_⟩
  · rintro s ⟨⟩
    exact htext.1
  · intro entry hentry
    cases List.mem_singleton.mp hentry
    exact ⟨hkeys, hvalue⟩
  · exact htext.2.trans (by decide)
  · rintro s ⟨⟩
    exact htext.1

/-- The values of the event: the variable, or text without braces. -/
theorem resolve_recursiveEvent {field v : String}
    (h : resolveField field (recursiveEvent tag) = some v) :
    v = timestampVariable ∨ '\x7b' ∉ v.toList := by
  by_cases hknown : field ∈ knownNormalizedFields
  · simp only [knownNormalizedFields, List.mem_cons, List.not_mem_nil, or_false] at hknown
    rcases hknown with rfl | rfl | rfl | rfl | rfl | rfl | rfl | rfl | rfl <;> cases h
    · exact .inl rfl
    · exact .inl rfl
    · exact .inl rfl
    · exact .inr (by decide : '\x7b' ∉ Severity.critical.value.toList)
    · exact .inr (by decide : '\x7b' ∉ EventType.problem.value.toList)
    · exact .inl rfl
    · exact .inl rfl
    · exact .inr (by decide +kernel : '\x7b' ∉ sampleNoon.isoformat.toList)
    · exact .inl rfl
  · rw [resolveField_tag hknown] at h
    obtain ⟨-, rfl⟩ := Prod.mk.inj (List.mem_singleton.mp (mem_of_getItem h))
    exact .inl rfl

theorem resolve_recursiveEvent_free (h : tag ∉ fixedFields) :
    resolveField tag (recursiveEvent tag) = some timestampVariable := by
  by_cases hknown : tag ∈ knownNormalizedFields
  · simp only [knownNormalizedFields, List.mem_cons, List.not_mem_nil, or_false] at hknown
    rcases hknown with rfl | rfl | rfl | rfl | rfl | rfl | rfl | rfl | rfl
    · rfl
    · rfl
    · rfl
    · exact absurd (by decide) h
    · exact absurd (by decide) h
    · rfl
    · rfl
    · exact absurd (by decide) h
    · rfl
  · rw [resolveField_tag hknown]
    exact (getItem_cons _ _).trans (if_pos rfl)

theorem pieces_timestampVariable :
    pieces none timestampVariable.toList = [.name timestampName] := by decide

theorem sampleNoon_isoformat :
    25 ≤ sampleNoon.isoformat.toList.length ∧ '\x7b' ∉ sampleNoon.isoformat.toList := by
  rw [String.length_toList]
  exact ⟨sampleNoon.isoformat_length.1, by decide +kernel⟩

theorem mem_context_timestamp {w : List Char} :
    (timestampName, w) ∈ presentValues (summaryContext (recursiveEvent tag)) ↔
      w = sampleNoon.isoformat.toList := by
  have hfield : String.ofList timestampName = "timestamp" := by decide
  have hresolve : resolveField "timestamp" (recursiveEvent tag) = some sampleNoon.isoformat := rfl
  rw [mem_context, hfield, hresolve, Option.map_some, Option.some_inj]
  exact eq_comm

/-- The timestamp's variable is replaced by the timestamp, or stays. -/
theorem fillEach_timestamp {post : List (List Char × List Char)}
    (h : ∀ p ∈ post, p.1 = timestampName → p.2 = sampleNoon.isoformat.toList) :
    (textOf (fillEach post [.name timestampName])).length = 11 ∧
        timestampName ∉ post.map Prod.fst ∨
      25 ≤ (textOf (fillEach post [.name timestampName])).length := by
  cases hget : getItem timestampName post with
  | none =>
    have hnot := getItem_eq_none.mp hget
    refine .inl ⟨?_, hnot⟩
    rw [fillEach_of_notMem]
    · rfl
    · intro p hp hmem
      exact hnot (Piece.name.inj (List.mem_singleton.mp hmem) ▸ List.mem_map_of_mem hp)
  | some v =>
    obtain ⟨pre, post', rfl, hpre⟩ := exists_split_of_getItem hget
    have hv : v = sampleNoon.isoformat.toList :=
      h (timestampName, v) (List.mem_append_right _ List.mem_cons_self) rfl
    right
    rw [fillEach_name hpre, hv, pieces_of_notMem sampleNoon_isoformat.2, fillEach_chars,
      textOf_map_char]
    exact sampleNoon_isoformat.1

theorem fill_singleton (σ : List Char → Option (List Char)) (n : List Char) :
    fill σ [.name n] = (σ n).getD (Piece.name n).chars := List.append_nil _

/-- A piece filled in one after the other is at least as long as filled in at once. -/
theorem length_fill_le (tag : String) (p : Piece) :
    (fill (fun n => (resolveField (String.ofList n) (recursiveEvent tag)).map String.toList)
        [p]).length ≤
      (textOf (fillEach (presentValues (summaryContext (recursiveEvent tag))) [p])).length := by
  cases p with
  | char c =>
    rw [fillEach_of_notMem fun e _ hmem => by cases List.mem_singleton.mp hmem]
    exact le_rfl
  | name n =>
    rw [fill_singleton, ← getItem_context]
    cases hget : getItem n (presentValues (summaryContext (recursiveEvent tag))) with
    | none =>
      rw [fillEach_of_notMem]
      · simp [textOf]
      · intro e he hmem
        have hn := Piece.name.inj (List.mem_singleton.mp hmem)
        exact getItem_eq_none.mp hget (hn ▸ List.mem_map_of_mem he)
    | some v =>
      have hresolve := hget
      rw [getItem_context] at hresolve
      obtain ⟨w, hw, rfl⟩ := Option.map_eq_some_iff.mp hresolve
      obtain ⟨pre, post, hsplit, hpre⟩ := exists_split_of_getItem hget
      rw [hsplit, fillEach_name hpre, Option.getD_some]
      rcases resolve_recursiveEvent hw with rfl | hfree
      · have hpost : ∀ q ∈ post, q.1 = timestampName → q.2 = sampleNoon.isoformat.toList := by
          intro q hq hname
          have hmem : (q.1, q.2) ∈ presentValues (summaryContext (recursiveEvent tag)) :=
            hsplit ▸ List.mem_append_right pre (List.mem_cons_of_mem _ hq)
          rw [hname] at hmem
          exact mem_context_timestamp.mp hmem
        rw [pieces_timestampVariable]
        have hlen : timestampVariable.toList.length = 11 := by decide
        rcases fillEach_timestamp hpost with ⟨h, -⟩ | h <;> omega
      · rw [pieces_of_notMem hfree, fillEach_chars, textOf_map_char]

theorem setItems_cons {κ ν : Type} [DecidableEq κ] (items : List (κ × ν)) (k : κ) (v : ν)
    (l : List (κ × ν)) : ∃ v' l', setItems items ((k, v) :: l) = (k, v') :: l' := by
  induction items generalizing v l with
  | nil => exact ⟨v, l, rfl⟩
  | cons e items ih =>
    rw [setItems, List.foldl_cons, ← setItems, setItem]
    split
    · rename_i heq
      obtain rfl : k = e.1 := heq
      exact ih _ _
    · exact ih _ _

/-- The tag comes first in the dictionary. -/
theorem exists_presentValues (h : tag ∉ fixedFields) :
    ∃ rest, presentValues (summaryContext (recursiveEvent tag)) =
      (tag.toList, timestampVariable.toList) :: rest := by
  obtain ⟨v, l, hcontext⟩ := setItems_cons (normalizedFields (recursiveEvent tag)) tag
    (some timestampVariable) []
  have hsummary : summaryContext (recursiveEvent tag) = (tag, v) :: l := hcontext
  have hget : (getItem tag (summaryContext (recursiveEvent tag))).join = some timestampVariable :=
    (getItem_summaryContext _ _).trans (resolve_recursiveEvent_free h)
  rw [hsummary, getItem_cons, if_pos rfl] at hget
  obtain rfl : v = some timestampVariable := hget
  exact ⟨presentValues l, by rw [hsummary, presentValues_some]⟩

/-- The tag's own piece is longer. -/
theorem length_fill_lt (h : tag ∉ fixedFields) :
    (fill (fun n => (resolveField (String.ofList n) (recursiveEvent tag)).map String.toList)
        [.name tag.toList]).length <
      (textOf (fillEach (presentValues (summaryContext (recursiveEvent tag)))
        [.name tag.toList])).length := by
  obtain ⟨rest, hrest⟩ := exists_presentValues h
  have hlen : timestampVariable.toList.length = 11 := by decide
  have hfill : (fill (fun n => (resolveField (String.ofList n) (recursiveEvent tag)).map
      String.toList) [.name tag.toList]).length = 11 := by
    rw [fill_singleton, String.ofList_toList, resolve_recursiveEvent_free h]
    exact hlen
  have hall : ∀ q ∈ rest, q.1 = timestampName → q.2 = sampleNoon.isoformat.toList := by
    intro q hq hname
    have hmem : (q.1, q.2) ∈ presentValues (summaryContext (recursiveEvent tag)) :=
      hrest ▸ List.mem_cons_of_mem _ hq
    rw [hname] at hmem
    exact mem_context_timestamp.mp hmem
  have hts : timestampName ∈ rest.map Prod.fst := by
    have hmem : (timestampName, sampleNoon.isoformat.toList) ∈
        presentValues (summaryContext (recursiveEvent tag)) := mem_context_timestamp.mpr rfl
    rw [hrest] at hmem
    rcases List.mem_cons.mp hmem with heq | hmem
    · have htag : tag = "timestamp" := String.toList_inj.mp (congrArg Prod.fst heq).symm
      exact absurd (htag ▸ by decide) h
    · exact List.mem_map_of_mem hmem
  have hname : fillEach ((tag.toList, timestampVariable.toList) :: rest) [.name tag.toList] =
      fillEach rest (pieces none timestampVariable.toList) :=
    fillEach_name (show ∀ e ∈ ([] : List (List Char × List Char)), e.1 ≠ tag.toList from nofun)
  rw [hfill, hrest, hname, pieces_timestampVariable]
  rcases fillEach_timestamp hall with ⟨-, hnot⟩ | hlong
  · exact absurd hts hnot
  · omega

/-- A template with a variable of free text, rendered for the recursive event. -/
theorem renderSummary_recursiveEvent {template : String} {e : NormalizedEvent}
    (htemplate : validateSummaryVariables template = .ok ()) (he : e.val = recursiveEvent tag)
    (h : tag ∉ fixedFields) (hmem : tag.toList ∈ scanVariables none template.toList) :
    renderSummary template e.val ≠ substitute template e.val := by
  intro heq
  have hrender := toList_renderSummary (e := e) (S := fun _ => True) htemplate ?_
    fun _ _ => trivial
  · rw [heq, substitute, String.toList_ofList, he, fillEach_eq_flatMap, textOf,
      List.flatMap_assoc] at hrender
    have hfill : ∀ σ, fill σ (pieces none template.toList) =
        (pieces none template.toList).flatMap fun p => fill σ [p] := fun σ => by
      rw [fill]
      exact List.flatMap_congr fun p _ => (List.append_nil _).symm
    have hlen := congrArg List.length hrender
    rw [hfill, List.length_flatMap, List.length_flatMap] at hlen
    exact absurd hlen (List.sum_lt_sum _ _ (fun p _ => length_fill_le tag p)
      ⟨_, (name_mem_pieces none _).mpr hmem, length_fill_lt h⟩).ne
  · intro n v _ hv
    refine ⟨?_, fun _ _ => trivial⟩
    rw [he] at hv
    rcases resolve_recursiveEvent hv with rfl | hfree
    · rw [pieces_timestampVariable]
      intro p hp
      cases List.mem_singleton.mp hp
      exact braceFree_of_matchesTagKey (by decide : matchesTagKey "timestamp" = true)
    · rw [pieces_of_notMem hfree]
      intro p hp
      obtain ⟨c, hc, rfl⟩ := List.mem_map.mp hp
      exact fun hbrace => hfree (hbrace ▸ hc)

end

/-! ### Templates that are safe -/

/-- No value of the variable can hold an opening brace. -/
def SafeVariable (n : List Char) : Prop :=
  String.ofList n ∈ fixedFields ∨ eventTagMaxKeyBytes < n.length

theorem brace_notMem_of_safe {e : NormalizedEvent} {n : List Char} {v : String}
    (h : SafeVariable n) (hv : resolveField (String.ofList n) e.val = some v) :
    '\x7b' ∉ v.toList := by
  rcases h with hfixed | hlong
  · simp only [fixedFields, List.mem_cons, List.not_mem_nil, or_false] at hfixed
    rcases hfixed with hn | hn | hn <;> rw [hn] at hv <;> cases hv
    · cases e.val.severity <;> decide
    · cases e.val.eventType <;> decide
    · intro hmem
      have := Datetime.isoformat_chars e.val.timestamp _ hmem
      revert this
      decide
  · exfalso
    by_cases hknown : String.ofList n ∈ knownNormalizedFields
    · have hshort : knownNormalizedFields.all fun f => decide (f.length ≤ eventTagMaxKeyBytes) := by
        decide
      have := of_decide_eq_true (List.all_eq_true.mp hshort _ hknown)
      rw [String.length_ofList] at this
      omega
    · rw [resolveField_tag hknown] at hv
      have := (tagKey_of_mem (mem_of_getItem hv)).2
      rw [String.length_ofList] at this
      omega

/-- **Summaries.**  A template that loads is filled in at once for every event if and only if its
variables are among severity, event type, timestamp and tags no event can have.  For each event it
is, in any order of the tags, if no value of its variables holds an opening brace. -/
theorem summary_rendering {template : String}
    (htemplate : validateSummaryVariables template = .ok ()) :
    ((∀ e : NormalizedEvent, renderSummary template e.val = substitute template e.val) ↔
      ∀ n ∈ scanVariables none template.toList, SafeVariable n) ∧
    ∀ e : NormalizedEvent,
      (∀ n ∈ scanVariables none template.toList, ∀ v,
        resolveField (String.ofList n) e.val = some v → '\x7b' ∉ v.toList) →
      renderSummary template e.val = substitute template e.val ∧
        ∀ (e' : NormalizedEvent) tags', e'.val = { e.val with tags := tags' } →
          tags'.entries.Perm e.val.tags.entries →
            renderSummary template e'.val = renderSummary template e.val := by
  constructor
  · constructor
    · intro hall n hn
      by_contra hunsafe
      obtain ⟨hfree, hshort⟩ := not_or.mp hunsafe
      have hkey := matchesTagKey_of_variable (validateSummaryVariables_eq_ok.mp htemplate n hn)
      have hlen : (String.ofList n).length ≤ eventTagMaxKeyBytes := by
        rw [String.length_ofList]
        exact not_lt.mp hshort
      have hmem : (String.ofList n).toList ∈ scanVariables none template.toList := by
        rwa [String.toList_ofList]
      let e : NormalizedEvent := ⟨recursiveEvent (String.ofList n), recursiveEvent_valid hkey hlen⟩
      exact renderSummary_recursiveEvent (e := e) htemplate rfl hfree hmem (hall e)
    · exact fun hsafe e => renderSummary_eq_substitute htemplate fun n hn v hv =>
        brace_notMem_of_safe (hsafe n hn) hv
  · intro e hfree
    have hrender := renderSummary_eq_substitute htemplate hfree
    refine ⟨hrender, fun e' tags' he' hperm => ?_⟩
    have hresolve : ∀ field, resolveField field e'.val = resolveField field e.val := by
      intro field
      have htags : getItem field tags'.entries = getItem field e.val.tags.entries := by
        refine Option.ext fun v => ?_
        rw [getItem_eq_some tags'.nodup, getItem_eq_some e.val.tags.nodup, hperm.mem_iff]
      rw [he']
      unfold resolveField
      rw [htags]
    rw [renderSummary_eq_substitute htemplate fun n hn v hv =>
      hfree n hn v ((hresolve _).symm.trans hv), hrender, substitute, substitute]
    simp only [hresolve]

/-- The sample event, with a field's name in its message. -/
def namingEvent : EventData := { timeoutProblem.val with message := "\x7bseverity\x7d" }

/-- The message of an event is filled in. -/
theorem summary_refilled :
    validateSummaryVariables "\x7bmessage\x7d" = .ok () ∧
      ∃ e : NormalizedEvent, e.val = namingEvent ∧
        renderSummary "\x7bmessage\x7d" e.val = "CRITICAL" ∧
        substitute "\x7bmessage\x7d" e.val = "\x7bseverity\x7d" := by
  have herrors : namingEvent.errors.isEmpty = true := by decide +kernel
  have hrender : renderSummary "\x7bmessage\x7d" namingEvent = "CRITICAL" ∧
      substitute "\x7bmessage\x7d" namingEvent = "\x7bseverity\x7d" := by decide +kernel
  exact ⟨rfl, ⟨_, List.isEmpty_iff.mp herrors⟩, rfl, hrender⟩

theorem summary_rendering_sample :
    renderSummary "\x7bseverity\x7d since \x7btimestamp\x7d" timeoutProblem.val =
      substitute "\x7bseverity\x7d since \x7btimestamp\x7d" timeoutProblem.val := by
  have htemplate : validateSummaryVariables "\x7bseverity\x7d since \x7btimestamp\x7d" = .ok () :=
    rfl
  refine (summary_rendering htemplate).1.mpr (fun n hn => .inl ?_) timeoutProblem
  have hall : (scanVariables none "\x7bseverity\x7d since \x7btimestamp\x7d".toList).all
      fun n => decide (String.ofList n ∈ fixedFields) := by decide
  exact of_decide_eq_true (List.all_eq_true.mp hall n hn)

end Correlia
