import Correlia.Persistence.Audit
import Correlia.TagValidation

/-!
# TagsOfAudit — what the read projection keeps of an event's tags

The pairs are tried in key order.  A pair's fate depends on what is kept before it, which is what is
kept at the end of smaller keys, so the result can be described without the loop.
-/

namespace Correlia

open Lib Json

/-- `validate_event_tags({key: value})` returns: it raises on a value that is no string. -/
def validTagPair (pair : String × Json) : Bool :=
  match pair.2 with
  | .string value => validateEventTags ⟨[(pair.1, value)], List.nodup_singleton _⟩
  | _ => false

/-- One pair of the loop, whatever its value. -/
def TagProjection.stepValue (p : TagProjection) (pair : String × Json) : TagProjection :=
  match pair.2 with
  | .string value => p.step (pair.1, value)
  | _ => p.omit .invalidLegacyShape

/-- `_project_normalized_event_tags` of a map with any values. -/
def projectTagValues (tags : List (String × Json)) (invalidLegacyShape sizeLimit : Bool) :
    TagProjection :=
  let reasons : Finset TagOmissionReason :=
    (if invalidLegacyShape then {.invalidLegacyShape} else ∅) ∪
      (if sizeLimit then {.sizeLimit} else ∅)
  (sortBy Prod.fst tags).foldl TagProjection.stepValue ⟨[], reasons, 2⟩

/-- A JSON value as an object of the validator. -/
def tagObject : Json → PyObject Json
  | .string s => .str (PyStr.ofString s)
  | value => .other value

theorem projectTagValues_text (tags : List (String × String)) (invalidLegacyShape sizeLimit : Bool) :
    projectTagValues (tags.map fun e => (e.1, .string e.2)) invalidLegacyShape sizeLimit =
      projectNormalizedEventTags tags invalidLegacyShape sizeLimit := by
  unfold projectTagValues projectNormalizedEventTags
  rw [sortBy_map, List.foldl_map]
  rfl

/-- The validity of a pair is that of `validate_event_tags` on the map of this pair alone. -/
theorem validTagPair_iff {foreign : Comparison Json} (pair : String × Json) :
    validTagPair pair = true ↔ validateTagMapping foreign
      ⟨[(.str (PyStr.ofString pair.1), tagObject pair.2)], List.nodup_singleton _⟩ = .ok () := by
  obtain ⟨key, value⟩ := pair
  cases value with
  | string s =>
    exact (validateTagMapping_text ⟨[(key, s)], List.nodup_singleton _⟩ rfl).symm
  | _ =>
    refine iff_of_false (by simp [validTagPair]) fun h => ?_
    obtain ⟨-, text, htext, -⟩ := validateTagMapping_eq_ok.mp h
    obtain ⟨e, rest, -, he, -⟩ := List.map_eq_cons_iff.mp htext.symm
    cases (Prod.mk.inj he).2

/-! ### One step -/

section Step

variable {p : TagProjection} {pair : String × Json}

/-- The bytes of the kept pairs with one more. -/
theorem tagBytes_concat (kept : List (String × String)) (e : String × String) :
    tagBytes (kept ++ [e]) = tagBytes kept + ((tagBytes [e] - 2) + if kept = [] then 0 else 1) := by
  unfold tagBytes
  rw [List.map_append, List.map_singleton, byteLength_object_concat, byteLength_object_single]
  simp only [List.map_eq_nil_iff]
  omega

/-- What becomes of a pair: kept, or left out for one reason. -/
theorem TagProjection.stepValue_cases (pair : String × Json)
    (hbytes : p.encodedBytes = tagBytes p.projected) :
    (validTagPair pair = false ∧ p.stepValue pair = p.omit .invalidLegacyShape) ∨
    (validTagPair pair = true ∧ containsSensitiveFragment pair.1 = true ∧
      p.stepValue pair = p.omit .sensitiveKey) ∨
    ∃ value, pair.2 = .string value ∧ validTagPair pair = true ∧
      containsSensitiveFragment pair.1 = false ∧
      ((p.projected.length < auditTagMaxEntries ∧
          tagBytes (p.projected ++ [safePair (pair.1, value)]) ≤ auditTagMaxBytes ∧
          p.stepValue pair = p.keep (safePair (pair.1, value))) ∨
        (¬(p.projected.length < auditTagMaxEntries ∧
          tagBytes (p.projected ++ [safePair (pair.1, value)]) ≤ auditTagMaxBytes) ∧
          p.stepValue pair = p.omit .sizeLimit)) := by
  obtain ⟨key, value⟩ := pair
  cases value with
  | string value =>
    have hconcat : tagBytes (p.projected ++ [safePair (key, value)]) =
        p.encodedBytes + p.additionalBytes (safePair (key, value)) := by
      rw [tagBytes_concat, hbytes, TagProjection.additionalBytes]
    unfold TagProjection.stepValue TagProjection.step validTagPair
    dsimp only
    by_cases h1 : validateEventTags ⟨[(key, value)], List.nodup_singleton _⟩ = false
    · rw [if_pos h1]
      exact Or.inl ⟨h1, rfl⟩
    rw [if_neg h1]
    have hvalid := Bool.eq_true_of_not_eq_false h1
    by_cases h2 : containsSensitiveFragment key = true
    · rw [if_pos h2]
      exact Or.inr (Or.inl ⟨hvalid, h2, rfl⟩)
    rw [if_neg h2]
    refine Or.inr (Or.inr ⟨value, rfl, hvalid, Bool.eq_false_of_not_eq_true h2, ?_⟩)
    rw [hconcat]
    by_cases h3 : auditTagMaxEntries ≤ p.projected.length
    · rw [if_pos h3]
      exact Or.inr ⟨fun h => absurd h.1 (not_lt.mpr h3), rfl⟩
    rw [if_neg h3]
    by_cases h4 : auditTagMaxBytes < p.encodedBytes + p.additionalBytes (safePair (key, value))
    · rw [if_pos h4]
      exact Or.inr ⟨fun h => absurd h.2 (not_le.mpr h4), rfl⟩
    · rw [if_neg h4]
      exact Or.inl ⟨not_le.mp h3, not_lt.mp h4, rfl⟩
  | _ => exact Or.inl ⟨rfl, rfl⟩

end Step

/-! ### The loop -/

section Loop

variable {p : TagProjection} {pair : String × Json} {l : List (String × Json)}
  {invalidLegacyShape sizeLimit : Bool}

/-- What is known of the loop after the pairs `l`. -/
structure ProjectionOf (l : List (String × Json)) (invalidLegacyShape sizeLimit : Bool)
    (p : TagProjection) : Prop where
  keys : (p.projected.map Prod.fst).Sublist (l.map Prod.fst)
  bytes : p.encodedBytes = tagBytes p.projected
  fits : tagBytes p.projected ≤ auditTagMaxBytes
  entries : p.projected.length ≤ auditTagMaxEntries
  origin : ∀ e ∈ p.projected, ∃ value, (e.1, Json.string value) ∈ l ∧
    validTagPair (e.1, .string value) = true ∧ containsSensitiveFragment e.1 = false ∧
      e = safePair (e.1, value)
  invalid : .invalidLegacyShape ∈ p.reasons ↔
    invalidLegacyShape = true ∨ ∃ pair ∈ l, validTagPair pair = false
  sensitive : .sensitiveKey ∈ p.reasons ↔
    ∃ pair ∈ l, validTagPair pair = true ∧ containsSensitiveFragment pair.1 = true
  limited : .sizeLimit ∈ p.reasons ↔ sizeLimit = true ∨ ∃ pair ∈ l,
    validTagPair pair = true ∧ containsSensitiveFragment pair.1 = false ∧
      pair.1 ∉ p.projected.map Prod.fst

theorem projectionOf_nil : ProjectionOf [] invalidLegacyShape sizeLimit
    ⟨[], (if invalidLegacyShape then {.invalidLegacyShape} else ∅) ∪
      (if sizeLimit then {.sizeLimit} else ∅), 2⟩ where
  keys := List.Sublist.refl _
  bytes := by rw [tagBytes_eq]; rfl
  fits := by
    rw [tagBytes_eq]
    exact Nat.le_of_ble_eq_true rfl
  entries := Nat.zero_le _
  origin := by simp
  invalid := by cases invalidLegacyShape <;> cases sizeLimit <;> simp
  sensitive := by cases invalidLegacyShape <;> cases sizeLimit <;> simp
  limited := by cases invalidLegacyShape <;> cases sizeLimit <;> simp

theorem mem_omit {r reason : TagOmissionReason} :
    r ∈ (p.omit reason).reasons ↔ r = reason ∨ r ∈ p.reasons := Finset.mem_insert

theorem exists_mem_concat {P : String × Json → Prop} :
    (∃ q ∈ l ++ [pair], P q) ↔ (∃ q ∈ l, P q) ∨ P pair := by
  simp only [List.mem_append, List.mem_singleton, or_and_right, exists_or, exists_eq_left]

/-- A pair left out. -/
theorem ProjectionOf.omit (h : ProjectionOf l invalidLegacyShape sizeLimit p)
    (hnew : pair.1 ∉ l.map Prod.fst) {reason : TagOmissionReason}
    (hinvalid : reason = .invalidLegacyShape ↔ validTagPair pair = false)
    (hsensitive : reason = .sensitiveKey ↔
      validTagPair pair = true ∧ containsSensitiveFragment pair.1 = true)
    (hlimited : reason = .sizeLimit ↔
      validTagPair pair = true ∧ containsSensitiveFragment pair.1 = false) :
    ProjectionOf (l ++ [pair]) invalidLegacyShape sizeLimit (p.omit reason) where
  keys := by
    rw [List.map_append]
    exact h.keys.trans (List.sublist_append_left _ _)
  bytes := h.bytes
  fits := h.fits
  entries := h.entries
  origin e he := by
    obtain ⟨value, hmem, hrest⟩ := h.origin e he
    exact ⟨value, List.mem_append_left _ hmem, hrest⟩
  invalid := by
    rw [mem_omit, eq_comm, hinvalid, h.invalid, exists_mem_concat, or_comm, or_assoc]
  sensitive := by
    rw [mem_omit, eq_comm, hsensitive, h.sensitive, exists_mem_concat, or_comm]
  limited := by
    have hkey : pair.1 ∉ p.projected.map Prod.fst := fun hmem => hnew (h.keys.subset hmem)
    rw [mem_omit, eq_comm, hlimited, h.limited, exists_mem_concat, or_comm, or_assoc]
    simp only [TagProjection.omit, hkey, not_false_eq_true, and_true]

/-- A pair kept. -/
theorem ProjectionOf.keep (h : ProjectionOf l invalidLegacyShape sizeLimit p)
    (hnew : pair.1 ∉ l.map Prod.fst) {value : String} (hvalue : pair.2 = .string value)
    (hvalid : validTagPair pair = true) (hsafe : containsSensitiveFragment pair.1 = false)
    (hroom : p.projected.length < auditTagMaxEntries)
    (hfits : tagBytes (p.projected ++ [safePair (pair.1, value)]) ≤ auditTagMaxBytes) :
    ProjectionOf (l ++ [pair]) invalidLegacyShape sizeLimit
      (p.keep (safePair (pair.1, value))) where
  keys := by
    rw [TagProjection.keep, List.map_append, List.map_append]
    exact h.keys.append_right _
  bytes := by
    rw [TagProjection.keep, tagBytes_concat, ← h.bytes]
    rfl
  fits := hfits
  entries := by
    rw [TagProjection.keep, List.length_append]
    exact hroom
  origin e he := by
    rcases List.mem_append.mp he with he | he
    · obtain ⟨old, hmem, hrest⟩ := h.origin e he
      exact ⟨old, List.mem_append_left _ hmem, hrest⟩
    · rw [List.mem_singleton.mp he]
      have hpair : (pair.1, Json.string value) = pair := by rw [← hvalue]
      refine ⟨value, List.mem_append_right _ (List.mem_singleton.mpr hpair), ?_, hsafe, rfl⟩
      rw [← hvalid, ← hpair]
      rfl
  invalid := by
    have hnot : ¬ validTagPair pair = false := by simp [hvalid]
    rw [exists_mem_concat, or_iff_left hnot]
    exact h.invalid
  sensitive := by
    have hnot : ¬(validTagPair pair = true ∧ containsSensitiveFragment pair.1 = true) := by
      simp [hsafe]
    rw [exists_mem_concat, or_iff_left hnot]
    exact h.sensitive
  limited := by
    -- no earlier key is that of the new pair
    have hother : ∀ q ∈ l, (q.1 ∉ (p.keep (safePair (pair.1, value))).projected.map Prod.fst ↔
        q.1 ∉ p.projected.map Prod.fst) := by
      intro q hq
      have hne : q.1 ≠ pair.1 := fun heq => hnew (heq ▸ List.mem_map_of_mem hq)
      rw [TagProjection.keep, List.map_append, List.mem_append, not_or]
      exact and_iff_left fun hmem => hne (List.mem_singleton.mp hmem)
    have hself : pair.1 ∈ (p.keep (safePair (pair.1, value))).projected.map Prod.fst := by
      rw [TagProjection.keep, List.map_append]
      exact List.mem_append_right _ (List.mem_singleton_self _)
    have hreasons : (p.keep (safePair (pair.1, value))).reasons = p.reasons := rfl
    rw [hreasons, h.limited]
    refine or_congr_right ⟨?_, ?_⟩
    · rintro ⟨q, hq, h1, h2, h3⟩
      exact ⟨q, List.mem_append_left _ hq, h1, h2, (hother q hq).mpr h3⟩
    · rintro ⟨q, hq, h1, h2, h3⟩
      rcases List.mem_append.mp hq with hq | hq
      · exact ⟨q, hq, h1, h2, (hother q hq).mp h3⟩
      · rw [List.mem_singleton.mp hq] at h3
        exact absurd hself h3

theorem ProjectionOf.step (h : ProjectionOf l invalidLegacyShape sizeLimit p)
    (hnew : pair.1 ∉ l.map Prod.fst) :
    ProjectionOf (l ++ [pair]) invalidLegacyShape sizeLimit (p.stepValue pair) := by
  obtain ⟨hinvalid, hstep⟩ | ⟨hvalid, hsensitive, hstep⟩ |
    ⟨value, hvalue, hvalid, hsafe, ⟨hroom, hfits, hstep⟩ | ⟨-, hstep⟩⟩ :=
      TagProjection.stepValue_cases pair h.bytes
  · rw [hstep]
    exact h.omit hnew (by simp [hinvalid]) (by simp [hinvalid]) (by simp [hinvalid])
  · rw [hstep]
    exact h.omit hnew (by simp [hvalid]) (by simp [hvalid, hsensitive]) (by simp [hsensitive])
  · rw [hstep]
    exact h.keep hnew hvalue hvalid hsafe hroom hfits
  · rw [hstep]
    exact h.omit hnew (by simp [hvalid]) (by simp [hsafe]) (by simp [hvalid, hsafe])

theorem projectionOf_foldl (invalidLegacyShape sizeLimit : Bool) {l : List (String × Json)}
    (hk : (l.map Prod.fst).Nodup) :
    ProjectionOf l invalidLegacyShape sizeLimit (l.foldl TagProjection.stepValue
      ⟨[], (if invalidLegacyShape then {.invalidLegacyShape} else ∅) ∪
        (if sizeLimit then {.sizeLimit} else ∅), 2⟩) := by
  induction l using List.reverseRecOn with
  | nil => exact projectionOf_nil
  | append_singleton l pair ih =>
    rw [List.map_append, List.map_singleton] at hk
    obtain ⟨hl, -, hdisjoint⟩ := List.nodup_append.mp hk
    rw [List.foldl_append]
    exact (ih hl).step fun hmem => hdisjoint _ hmem _ (List.mem_singleton_self _) rfl

/-- Later pairs only add entries of their own keys. -/
theorem foldl_extends (l : List (String × Json)) (p : TagProjection) :
    ∃ later, (l.foldl TagProjection.stepValue p).projected = p.projected ++ later ∧
      (later.map Prod.fst).Sublist (l.map Prod.fst) := by
  induction l generalizing p with
  | nil => exact ⟨[], (List.append_nil _).symm, List.Sublist.refl _⟩
  | cons pair l ih =>
    rw [List.foldl_cons, List.map_cons]
    obtain ⟨later, hlater, hsub⟩ := ih (p.stepValue pair)
    have hone : (p.stepValue pair).projected = p.projected ∨
        ∃ value, (p.stepValue pair).projected = p.projected ++ [(pair.1, value)] := by
      obtain ⟨key, value⟩ := pair
      cases value with
      | string value =>
        obtain ⟨reason, h⟩ | ⟨-, -, -, -, h⟩ := p.step_cases (key, value)
        · left
          change (p.step (key, value)).projected = p.projected
          rw [h]
          rfl
        · right
          refine ⟨(safePair (key, value)).2, ?_⟩
          change (p.step (key, value)).projected = _
          rw [h]
          rfl
      | _ => exact Or.inl rfl
    rcases hone with h | ⟨value, h⟩
    · exact ⟨later, by rw [hlater, h], hsub.cons _⟩
    · refine ⟨(pair.1, value) :: later, by rw [hlater, h, List.append_assoc]; rfl, ?_⟩
      rw [List.map_cons]
      exact hsub.cons_cons _

/-- What is kept of the keys before a given one. -/
def keptBefore (key : String) (projected : List (String × String)) : List (String × String) :=
  projected.filter fun e => decide (e.1 < key)

/-- **The greedy rule**: a valid pair of a harmless key is kept iff there is room for it after what
is kept of the smaller keys. -/
theorem kept_iff {tags : List (String × Json)} (hk : (tags.map Prod.fst).Nodup) {key value : String}
    (hmem : (key, Json.string value) ∈ tags)
    (hvalid : validTagPair (key, .string value) = true)
    (hsafe : containsSensitiveFragment key = false) :
    let projected := (projectTagValues tags invalidLegacyShape sizeLimit).projected
    key ∈ projected.map Prod.fst ↔
      (keptBefore key projected).length < auditTagMaxEntries ∧
        tagBytes (keptBefore key projected ++ [safePair (key, value)]) ≤ auditTagMaxBytes := by
  intro projected
  have hstrict := sortBy_strict hk
  obtain ⟨before, after, hsplit⟩ := List.append_of_mem
    (mem_sortBy.mpr hmem : (key, Json.string value) ∈ sortBy Prod.fst tags)
  unfold Strict at hstrict
  rw [hsplit] at hstrict
  obtain ⟨hbefore, hafter, hcross⟩ := List.pairwise_append.mp hstrict
  obtain ⟨hgreater, -⟩ := List.pairwise_cons.mp hafter
  have hbeforeKeys : (before.map Prod.fst).Nodup :=
    List.pairwise_map.mpr (hbefore.imp fun hlt => hlt.ne)
  -- the loop when it comes to this pair, and after it
  have hq := projectionOf_foldl invalidLegacyShape sizeLimit hbeforeKeys
  set q := before.foldl TagProjection.stepValue _ with hqdef
  obtain ⟨later, hlater, hlaterKeys⟩ := foldl_extends after (q.stepValue (key, .string value))
  have hprojected : projected = (q.stepValue (key, .string value)).projected ++ later := by
    rw [← hlater, hqdef, ← List.foldl_cons, ← List.foldl_append, ← hsplit]
    rfl
  have hsmall : ∀ e ∈ q.projected, e.1 < key := by
    intro e he
    obtain ⟨pair, hpair, heq⟩ := List.mem_map.mp (hq.keys.subset (List.mem_map_of_mem he))
    rw [← heq]
    exact hcross pair hpair (key, .string value) List.mem_cons_self
  have hlarge : ∀ e ∈ later, key < e.1 := by
    intro e he
    obtain ⟨pair, hpair, heq⟩ := List.mem_map.mp (hlaterKeys.subset (List.mem_map_of_mem he))
    rw [← heq]
    exact hgreater pair hpair
  have hfilter : ∀ middle : List (String × String), (∀ e ∈ middle, e.1 = key) →
      keptBefore key (q.projected ++ middle ++ later) = q.projected := by
    intro middle hmiddle
    unfold keptBefore
    rw [List.filter_append, List.filter_append,
      List.filter_eq_self.mpr fun e he => decide_eq_true (hsmall e he),
      List.filter_eq_nil_iff.mpr fun e he => by simp [hmiddle e he],
      List.filter_eq_nil_iff.mpr fun e he => by
        rw [decide_eq_true_eq]
        exact (hlarge e he).asymm,
      List.append_nil, List.append_nil]
  obtain ⟨hno, -⟩ | ⟨-, hno, -⟩ | ⟨text, htext, -, -, hstep⟩ :=
    TagProjection.stepValue_cases (key, .string value) hq.bytes
  · rw [hvalid] at hno
    cases hno
  · rw [hsafe] at hno
    cases hno
  obtain rfl := Json.string.inj htext
  obtain ⟨hroom, hfits, hkeep⟩ | ⟨hnot, homit⟩ := hstep
  · rw [hkeep] at hprojected
    have hbelow : keptBefore key projected = q.projected := by
      rw [hprojected]
      exact hfilter [safePair (key, value)] fun e he => by rw [List.mem_singleton.mp he]; rfl
    rw [hbelow]
    refine iff_of_true ?_ ⟨hroom, hfits⟩
    rw [hprojected]
    exact List.mem_map.mpr ⟨safePair (key, value), by simp [TagProjection.keep], rfl⟩
  · rw [homit] at hprojected
    have hbelow : keptBefore key projected = q.projected := by
      rw [hprojected]
      have hnone := hfilter [] (by simp)
      rwa [List.append_nil] at hnone
    rw [hbelow]
    refine iff_of_false ?_ hnot
    rw [hprojected, List.map_append, List.mem_append]
    rintro (hmem | hmem)
    · obtain ⟨e, he, heq⟩ := List.mem_map.mp hmem
      exact (hsmall e he).ne heq
    · obtain ⟨e, he, heq⟩ := List.mem_map.mp hmem
      exact (hlarge e he).ne heq.symm

end Loop

/-! ### The result -/

theorem placeholder_harmless : containsSensitiveFragment auditRedactionPlaceholder = false := by
  decide +kernel

theorem eventTagPairOk_safePair (pair : String × String)
    (h : validTagPair (pair.1, .string pair.2) = true) :
    eventTagPairOk (safePair pair).1 (safePair pair).2 = true := by
  have hpair := (validateEventTags_iff _).mp h
  have hok := hpair.2.1 pair (List.mem_singleton_self _)
  unfold safePair
  dsimp only
  split_ifs
  · unfold eventTagPairOk at hok ⊢
    simp only [Bool.and_eq_true] at hok ⊢
    exact ⟨⟨hok.1.1, by decide⟩, by decide⟩
  · exact hok

variable {l : List (String × Json)} {invalidLegacyShape sizeLimit : Bool} {p : TagProjection}

/-- The projection passes the response's validators. -/
theorem ProjectionOf.response (h : ProjectionOf l invalidLegacyShape sizeLimit p)
    (hk : (p.projected.map Prod.fst).Nodup) : responseTagsErrors ⟨p.projected, hk⟩ = [] := by
  have hpair : ∀ e ∈ p.projected, eventTagPairOk e.1 e.2 = true := by
    intro e he
    obtain ⟨value, -, hvalid, -, heq⟩ := h.origin e he
    rw [heq]
    exact eventTagPairOk_safePair (e.1, value) hvalid
  have hvalid : validateEventTags ⟨p.projected, hk⟩ = true := by
    rw [validateEventTags_iff]
    exact ⟨h.entries.trans (by decide), hpair, h.fits.trans (by decide)⟩
  unfold responseTagsErrors
  simp only [thenErrors_eq_nil, itemErrors_eq_nil, check_eq_nil, List.append_eq_nil_iff,
    eventTagKeyErrors, tagValueErrors_eq_nil, strErrors_eq_nil, decide_eq_true_eq]
  refine ⟨⟨fun e he => ?_, h.entries⟩, hvalid, h.fits⟩
  have hok := hpair e he
  unfold eventTagPairOk at hok
  simp only [Bool.and_eq_true, decide_eq_true_eq] at hok
  refine ⟨⟨⟨?_, hok.1.1.2⟩, hok.1.1.1⟩, hok.1.2⟩
  -- a key that matches has a first letter
  have hmatch := hok.1.1.1
  unfold matchesTagKey at hmatch
  cases hlist : e.1.toList with
  | nil =>
    rw [hlist] at hmatch
    cases hmatch
  | cons c cs =>
    rw [← String.length_toList, hlist]
    exact Nat.le_add_left 1 cs.length

theorem ProjectionOf.harmless (h : ProjectionOf l invalidLegacyShape sizeLimit p) :
    ∀ e ∈ p.projected, containsSensitiveFragment e.1 = false ∧
      containsSensitiveFragment e.2 = false := by
  intro e he
  obtain ⟨value, -, -, hkey, heq⟩ := h.origin e he
  refine ⟨hkey, ?_⟩
  rw [heq, safePair]
  dsimp only
  by_cases hvalue : containsSensitiveFragment value = true
  · rw [if_pos hvalue]
    exact placeholder_harmless
  · rw [if_neg hvalue]
    exact Bool.eq_false_of_not_eq_true hvalue

/-- No reason is given iff every pair is kept and no flag was set. -/
theorem ProjectionOf.reasons_eq_empty (h : ProjectionOf l invalidLegacyShape sizeLimit p)
    (hk : (l.map Prod.fst).Nodup) :
    p.reasons = ∅ ↔ (∀ pair ∈ l, pair.1 ∈ p.projected.map Prod.fst) ∧
      invalidLegacyShape = false ∧ sizeLimit = false := by
  constructor
  · intro hempty
    have hno : ∀ r, r ∉ p.reasons := fun r hr => by
      rw [hempty] at hr
      exact Finset.notMem_empty r hr
    have h1 := mt h.invalid.mpr (hno _)
    have h2 := mt h.sensitive.mpr (hno _)
    have h3 := mt h.limited.mpr (hno _)
    simp only [not_or, not_exists, not_and, Bool.not_eq_true, Bool.not_eq_false, not_not] at h1 h2 h3
    refine ⟨fun pair hpair => ?_, h1.1, h3.1⟩
    have hvalid := h1.2 pair hpair
    exact h3.2 pair hpair hvalid (h2 pair hpair hvalid)
  · rintro ⟨hall, hinvalid, hsize⟩
    -- a kept pair is valid and has a harmless key
    have hkept : ∀ pair ∈ l, validTagPair pair = true ∧ containsSensitiveFragment pair.1 = false := by
      intro pair hpair
      obtain ⟨e, he, hkey⟩ := List.mem_map.mp (hall pair hpair)
      obtain ⟨value, hmem, hvalid, hsafe, -⟩ := h.origin e he
      have hsame : (e.1, Json.string value) = pair :=
        List.inj_on_of_nodup_map hk hmem hpair hkey
      rw [← hsame]
      exact ⟨hvalid, hsafe⟩
    refine Finset.eq_empty_of_forall_notMem fun r hr => ?_
    cases r with
    | invalidLegacyShape =>
      obtain hflag | ⟨pair, hpair, hno⟩ := h.invalid.mp hr
      · rw [hinvalid] at hflag
        cases hflag
      · rw [(hkept pair hpair).1] at hno
        cases hno
    | sensitiveKey =>
      obtain ⟨pair, hpair, -, hno⟩ := h.sensitive.mp hr
      rw [(hkept pair hpair).2] at hno
      cases hno
    | sizeLimit =>
      obtain hflag | ⟨pair, hpair, -, -, hno⟩ := h.limited.mp hr
      · rw [hsize] at hflag
        cases hflag
      · exact hno (hall pair hpair)

/-- **Audit tags.**  Whatever the map and the flags: the projection is bounded, free of sensitive
text and fit for the response; each entry is an original pair, with the placeholder for a sensitive
value; a valid pair of a harmless key is kept iff there is room for it after what is kept of the
smaller keys; and the reasons are those for which a pair was left out or a flag was set. -/
theorem audit_tags (tags : Items String Json) (invalidLegacyShape sizeLimit : Bool) :
    let p := projectTagValues tags.entries invalidLegacyShape sizeLimit
    p.projected.length ≤ 32 ∧ tagBytes p.projected ≤ 4096 ∧
    (∃ hk : (p.projected.map Prod.fst).Nodup, responseTagsErrors ⟨p.projected, hk⟩ = []) ∧
    (∀ e ∈ p.projected, containsSensitiveFragment e.1 = false ∧
      containsSensitiveFragment e.2 = false) ∧
    (∀ e ∈ p.projected, ∃ value, (e.1, Json.string value) ∈ tags.entries ∧
      e.2 = if containsSensitiveFragment value then auditRedactionPlaceholder else value) ∧
    (∀ key value, (key, Json.string value) ∈ tags.entries →
      validTagPair (key, .string value) = true → containsSensitiveFragment key = false →
      (key ∈ p.projected.map Prod.fst ↔ (keptBefore key p.projected).length < 32 ∧
        tagBytes (keptBefore key p.projected ++ [safePair (key, value)]) ≤ 4096)) ∧
    (.invalidLegacyShape ∈ p.reasons ↔
      invalidLegacyShape = true ∨ ∃ pair ∈ tags.entries, validTagPair pair = false) ∧
    (.sensitiveKey ∈ p.reasons ↔ ∃ pair ∈ tags.entries,
      validTagPair pair = true ∧ containsSensitiveFragment pair.1 = true) ∧
    (.sizeLimit ∈ p.reasons ↔ sizeLimit = true ∨ ∃ pair ∈ tags.entries,
      validTagPair pair = true ∧ containsSensitiveFragment pair.1 = false ∧
        pair.1 ∉ p.projected.map Prod.fst) ∧
    (p.reasons = ∅ ↔ (∀ pair ∈ tags.entries, pair.1 ∈ p.projected.map Prod.fst) ∧
      invalidLegacyShape = false ∧ sizeLimit = false) := by
  intro p
  have hsorted : ((sortBy Prod.fst tags.entries).map Prod.fst).Nodup :=
    List.pairwise_map.mpr ((sortBy_strict tags.nodup).imp fun hlt => hlt.ne)
  have h : ProjectionOf (sortBy Prod.fst tags.entries) invalidLegacyShape sizeLimit p :=
    projectionOf_foldl _ _ hsorted
  have hreasons := h.reasons_eq_empty hsorted
  have hinvalid := h.invalid
  have hsensitive := h.sensitive
  have hlimited := h.limited
  simp only [mem_sortBy] at hreasons hinvalid hsensitive hlimited
  refine ⟨h.entries, h.fits, ⟨hsorted.sublist h.keys, h.response _⟩, h.harmless, fun e he => ?_,
    fun key value hmem hvalid hsafe => kept_iff tags.nodup hmem hvalid hsafe, hinvalid, hsensitive,
    hlimited, hreasons⟩
  obtain ⟨value, hmem, -, -, heq⟩ := h.origin e he
  exact ⟨value, mem_sortBy.mp hmem, congrArg Prod.snd heq⟩

/-- A tag whose value looks like a token, one without a value and one in order. -/
def sampleAuditTags : Items String Json :=
  ⟨[("site", .string "berlin"), ("level", .int 3), ("note", .string "uses Token x")], by decide⟩

example : (projectTagValues sampleAuditTags.entries false false).projected =
    [("note", "[redacted]"), ("site", "berlin")] := by
  decide +kernel

theorem audit_tags_sample :
    "site" ∈ (projectTagValues sampleAuditTags.entries false false).projected.map Prod.fst ↔
      (keptBefore "site" (projectTagValues sampleAuditTags.entries false false).projected).length
          < 32 ∧
        tagBytes (keptBefore "site"
          (projectTagValues sampleAuditTags.entries false false).projected ++
            [safePair ("site", "berlin")]) ≤ 4096 :=
  (audit_tags sampleAuditTags false false).2.2.2.2.2.1 "site" "berlin" (by simp [sampleAuditTags])
    (by decide +kernel) (by decide +kernel)

end Correlia
