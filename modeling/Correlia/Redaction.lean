import Correlia.Persistence.Redaction

/-!
# Redaction — what the stored snapshot still says

`at?_redactValue` reads a redacted tree path by path: below a sensitive key there is the
placeholder, anywhere else the redaction of what was there.  The positions the code counts are
listed by `sensitivePaths`.
-/

namespace Correlia

open Lib Json

/-- The lower-cased text holds a fragment. -/
def Sensitive (text : String) : Prop := ∃ f ∈ auditSensitiveFragments, f.toList <:+: lower text

theorem containsSensitiveFragment_iff {text : String} :
    containsSensitiveFragment text = true ↔ Sensitive text := by
  simp [containsSensitiveFragment, Sensitive, hasFragment]

theorem sensitiveKey_eq (key : String) : sensitiveKey key = containsSensitiveFragment key := by
  simp only [sensitiveKey, containsSensitiveFragment, hasFragment, lower_lower]

theorem sensitiveKey_iff {key : String} : sensitiveKey key = true ↔ Sensitive key := by
  rw [sensitiveKey_eq, containsSensitiveFragment_iff]

instance (text : String) : Decidable (Sensitive text) :=
  decidable_of_iff _ containsSensitiveFragment_iff

theorem placeholder_not_sensitive : ¬Sensitive auditRedactionPlaceholder := by decide

/-! ### Containers -/

/-- The value stored under a key. -/
def redactField (key : String) (sub : Json) : Json :=
  if sensitiveKey key then .string auditRedactionPlaceholder else redactValue sub

theorem redactItems_eq (items : List Json) : redactItems items = items.map redactValue := by
  induction items with
  | nil => rfl
  | cons item rest ih => rw [redactItems, ih, List.map_cons]

theorem redactFields_eq (fields : List (String × Json)) :
    redactFields fields = fields.map fun e => (e.1, redactField e.1 e.2) := by
  induction fields with
  | nil => rfl
  | cons e rest ih =>
    obtain ⟨key, sub⟩ := e
    rw [redactFields, ih, List.map_cons, redactField]

theorem redactFields_keys (fields : List (String × Json)) :
    (redactFields fields).map Prod.fst = fields.map Prod.fst := by
  rw [redactFields_eq, List.map_map]
  rfl

theorem getItem_redactFields (key : String) (fields : List (String × Json)) :
    getItem key (redactFields fields) = (getItem key fields).map (redactField key) := by
  induction fields with
  | nil => rfl
  | cons e rest ih =>
    rw [redactFields_eq] at ih ⊢
    rw [List.map_cons, getItem_cons, getItem_cons, ih]
    by_cases h : e.1 = key
    · rw [if_pos h, if_pos h, ← h]
      rfl
    · rw [if_neg h, if_neg h]

/-! ### Reading a redacted tree -/

/-- No step of the path is a sensitive key. -/
def Exposed (p : Path) : Prop := ∀ k, Step.key k ∈ p → ¬Sensitive k

/-- The last step of the path is its first sensitive key. -/
def AtSecret (p : Path) : Prop := ∃ q k, p = q ++ [Step.key k] ∧ Exposed q ∧ Sensitive k

theorem exposed_nil : Exposed [] := by simp [Exposed]

theorem exposed_cons_index {n : ℕ} {p : Path} : Exposed (.index n :: p) ↔ Exposed p := by
  simp [Exposed]

theorem exposed_cons_key {k : String} {p : Path} :
    Exposed (.key k :: p) ↔ ¬Sensitive k ∧ Exposed p := by
  simp [Exposed, or_imp, forall_and]

/-- A path is at a secret behind a step that is not one. -/
theorem atSecret_cons {s : Step} {p : Path} (hs : ∀ k, s = .key k → ¬Sensitive k) :
    AtSecret (s :: p) ↔ AtSecret p := by
  constructor
  · rintro ⟨q, k, hp, hq, hk⟩
    cases q with
    | nil =>
      obtain ⟨rfl, rfl⟩ := List.cons.inj hp
      exact absurd hk (hs k rfl)
    | cons s' q =>
      obtain ⟨rfl, rfl⟩ := List.cons.inj hp
      exact ⟨q, k, rfl, fun k' hk' => hq k' (List.mem_cons_of_mem _ hk'), hk⟩
  · rintro ⟨q, k, rfl, hq, hk⟩
    refine ⟨s :: q, k, rfl, fun k' hk' => ?_, hk⟩
    rcases List.mem_cons.mp hk' with h | h
    · exact hs k' h.symm
    · exact hq k' h

/-- The members of a redacted value are the redacted members. -/
theorem child_redactValue (j : Json) (s : Step) :
    (redactValue j).child s = (j.child s).map fun c =>
      match s with
      | .key k => redactField k c
      | .index _ => redactValue c := by
  cases j with
  | object fields =>
    cases s with
    | key k => exact getItem_redactFields k fields
    | index n => rfl
  | array items =>
    cases s with
    | key k => rfl
    | index n =>
      show (redactItems items)[n]? = items[n]?.map redactValue
      rw [redactItems_eq, List.getElem?_map]
  | _ => rfl

theorem at?_string {s : String} {p : Path} {v : Json} (h : (Json.string s).at? p = some v) :
    p = [] ∧ v = .string s := by
  cases p with
  | nil =>
    cases h
    exact ⟨rfl, rfl⟩
  | cons s' p => cases h

/-- **Reading a redacted tree**: what is found at a path is the placeholder, when the path ends at
its first sensitive key, and otherwise the redaction of what was there. -/
theorem at?_redactValue {j v : Json} {p : Path} (h : (redactValue j).at? p = some v) :
    (AtSecret p ∧ v = .string auditRedactionPlaceholder ∧ (j.at? p).isSome = true) ∨
      (Exposed p ∧ ∃ w, j.at? p = some w ∧ v = redactValue w) := by
  induction p generalizing j with
  | nil =>
    rw [at?_nil, Option.some.injEq] at h
    exact Or.inr ⟨exposed_nil, j, at?_nil j, h.symm⟩
  | cons s p ih =>
    rw [at?_cons, child_redactValue] at h
    cases hc : j.child s with
    | none =>
      rw [hc] at h
      cases h
    | some c =>
      rw [hc] at h
      rw [at?_cons, hc]
      cases s with
      | index n =>
        rw [atSecret_cons (by simp), exposed_cons_index]
        exact ih h
      | key k =>
        by_cases hk : Sensitive k
        · have hfield : redactField k c = .string auditRedactionPlaceholder :=
            if_pos (sensitiveKey_iff.mpr hk)
          change (redactField k c).at? p = some v at h
          rw [hfield] at h
          obtain ⟨rfl, rfl⟩ := at?_string h
          exact Or.inl ⟨⟨[], k, rfl, exposed_nil, hk⟩, rfl, by simp⟩
        · have hfield : redactField k c = redactValue c :=
            if_neg fun h => hk (sensitiveKey_iff.mp h)
          change (redactField k c).at? p = some v at h
          rw [hfield] at h
          rw [atSecret_cons (by simpa using hk), exposed_cons_key]
          rcases ih h with hsecret | ⟨hp, hw⟩
          · exact Or.inl hsecret
          · exact Or.inr ⟨⟨hk, hp⟩, hw⟩

theorem redactValue_placeholder :
    redactValue (.string auditRedactionPlaceholder) = .string auditRedactionPlaceholder := by
  rw [redactValue, if_neg]
  exact fun h => placeholder_not_sensitive (containsSensitiveFragment_iff.mp h)

theorem redactField_redactField (key : String) {sub : Json}
    (ih : redactValue (redactValue sub) = redactValue sub) :
    redactField key (redactField key sub) = redactField key sub := by
  unfold redactField
  by_cases h : sensitiveKey key = true
  · rw [if_pos h, if_pos h]
  · rw [if_neg h, if_neg h, ih]

theorem redactFields_redactFields {fields : List (String × Json)}
    (ih : ∀ e ∈ fields, redactValue (redactValue e.2) = redactValue e.2) :
    redactFields (redactFields fields) = redactFields fields := by
  induction fields with
  | nil => rfl
  | cons e rest ihr =>
    obtain ⟨key, sub⟩ := e
    have hsub := redactField_redactField key (ih (key, sub) List.mem_cons_self)
    simp only [redactField] at hsub
    rw [redactFields, redactFields, ihr fun e he => ih e (List.mem_cons_of_mem _ he), hsub]

theorem redactItems_redactItems {items : List Json}
    (ih : ∀ j ∈ items, redactValue (redactValue j) = redactValue j) :
    redactItems (redactItems items) = redactItems items := by
  induction items with
  | nil => rfl
  | cons j rest ihr =>
    rw [redactItems, redactItems, ih j List.mem_cons_self,
      ihr fun j hj => ih j (List.mem_cons_of_mem _ hj)]

/-- Redacting a redacted value changes nothing. -/
theorem redactValue_redactValue (j : Json) : redactValue (redactValue j) = redactValue j := by
  induction j using Json.induction with
  | string s =>
    rw [redactValue]
    by_cases h : containsSensitiveFragment s = true
    · rw [if_pos h, redactValue_placeholder]
    · rw [if_neg h, redactValue, if_neg h]
  | array items ih => rw [redactValue, redactValue, redactItems_redactItems ih]
  | object fields ih => rw [redactValue, redactValue, redactFields_redactFields ih]
  | _ => rfl

/-! ### The counted positions -/

mutual

/-- The sensitive positions of a value that are not below a sensitive key. -/
def sensitivePaths : Json → List Path
  | .object fields => fieldPaths fields
  | .array items => itemPaths 0 items
  | .string s => if containsSensitiveFragment s then [[]] else []
  | _ => []

def itemPaths (n : ℕ) : List Json → List Path
  | [] => []
  | item :: rest => (sensitivePaths item).map (Step.index n :: ·) ++ itemPaths (n + 1) rest

def fieldPaths : List (String × Json) → List Path
  | [] => []
  | (key, sub) :: rest =>
    (if sensitiveKey key then [[Step.key key]]
      else (sensitivePaths sub).map (Step.key key :: ·)) ++ fieldPaths rest

end

/-- The position of a sensitive entry or of a sensitive text, not below a sensitive key. -/
def SensitiveAt (j : Json) (p : Path) : Prop :=
  (AtSecret p ∧ (j.at? p).isSome = true) ∨
    (Exposed p ∧ ∃ s, j.at? p = some (.string s) ∧ Sensitive s)

theorem countRedactedItems_eq {items : List Json}
    (ih : ∀ j ∈ items, countRedactedLeaves j (redactValue j) = (sensitivePaths j).length) (n : ℕ) :
    countRedactedItems items (redactItems items) = (itemPaths n items).length := by
  induction items generalizing n with
  | nil => rfl
  | cons item rest ihr =>
    rw [redactItems, countRedactedItems, itemPaths, List.length_append, List.length_map,
      ih item List.mem_cons_self, ihr (fun j hj => ih j (List.mem_cons_of_mem _ hj))]

/-- The lookup of a key of the object finds the redaction of its value. -/
theorem countRedactedFields_eq {fields all : List (String × Json)}
    (hall : ∀ e ∈ fields, getItem e.1 (redactFields all) = some (redactField e.1 e.2))
    (ih : ∀ e ∈ fields, countRedactedLeaves e.2 (redactValue e.2) = (sensitivePaths e.2).length) :
    countRedactedFields fields (redactFields all) = (fieldPaths fields).length := by
  induction fields with
  | nil => rfl
  | cons e rest ihr =>
    obtain ⟨key, sub⟩ := e
    have hget := hall (key, sub) List.mem_cons_self
    have hsub := ih (key, sub) List.mem_cons_self
    rw [countRedactedFields, fieldPaths, List.length_append, hget, Option.getD_some,
      ihr (fun e he => hall e (List.mem_cons_of_mem _ he))
        (fun e he => ih e (List.mem_cons_of_mem _ he)), redactField]
    by_cases hk : sensitiveKey key = true
    · simp [hk]
    · simp [hk, hsub]

theorem countRedactedLeaves_eq {j : Json} (hd : j.Distinct) :
    countRedactedLeaves j (redactValue j) = (sensitivePaths j).length := by
  induction j using Json.induction with
  | string s =>
    rw [redactValue, countRedactedLeaves, sensitivePaths, scalarNe]
    by_cases h : containsSensitiveFragment s = true
    · rw [if_pos h, if_pos h]
      have hne : s ≠ auditRedactionPlaceholder := by
        rintro rfl
        exact placeholder_not_sensitive (containsSensitiveFragment_iff.mp h)
      simp [hne]
    · simp [h]
    · simp
    · simp
  | array items ih =>
    exact countRedactedItems_eq (fun j hj => ih j hj (hd.items j hj)) 0
  | object fields ih =>
    refine countRedactedFields_eq (fun e he => ?_) fun e he => ih e he (hd.values e he)
    rw [getItem_redactFields, (getItem_eq_some hd.keys).mpr he]
    rfl
  | _ => simp [redactValue, countRedactedLeaves, scalarNe, sensitivePaths]

theorem mem_itemPaths {n : ℕ} {items : List Json} {p : Path} :
    p ∈ itemPaths n items ↔ ∃ i c q, items[i]? = some c ∧ p = .index (n + i) :: q ∧
      q ∈ sensitivePaths c := by
  induction items generalizing n with
  | nil => simp [itemPaths]
  | cons item rest ih =>
    rw [itemPaths, List.mem_append, List.mem_map, ih]
    constructor
    · rintro (⟨q, hq, rfl⟩ | ⟨i, c, q, hc, rfl, hq⟩)
      · exact ⟨0, item, q, rfl, rfl, hq⟩
      · exact ⟨i + 1, c, q, hc, by rw [Nat.add_right_comm, Nat.add_assoc], hq⟩
    · rintro ⟨i, c, q, hc, rfl, hq⟩
      cases i with
      | zero =>
        obtain rfl : item = c := by simpa using hc
        exact Or.inl ⟨q, hq, rfl⟩
      | succ i => exact Or.inr ⟨i, c, q, by simpa using hc, by rw [Nat.add_right_comm,
          Nat.add_assoc], hq⟩

theorem mem_fieldPaths {fields : List (String × Json)} {p : Path} :
    p ∈ fieldPaths fields ↔ ∃ e ∈ fields, ∃ q, p = .key e.1 :: q ∧
      ((Sensitive e.1 ∧ q = []) ∨ (¬Sensitive e.1 ∧ q ∈ sensitivePaths e.2)) := by
  induction fields with
  | nil => simp [fieldPaths]
  | cons e rest ih =>
    obtain ⟨key, sub⟩ := e
    rw [fieldPaths, List.mem_append, ih, List.exists_mem_cons_iff]
    refine or_congr ?_ Iff.rfl
    by_cases hk : Sensitive key
    · rw [if_pos (sensitiveKey_iff.mpr hk)]
      simp [hk]
    · rw [if_neg fun h => hk (sensitiveKey_iff.mp h)]
      simp only [List.mem_map, hk, false_and, not_false_eq_true, true_and, false_or]
      exact exists_congr fun q => ⟨fun h => ⟨h.2.symm, h.1⟩, fun h => ⟨h.2, h.1.symm⟩⟩

/-! A counted position, one step at a time. -/

theorem not_atSecret_nil : ¬AtSecret [] := by
  rintro ⟨q, k, h, -⟩
  simp at h

theorem sensitiveAt_nil {j : Json} : SensitiveAt j [] ↔ ∃ s, j = .string s ∧ Sensitive s := by
  simp [SensitiveAt, not_atSecret_nil, exposed_nil]

theorem sensitiveAt_index {j : Json} {n : ℕ} {p : Path} :
    SensitiveAt j (.index n :: p) ↔ ∃ c, j.child (.index n) = some c ∧ SensitiveAt c p := by
  rw [SensitiveAt, atSecret_cons (by simp), exposed_cons_index, at?_cons]
  cases j.child (.index n) with
  | none => simp
  | some c => simp [SensitiveAt]

theorem atSecret_secret {k : String} (hk : Sensitive k) {p : Path} :
    AtSecret (.key k :: p) ↔ p = [] := by
  constructor
  · rintro ⟨q, k', hp, hq, -⟩
    cases q with
    | nil => exact (List.cons.inj hp).2
    | cons s q =>
      obtain ⟨rfl, -⟩ := List.cons.inj hp
      exact absurd hk (hq k List.mem_cons_self)
  · rintro rfl
    exact ⟨[], k, rfl, exposed_nil, hk⟩

theorem sensitiveAt_key {j : Json} {k : String} {p : Path} :
    SensitiveAt j (.key k :: p) ↔ ∃ c, j.child (.key k) = some c ∧
      ((Sensitive k ∧ p = []) ∨ (¬Sensitive k ∧ SensitiveAt c p)) := by
  rw [SensitiveAt, exposed_cons_key, at?_cons]
  by_cases hk : Sensitive k
  · rw [atSecret_secret hk]
    cases j.child (.key k) with
    | none => simp
    | some c =>
      simp only [hk, not_true_eq_false, false_and, or_false, true_and, Option.bind_some,
        Option.some.injEq, exists_eq_left']
      constructor
      · exact And.left
      · rintro rfl
        exact ⟨rfl, by simp⟩
  · rw [atSecret_cons (by simpa using hk)]
    cases j.child (.key k) with
    | none => simp
    | some c => simp [SensitiveAt, hk]

theorem mem_sensitivePaths {j : Json} (hd : j.Distinct) {p : Path} :
    p ∈ sensitivePaths j ↔ SensitiveAt j p := by
  induction p generalizing j with
  | nil =>
    rw [sensitiveAt_nil]
    cases j with
    | string s =>
      rw [sensitivePaths]
      by_cases h : containsSensitiveFragment s = true
      · simp [h, containsSensitiveFragment_iff.mp h]
      · have hs : ¬Sensitive s := fun hs => h (containsSensitiveFragment_iff.mpr hs)
        simp [h, hs]
    | array items => simp [sensitivePaths, mem_itemPaths]
    | object fields => simp [sensitivePaths, mem_fieldPaths]
    | _ => simp [sensitivePaths]
  | cons s p ih =>
    cases s with
    | index n =>
      rw [sensitiveAt_index]
      cases j with
      | array items =>
        rw [sensitivePaths, mem_itemPaths]
        constructor
        · rintro ⟨i, c, q, hc, hp, hq⟩
          obtain ⟨hn, rfl⟩ := List.cons.inj hp
          obtain rfl : n = i := by simpa using hn
          have hn : (Json.array items).child (.index n) = some c := hc
          exact ⟨c, hc, (ih (hd.child hn)).mp hq⟩
        · rintro ⟨c, hc, hp⟩
          exact ⟨n, c, p, hc, by rw [Nat.zero_add], (ih (hd.child hc)).mpr hp⟩
      | object fields => simp [sensitivePaths, mem_fieldPaths, Json.child]
      | string s => simp [sensitivePaths, Json.child]
      | _ => simp [sensitivePaths, Json.child]
    | key k =>
      rw [sensitiveAt_key]
      cases j with
      | object fields =>
        rw [sensitivePaths, mem_fieldPaths]
        constructor
        · rintro ⟨e, he, q, hp, hq⟩
          obtain ⟨hk, rfl⟩ := List.cons.inj hp
          obtain rfl : k = e.1 := by simpa using hk
          have hc : (Json.object fields).child (.key e.1) = some e.2 :=
            (getItem_eq_some hd.keys).mpr he
          refine ⟨e.2, hc, hq.imp id fun h => ⟨h.1, (ih (hd.child hc)).mp h.2⟩⟩
        · rintro ⟨c, hc, hp⟩
          exact ⟨(k, c), mem_of_getItem hc, p, rfl,
            hp.imp id fun h => ⟨h.1, (ih (hd.child hc)).mpr h.2⟩⟩
      | array items => simp [sensitivePaths, mem_itemPaths, Json.child]
      | _ => simp [sensitivePaths, Json.child]

/-- Paths of different entries differ in their first step. -/
theorem itemPaths_nodup {items : List Json} (ih : ∀ j ∈ items, (sensitivePaths j).Nodup) (n : ℕ) :
    (itemPaths n items).Nodup := by
  induction items generalizing n with
  | nil => simp [itemPaths]
  | cons item rest ihr =>
    rw [itemPaths]
    refine List.nodup_append'.mpr ⟨(ih item List.mem_cons_self).map (List.cons_injective),
      ihr (fun j hj => ih j (List.mem_cons_of_mem _ hj)) (n + 1), ?_⟩
    intro p hp hp'
    obtain ⟨q, -, rfl⟩ := List.mem_map.mp hp
    obtain ⟨i, c, q', -, he, -⟩ := mem_itemPaths.mp hp'
    have hn : n = n + 1 + i := by simpa using (List.cons.inj he).1
    omega

theorem fieldPaths_nodup {fields : List (String × Json)} (hk : (fields.map Prod.fst).Nodup)
    (ih : ∀ e ∈ fields, (sensitivePaths e.2).Nodup) : (fieldPaths fields).Nodup := by
  induction fields with
  | nil => simp [fieldPaths]
  | cons e rest ihr =>
    obtain ⟨key, sub⟩ := e
    obtain ⟨hnot, hrest⟩ := List.nodup_cons.mp hk
    have hhead : ∀ p ∈ (if sensitiveKey key then [[Step.key key]]
        else (sensitivePaths sub).map (Step.key key :: ·)), p.head? = some (.key key) := by
      intro p hp
      split_ifs at hp with h
      · rw [List.mem_singleton.mp hp]
        rfl
      · obtain ⟨q, -, rfl⟩ := List.mem_map.mp hp
        rfl
    rw [fieldPaths]
    refine List.nodup_append'.mpr ⟨?_, ihr hrest fun e he => ih e (List.mem_cons_of_mem _ he), ?_⟩
    · split_ifs with h
      · exact List.nodup_singleton _
      · exact (ih (key, sub) List.mem_cons_self).map List.cons_injective
    · intro p hp hp'
      obtain ⟨e, he, q, rfl, -⟩ := mem_fieldPaths.mp hp'
      have hkey : e.1 = key := by simpa using hhead _ hp
      exact hnot (List.mem_map.mpr ⟨e, he, hkey⟩)

theorem sensitivePaths_nodup {j : Json} (hd : j.Distinct) : (sensitivePaths j).Nodup := by
  induction j using Json.induction with
  | string s =>
    rw [sensitivePaths]
    split_ifs <;> simp
  | array items ih => exact itemPaths_nodup (fun j hj => ih j hj (hd.items j hj)) 0
  | object fields ih => exact fieldPaths_nodup hd.keys fun e he => ih e he (hd.values e he)
  | _ => simp [sensitivePaths]

/-- The count is the number of sensitive positions. -/
theorem countRedactedLeaves_ncard {j : Json} (hd : j.Distinct) :
    countRedactedLeaves j (redactValue j) = {p | SensitiveAt j p}.ncard := by
  have hset : {p | SensitiveAt j p} = ((sensitivePaths j).toFinset : Set Path) := by
    ext p
    rw [List.coe_toFinset]
    exact (mem_sensitivePaths hd).symm
  rw [countRedactedLeaves_eq hd, hset, Set.ncard_coe_finset,
    List.toFinset_card_of_nodup (sensitivePaths_nodup hd)]

/-! ### The cap -/

theorem capLoop_sublist (maxBytes : ℤ) (fields : List (ℤ × String)) (stored : ℤ)
    (payload : List (String × Json)) : (capLoop maxBytes fields stored payload).Sublist payload := by
  induction fields generalizing stored payload with
  | nil => exact List.Sublist.refl _
  | cons f rest ih =>
    obtain ⟨fieldBytes, key⟩ := f
    rw [capLoop]
    split_ifs
    · exact List.Sublist.refl _
    · exact (ih _ _).trans List.filter_sublist
    · exact (ih _ _).trans List.filter_sublist

/-- The cap only drops whole top-level fields. -/
theorem semanticCapPayload_sublist (payload : List (String × Json)) (maxBytes : ℤ) :
    (semanticCapPayload payload maxBytes).payload.Sublist payload := by
  unfold semanticCapPayload
  simp only
  split_ifs
  · exact List.Sublist.refl _
  · exact capLoop_sublist _ _ _ _

/-! ### The stored payload -/

/-- A value without its members: a scalar, a number of positions, or the keys in order. -/
def outline : Json → Json
  | .array items => .array (items.map fun _ => .null)
  | .object fields => .object (fields.map fun e => (e.1, .null))
  | j => j

/-- Only a sensitive text is outlined differently by its redaction. -/
theorem outline_redactValue (w : Json) :
    (∃ s, w = .string s ∧ Sensitive s) ∨ outline (redactValue w) = outline w := by
  cases w with
  | string s =>
    by_cases hs : Sensitive s
    · exact Or.inl ⟨s, rfl, hs⟩
    · right
      rw [redactValue, if_neg fun h => hs (containsSensitiveFragment_iff.mp h)]
  | array items =>
    right
    rw [redactValue, redactItems_eq, outline, outline, List.map_map]
    rfl
  | object fields =>
    right
    rw [redactValue, redactFields_eq, outline, outline, List.map_map]
    rfl
  | _ => exact Or.inr rfl

theorem redactValue_eq_string {w : Json} {s : String} (h : redactValue w = .string s) :
    ¬Sensitive s := by
  cases w with
  | string t =>
    rw [redactValue, Json.string.injEq] at h
    subst h
    split_ifs with ht
    · exact placeholder_not_sensitive
    · exact fun hs => ht (containsSensitiveFragment_iff.mpr hs)
  | _ => cases h

/-- What holds of a stored payload, path by path, against the original. -/
structure Snapshot (source stored : Json) : Prop where
  /-- The value under a sensitive key is the placeholder. -/
  secret : ∀ q k v, stored.at? (q ++ [.key k]) = some v → Sensitive k →
    v = .string auditRedactionPlaceholder
  /-- No text is sensitive. -/
  text : ∀ p s, stored.at? p = some (.string s) → ¬Sensitive s
  /-- A position below the root was there before, and but for secrets and sensitive texts is as it
  was: the same scalar, the same number of positions, the same keys in the same order. -/
  kept : ∀ p v, p ≠ [] → stored.at? p = some v →
    (AtSecret p ∧ (source.at? p).isSome = true) ∨ (Exposed p ∧ ∃ w, source.at? p = some w ∧
      ((∃ s, w = .string s ∧ Sensitive s) ∨ outline v = outline w))

/-- A path whose last key is sensitive is at a secret or not exposed. -/
theorem not_exposed_secret {q : Path} {k : String} (hk : Sensitive k) :
    ¬Exposed (q ++ [.key k]) := fun h => h k (by simp) hk

theorem at?_object_sublist {fields stored : List (String × Json)} (hs : stored.Sublist fields)
    (hk : (fields.map Prod.fst).Nodup) {p : Path} (hp : p ≠ []) {v : Json}
    (h : (Json.object stored).at? p = some v) : (Json.object fields).at? p = some v := by
  cases p with
  | nil => exact absurd rfl hp
  | cons s p =>
    rw [at?_cons] at h ⊢
    obtain ⟨c, hc, hcp⟩ := Option.bind_eq_some_iff.mp h
    cases s with
    | index n => cases hc
    | key k =>
      have hget : (Json.object fields).child (.key k) = some c := getItem_of_sublist hs hk hc
      rw [hget]
      exact hcp

/-- Dropping top-level fields of the redacted object leaves a snapshot. -/
theorem snapshot_of_sublist {fields stored : List (String × Json)}
    (hd : (Json.object fields).Distinct) (hs : stored.Sublist (redactFields fields)) :
    Snapshot (.object fields) (.object stored) := by
  have hkeys : ((redactFields fields).map Prod.fst).Nodup := by
    rw [redactFields_keys]
    exact hd.keys
  have hread : ∀ p v, p ≠ [] → (Json.object stored).at? p = some v →
      (redactValue (.object fields)).at? p = some v :=
    fun p v hp h => at?_object_sublist hs hkeys hp h
  constructor
  · intro q k v h hk
    rcases at?_redactValue (hread _ v (by simp) h) with ⟨-, hv, -⟩ | ⟨hexp, -⟩
    · exact hv
    · exact absurd hexp (not_exposed_secret hk)
  · intro p s h
    have hp : p ≠ [] := by
      rintro rfl
      cases h
    rcases at?_redactValue (hread p _ hp h) with ⟨-, hv, -⟩ | ⟨-, w, -, hw⟩
    · obtain rfl : s = auditRedactionPlaceholder := by simpa using hv
      exact placeholder_not_sensitive
    · exact redactValue_eq_string hw.symm
  · intro p v hp h
    rcases at?_redactValue (hread p v hp h) with ⟨hat, -, hsome⟩ | ⟨hexp, w, hw, rfl⟩
    · exact Or.inl ⟨hat, hsome⟩
    · exact Or.inr ⟨hexp, w, hw, outline_redactValue w⟩

/-- A part of a redacted object is redacted already. -/
theorem redactFields_of_sublist {fields stored : List (String × Json)}
    (hs : stored.Sublist (redactFields fields)) : redactFields stored = stored := by
  have hfix : ∀ e ∈ redactFields fields, redactField e.1 e.2 = e.2 := by
    intro e he
    rw [redactFields_eq] at he
    obtain ⟨e, -, rfl⟩ := List.mem_map.mp he
    dsimp only
    rw [redactField_redactField e.1 (redactValue_redactValue e.2)]
  have hall : ∀ e ∈ stored, redactField e.1 e.2 = e.2 := fun e he => hfix e (hs.subset he)
  clear hs
  induction stored with
  | nil => rfl
  | cons e rest ih =>
    obtain ⟨key, sub⟩ := e
    have hsub := hall (key, sub) List.mem_cons_self
    simp only [redactField] at hsub
    rw [redactFields, ih fun e he => hall e (List.mem_cons_of_mem _ he), hsub]

/-- **Redaction.**  For every JSON object and every cap of at least two bytes the payload is
stored; it is a snapshot of the original whose top-level keys come in the original order, redacting
it again changes nothing, and the count is the number of sensitive entries and texts of the whole
original that are not below a sensitive key. -/
theorem redaction (hmac : String → List Char → HexDigest) (payload : JsonDict) (maxBytes : ℤ)
    (hmacKey : String) (hmax : 2 ≤ maxBytes) (hkey : hmacKey ≠ "") :
    ∃ r, redactPayload hmac (some payload) maxBytes hmacKey = .ok r ∧
      Snapshot (.object payload.fields) (.object r.payload) ∧
      (r.payload.map Prod.fst).Sublist (payload.fields.map Prod.fst) ∧
      redactValue (.object r.payload) = .object r.payload ∧
      r.redactedPathCount = {p | SensitiveAt (.object payload.fields) p}.ncard := by
  have hcoerce : coerceHmacKey hmacKey = .ok hmacKey := if_neg hkey
  unfold redactPayload
  rw [if_neg (by omega), hcoerce]
  refine ⟨_, rfl, ?_, ?_, ?_, ?_⟩
  · exact snapshot_of_sublist payload.distinct (semanticCapPayload_sublist _ _)
  · have hkeys := (semanticCapPayload_sublist (redactFields payload.fields)
      (min maxBytes (byteLength (Json.object payload.fields).canonicalJson))).map Prod.fst
    rw [redactFields_keys] at hkeys
    exact hkeys
  · rw [redactValue, redactFields_of_sublist (semanticCapPayload_sublist _ _)]
  · exact countRedactedLeaves_ncard payload.distinct

/-- A token two levels down and a password in a list. -/
def samplePayloadObject : JsonDict where
  fields := [("host", .string "db1"), ("vars", .object [("api_key", .int 7), ("os", .null)]),
    ("notes", .array [.string "the Password is x"])]
  distinct := by
    refine .object (by decide) fun e he => ?_
    simp only [List.mem_cons, List.not_mem_nil, or_false] at he
    rcases he with rfl | rfl | rfl
    · exact .string _
    · refine .object (by decide) fun e he => ?_
      simp only [List.mem_cons, List.not_mem_nil, or_false] at he
      rcases he with rfl | rfl
      · exact .int _
      · exact .null
    · refine .array fun j hj => ?_
      rw [List.mem_singleton.mp hj]
      exact .string _

theorem redaction_sample : ∃ r, redactPayload (fun _ _ => HexDigest.ofNat 5)
      (some samplePayloadObject) 4096 "key" = .ok r ∧
    r.redactedPathCount = {p | SensitiveAt (.object samplePayloadObject.fields) p}.ncard := by
  obtain ⟨r, hr, -, -, -, hcount⟩ :=
    redaction (fun _ _ => HexDigest.ofNat 5) samplePayloadObject 4096 "key" (by omega) (by decide)
  exact ⟨r, hr, hcount⟩

end Correlia
