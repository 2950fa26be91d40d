import Correlia.Lib.Json

/-!
# Lib.JsonLength — the bytes of a canonical object, entry by entry

An object takes two braces, the bytes of each `"key":value`, and a comma between any two
(`byteLength_object`); so the length can be kept while entries come and go.
-/

namespace Lib

variable {α β : Type*}

/-! ### Weights -/

/-- The weight of a text, a character at a time. -/
def weigh (w : Char → ℕ) (text : List Char) : ℕ := (text.map w).sum

/-- What stands between the strings and numbers of a text weighs one. -/
def Structural (w : Char → ℕ) : Prop :=
  ∀ c ∈ ['\x7b', '\x7d', '[', ']', ',', ':', '"'], w c = 1

section Weigh

variable {w : Char → ℕ}

@[simp] theorem weigh_nil : weigh w [] = 0 := rfl

@[simp] theorem weigh_append (s t : List Char) : weigh w (s ++ t) = weigh w s + weigh w t := by
  simp [weigh]

@[simp] theorem weigh_cons (c : Char) (t : List Char) : weigh w (c :: t) = w c + weigh w t := by
  simp [weigh]

theorem weigh_intercalate (sep : List Char) (ts : List (List Char)) :
    weigh w (sep.intercalate ts) = (ts.map (weigh w)).sum + weigh w sep * (ts.length - 1) := by
  induction ts with
  | nil => rfl
  | cons t ts ih =>
    cases ts with
    | nil => simp
    | cons u us =>
      rw [List.intercalate_cons_cons, weigh_append, weigh_append, ih]
      simp only [List.map_cons, List.sum_cons, List.length_cons, Nat.add_sub_cancel]
      ring

/-- A text of which each character is replaced by a text of its own. -/
theorem weigh_flatMap (f : Char → List Char) (text : List Char) :
    weigh w (text.flatMap f) = weigh (fun c => weigh w (f c)) text := by
  induction text with
  | nil => rfl
  | cons c text ih => rw [List.flatMap_cons, weigh_append, ih, weigh_cons]

end Weigh

theorem structural_utf8Size : Structural Char.utf8Size := by
  intro c hc
  fin_cases hc <;> decide

@[simp] theorem byteLength_nil : byteLength [] = 0 := rfl

@[simp] theorem byteLength_append (s t : List Char) :
    byteLength (s ++ t) = byteLength s + byteLength t := weigh_append s t

@[simp] theorem byteLength_cons (c : Char) (t : List Char) :
    byteLength (c :: t) = c.utf8Size + byteLength t := weigh_cons c t

theorem perm_sortBy [LinearOrder β] (key : α → β) (l : List α) : (sortBy key l).Perm l :=
  List.perm_insertionSort _ l

theorem sortBy_map {γ : Type*} [LinearOrder γ] (key : β → γ) (f : α → β) (l : List α) :
    sortBy key (l.map f) = (sortBy (fun a => key (f a)) l).map f :=
  (List.map_insertionSort (fun a b => key (f a) ≤ key (f b)) (fun a b => key a ≤ key b) f l
    fun _ _ _ _ => Iff.rfl).symm

namespace Json

theorem fieldTexts_eq (fields : List (String × Json)) :
    fieldTexts fields = fields.map fun e => (e.1, e.2.canonicalJson) := by
  induction fields with
  | nil => rw [fieldTexts, List.map_nil]
  | cons e rest ih => rw [fieldTexts, ih, List.map_cons]

theorem itemTexts_eq (items : List Json) : itemTexts items = items.map canonicalJson := by
  induction items with
  | nil => rw [itemTexts, List.map_nil]
  | cons j rest ih => rw [itemTexts, ih, List.map_cons]

/-- The weight of `"key":value`. -/
def entryWeight (w : Char → ℕ) (e : String × Json) : ℕ :=
  weigh w (stringText e.1) + 1 + weigh w e.2.canonicalJson

section Weigh

variable {w : Char → ℕ}

theorem weigh_object (hw : Structural w) (fields : List (String × Json)) :
    weigh w (object fields).canonicalJson =
      2 + (fields.map (entryWeight w)).sum + (fields.length - 1) := by
  have hopen : w '\x7b' = 1 := hw _ (by simp)
  have hclose : w '\x7d' = 1 := hw _ (by simp)
  have hcomma : w ',' = 1 := hw _ (by simp)
  have hcolon : w ':' = 1 := hw _ (by simp)
  have hsum : (((sortBy Prod.fst (fieldTexts fields)).map fun e =>
      stringText e.1 ++ [':'] ++ e.2).map (weigh w)).sum = (fields.map (entryWeight w)).sum := by
    have hperm := ((perm_sortBy Prod.fst (fieldTexts fields)).map
      fun e => weigh w (stringText e.1 ++ [':'] ++ e.2)).sum_eq
    rw [List.map_map]
    refine hperm.trans ?_
    rw [fieldTexts_eq, List.map_map]
    refine congrArg List.sum (List.map_congr_left fun e _ => ?_)
    simp only [Function.comp_apply, weigh_append, weigh_cons, weigh_nil, hcolon, entryWeight]
  have hlen : ((sortBy Prod.fst (fieldTexts fields)).map fun e =>
      stringText e.1 ++ [':'] ++ e.2).length = fields.length := by
    rw [List.length_map, (perm_sortBy _ _).length_eq, fieldTexts_eq, List.length_map]
  rw [canonicalJson, weigh_append, weigh_append, weigh_intercalate, hsum, hlen]
  simp only [weigh_cons, weigh_nil, hopen, hclose, hcomma]
  omega

theorem weigh_array (hw : Structural w) (items : List Json) :
    weigh w (array items).canonicalJson =
      2 + (items.map fun j => weigh w j.canonicalJson).sum + (items.length - 1) := by
  have hopen : w '[' = 1 := hw _ (by simp)
  have hclose : w ']' = 1 := hw _ (by simp)
  have hcomma : w ',' = 1 := hw _ (by simp)
  rw [canonicalJson, weigh_append, weigh_append, weigh_intercalate, itemTexts_eq, List.map_map,
    List.length_map]
  simp only [weigh_cons, weigh_nil, hopen, hclose, hcomma, Function.comp_def]
  omega

/-- One more item, with the comma before it. -/
theorem weigh_array_concat (hw : Structural w) (items : List Json) (j : Json) :
    weigh w (array (items ++ [j])).canonicalJson =
      weigh w (array items).canonicalJson + weigh w j.canonicalJson +
        if items = [] then 0 else 1 := by
  rw [weigh_array hw, weigh_array hw, List.map_append, List.sum_append]
  cases items with
  | nil => simp
  | cons i items =>
    simp
    omega

end Weigh

/-- The bytes of `"key":value`. -/
def entryBytes (e : String × Json) : ℕ :=
  byteLength (stringText e.1) + 1 + byteLength e.2.canonicalJson

theorem byteLength_object (fields : List (String × Json)) :
    byteLength (object fields).canonicalJson =
      2 + (fields.map entryBytes).sum + (fields.length - 1) :=
  weigh_object structural_utf8Size fields

theorem byteLength_object_single (e : String × Json) :
    byteLength (object [e]).canonicalJson = entryBytes e + 2 := by
  rw [byteLength_object]
  simp
  omega

/-- One more entry, with the comma before it. -/
theorem byteLength_object_concat (fields : List (String × Json)) (e : String × Json) :
    byteLength (object (fields ++ [e])).canonicalJson =
      byteLength (object fields).canonicalJson + entryBytes e +
        if fields = [] then 0 else 1 := by
  rw [byteLength_object, byteLength_object, List.map_append, List.sum_append]
  cases fields with
  | nil => simp
  | cons f fields =>
    simp
    omega

theorem byteLength_object_perm {fields fields' : List (String × Json)} (h : fields.Perm fields') :
    byteLength (object fields).canonicalJson = byteLength (object fields').canonicalJson := by
  rw [byteLength_object, byteLength_object, (h.map entryBytes).sum_eq, h.length_eq]

/-- An entry less, with its comma unless it was alone. -/
theorem byteLength_object_without {fields : List (String × Json)}
    (hk : (fields.map Prod.fst).Nodup) {e : String × Json} (he : e ∈ fields) :
    byteLength (object fields).canonicalJson =
      byteLength (object (fields.filter fun f => decide (f.1 ≠ e.1))).canonicalJson +
        (entryBytes e + if 1 < fields.length then 1 else 0) := by
  have hperm : fields.Perm (fields.filter (fun f => decide (f.1 ≠ e.1)) ++ [e]) := by
    obtain ⟨before, after, rfl⟩ := List.append_of_mem he
    have hne : ∀ f ∈ before ++ after, f.1 ≠ e.1 := by
      have hnodup : ((e :: (before ++ after)).map Prod.fst).Nodup :=
        ((List.perm_middle.map Prod.fst).nodup_iff).mp hk
      rw [List.map_cons, List.nodup_cons] at hnodup
      intro f hf heq
      exact hnodup.1 (heq ▸ List.mem_map_of_mem hf)
    have hfilter : (before ++ e :: after).filter (fun f => decide (f.1 ≠ e.1)) =
        before ++ after := by
      rw [List.filter_append, List.filter_cons_of_neg (by simp), ← List.filter_append,
        List.filter_eq_self]
      exact fun f hf => decide_eq_true (hne f hf)
    rw [hfilter]
    exact List.perm_middle.trans (List.perm_append_singleton e _).symm
  have hlen := hperm.length_eq
  rw [List.length_append, List.length_singleton] at hlen
  rw [byteLength_object_perm hperm, byteLength_object_concat, Nat.add_assoc]
  congr 2
  rcases Nat.eq_zero_or_pos (fields.filter fun f => decide (f.1 ≠ e.1)).length with h0 | hpos
  · rw [if_pos (List.length_eq_zero_iff.mp h0), if_neg (by omega)]
  · rw [if_neg (List.length_pos_iff.mp hpos), if_pos (by omega)]

end Json

end Lib
