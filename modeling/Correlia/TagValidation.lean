import Correlia.Domain.Audit
import Correlia.Domain.EventTags
import Correlia.Lib.JsonLength

/-!
# TagValidation — which mappings `validate_event_tags` lets pass

The loop counts the bytes of each pair; over any order of the pairs the count is that of the
canonical object (`tagLoop_eq_ok`, `tagBytes_eq`), and as it only grows, the early exit rejects
nothing that would still fit.
-/

namespace Correlia

open Lib Json

/-! ### Text and code points -/

/-- A pair of texts as a pair of objects. -/
def textEntry {α : Type} (e : String × String) : PyObject α × PyObject α :=
  (.str (PyStr.ofString e.1), .str (PyStr.ofString e.2))

def CodePoint.IsSurrogate (c : CodePoint) : Prop := ∃ n, c = .surrogate n

/-- Without lone surrogates a `str` is a text. -/
theorem PyStr.exists_text {s : PyStr} (h : ∀ c ∈ s, ¬ c.IsSurrogate) :
    ∃ t, s = PyStr.ofString t := by
  have hlist : ∃ l : List Char, s = l.map .char := by
    induction s with
    | nil => exact ⟨[], rfl⟩
    | cons c s ih =>
      obtain ⟨hc, hs⟩ := List.forall_mem_cons.mp h
      obtain ⟨l, rfl⟩ := ih hs
      cases c with
      | char c => exact ⟨c :: l, rfl⟩
      | surrogate n => exact absurd ⟨n, rfl⟩ hc
  obtain ⟨l, rfl⟩ := hlist
  exact ⟨String.ofList l, by rw [PyStr.ofString, String.toList_ofList]⟩

theorem PyStr.not_surrogate (t : String) : ∀ c ∈ PyStr.ofString t, ¬ c.IsSurrogate := by
  rintro c hc ⟨n, rfl⟩
  obtain ⟨c, -, h⟩ := List.mem_map.mp hc
  cases h

theorem PyStr.ofString_injective : Function.Injective PyStr.ofString := by
  intro s t h
  have hlist := List.map_injective_iff.mpr (fun c d hcd => CodePoint.char.inj hcd) h
  exact String.toList_inj.mp hlist

@[simp] theorem PyStr.length_ofString (t : String) : (PyStr.ofString t).length = t.length := by
  rw [PyStr.ofString, List.length_map, String.length_toList]

theorem fullmatchTagKey_ofString (key : String) :
    fullmatchTagKey (PyStr.ofString key) = matchesTagKey key := by
  unfold PyStr.ofString matchesTagKey
  cases key.toList with
  | nil => rfl
  | cons c rest =>
    rw [List.map_cons, fullmatchTagKey, List.all_map]
    rfl

theorem fullmatchTagKey_text {key : PyStr} (h : fullmatchTagKey key = true) :
    ∃ t, key = PyStr.ofString t := by
  refine PyStr.exists_text ?_
  rintro c hc ⟨n, rfl⟩
  cases key with
  | nil => cases hc
  | cons d rest =>
    cases d with
    | surrogate m => cases h
    | char d =>
      obtain ⟨-, hall⟩ := Bool.and_eq_true_iff.mp h
      rcases List.mem_cons.mp hc with hc | hc
      · cases hc
      · exact absurd (List.all_eq_true.mp hall _ hc) (by simp)

theorem encodedLength_chars (l : List Char) :
    encodedLength (l.map .char) = .ok (byteLength l) := by
  induction l with
  | nil => rfl
  | cons c l ih =>
    rw [List.map_cons, encodedLength, ih, byteLength_cons]
    rfl

theorem dumpsStr_ofString (s : String) :
    dumpsStr (PyStr.ofString s) = (stringText s).map .char := by
  unfold dumpsStr PyStr.ofString stringText
  rw [List.flatMap_map, List.map_append, List.map_append, List.map_flatMap]
  rfl

theorem encodedLength_dumpsStr (s : String) :
    encodedLength (dumpsStr (PyStr.ofString s)) = .ok (byteLength (stringText s)) := by
  rw [dumpsStr_ofString, encodedLength_chars]

theorem encodedLength_raises (s : PyStr) : Raises (· = .unicodeError) (encodedLength s) := by
  induction s with
  | nil => exact Raises.ok
  | cons c s ih =>
    cases c with
    | surrogate n => exact Raises.error rfl
    | char c => exact ih.bind fun _ _ => Raises.ok

/-- What has an encoding has no lone surrogate. -/
theorem not_surrogate_of_encodedLength {s : PyStr} {n : ℕ} (h : encodedLength s = .ok n) :
    ∀ c ∈ s, ¬ c.IsSurrogate := by
  induction s generalizing n with
  | nil => simp
  | cons c s ih =>
    cases c with
    | surrogate m => cases h
    | char c =>
      rw [encodedLength] at h
      obtain ⟨m, hs, -⟩ := bind_eq_ok.mp h
      refine List.forall_mem_cons.mpr ⟨?_, ih hs⟩
      rintro ⟨k, hk⟩
      cases hk

theorem text_of_dumpsStr {s : PyStr} {n : ℕ} (h : encodedLength (dumpsStr s) = .ok n) :
    ∃ t, s = PyStr.ofString t := by
  refine PyStr.exists_text fun c hc hsur => ?_
  obtain ⟨m, rfl⟩ := hsur
  refine not_surrogate_of_encodedLength h (.surrogate m) ?_ ⟨m, rfl⟩
  unfold dumpsStr
  simp only [List.mem_append, List.mem_flatMap]
  exact Or.inl (Or.inr ⟨.surrogate m, hc, List.mem_singleton_self _⟩)

/-! ### One pair -/

section Pair

variable {α : Type}

theorem checkTagPair_textEntry (e : String × String) :
    checkTagPair (α := α) (textEntry e) =
      if eventTagPairOk e.1 e.2 then .ok (PyStr.ofString e.1, PyStr.ofString e.2)
      else .error .eventTagValidationError := by
  have hnul : (PyStr.ofString e.2).contains (.char (Char.ofNat 0)) =
      e.2.toList.contains (Char.ofNat 0) := by
    rw [Bool.eq_iff_iff, List.contains_iff_mem, List.contains_iff_mem]
    exact List.mem_map_of_injective fun c d hcd => CodePoint.char.inj hcd
  unfold textEntry checkTagPair eventTagPairOk
  dsimp only
  rw [fullmatchTagKey_ofString, PyStr.length_ofString, PyStr.length_ofString, hnul]
  cases matchesTagKey e.1 <;> by_cases hlen : e.1.length ≤ eventTagMaxKeyBytes <;>
    cases hv : decide (1 ≤ e.2.length ∧ e.2.length ≤ 256) <;>
      cases e.2.toList.contains (Char.ofNat 0) <;> simp [hlen]

/-- A pair passes only as two `str`. -/
theorem checkTagPair_eq_ok {pair : PyObject α × PyObject α} {key value : PyStr}
    (h : checkTagPair pair = .ok (key, value)) :
    pair = (.str key, .str value) ∧ fullmatchTagKey key = true := by
  obtain ⟨k | x, v⟩ := pair
  · unfold checkTagPair at h
    dsimp only at h
    by_cases hkey : (!fullmatchTagKey k || decide (eventTagMaxKeyBytes < k.length)) = true
    · rw [if_pos hkey] at h
      cases h
    · rw [if_neg hkey] at h
      cases v with
      | other x => cases h
      | str v =>
        dsimp only at h
        split_ifs at h
        obtain ⟨rfl, rfl⟩ := Prod.mk.inj (Except.ok.inj h)
        simp only [Bool.or_eq_true, Bool.not_eq_true', not_or, Bool.not_eq_false] at hkey
        exact ⟨rfl, hkey.1⟩
  · cases h

theorem checkTagPair_raises (pair : PyObject α × PyObject α) :
    Raises (· = .eventTagValidationError) (checkTagPair pair) := by
  obtain ⟨k | x, v⟩ := pair
  · unfold checkTagPair
    dsimp only
    by_cases hkey : (!fullmatchTagKey k || decide (eventTagMaxKeyBytes < k.length)) = true
    · rw [if_pos hkey]
      exact Raises.error rfl
    · rw [if_neg hkey]
      cases v with
      | other x => exact Raises.error rfl
      | str v =>
        dsimp only
        split_ifs
        · exact Raises.error rfl
        · exact Raises.ok
  · exact Raises.error rfl

theorem catching_raises {β : Type} {e : PyException} {x : Except PyException β}
    (h : Raises (· = e) x) : Raises (· = .eventTagValidationError) (e.catching x) := by
  cases x with
  | ok b => exact Raises.ok
  | error e' =>
    obtain rfl := h e' rfl
    exact Raises.error (if_pos rfl)

/-- The bytes of a pair of texts, with its comma. -/
def textPairBytes (e : String × String) (index : ℕ) : ℕ :=
  entryBytes (e.1, .string e.2) + if index = 0 then 0 else 1

theorem tagPairBytes_text (e : String × String) (index : ℕ) :
    tagPairBytes (PyStr.ofString e.1) (PyStr.ofString e.2) index = .ok (textPairBytes e index) := by
  unfold tagPairBytes
  rw [encodedLength_dumpsStr, encodedLength_dumpsStr]
  rfl

theorem tagPairBytes_raises (key value : PyStr) (index : ℕ) :
    Raises (· = .unicodeError) (tagPairBytes key value index) :=
  (encodedLength_raises _).bind fun _ _ => (encodedLength_raises _).bind fun _ _ => Raises.ok

theorem text_of_tagPairBytes {key value : PyStr} {index n : ℕ}
    (h : tagPairBytes key value index = .ok n) : ∃ t, value = PyStr.ofString t := by
  unfold tagPairBytes at h
  obtain ⟨k, -, h⟩ := bind_eq_ok.mp h
  obtain ⟨v, hv, -⟩ := bind_eq_ok.mp h
  exact text_of_dumpsStr hv

end Pair

/-! ### The loop -/

section Loop

variable {α : Type}

/-- The bytes of the pairs with their commas, from an index on. -/
def textBytes (text : List (String × String)) (index : ℕ) : ℕ :=
  (text.map fun e => entryBytes (e.1, .string e.2)).sum +
    (text.length - if index = 0 then 1 else 0)

theorem textBytes_cons (e : String × String) (text : List (String × String)) (index : ℕ) :
    textBytes (e :: text) index = textPairBytes e index + textBytes text (index + 1) := by
  unfold textBytes textPairBytes
  simp only [List.map_cons, List.sum_cons, List.length_cons, Nat.add_eq_zero_iff, one_ne_zero,
    and_false, if_false]
  split_ifs <;> omega

theorem tagBytes_eq (text : List (String × String)) : tagBytes text = 2 + textBytes text 0 := by
  unfold tagBytes textBytes
  rw [byteLength_object, List.map_map, List.length_map, if_pos rfl]
  simp only [Function.comp_def]
  omega

/-- **The loop** passes exactly the pairs of texts that are each in order and whose bytes, counted
to the end, stay within the limit; it returns that count. -/
theorem tagLoop_eq_ok {pairs : List (PyObject α × PyObject α)} {encoded : ℕ} (index : ℕ) {n : ℕ}
    (hstart : encoded ≤ eventTagMaxBytes) :
    tagLoop encoded index pairs = .ok n ↔
      ∃ text : List (String × String), pairs = text.map textEntry ∧
        (∀ e ∈ text, eventTagPairOk e.1 e.2 = true) ∧
        n = encoded + textBytes text index ∧ n ≤ eventTagMaxBytes := by
  induction pairs generalizing encoded index with
  | nil =>
    rw [tagLoop, Except.ok.injEq]
    constructor
    · rintro rfl
      exact ⟨[], rfl, by simp, by simp [textBytes], hstart⟩
    · rintro ⟨text, htext, -, rfl, -⟩
      rw [List.map_eq_nil_iff.mp htext.symm]
      simp [textBytes]
  | cons pair rest ih =>
    rw [tagLoop]
    constructor
    · intro h
      obtain ⟨⟨key, value⟩, hpair, h⟩ := bind_eq_ok.mp h
      dsimp only at h
      obtain ⟨added, hadded, h⟩ := bind_eq_ok.mp h
      obtain ⟨rfl, hkey⟩ := checkTagPair_eq_ok hpair
      -- the byte count has met no lone surrogate
      cases hbytes : tagPairBytes key value index with
      | error e =>
        rw [hbytes] at hadded
        cases hadded
      | ok m =>
        rw [hbytes] at hadded
        cases hadded
        obtain ⟨key, rfl⟩ := fullmatchTagKey_text hkey
        obtain ⟨value, rfl⟩ := text_of_tagPairBytes hbytes
        have hok : eventTagPairOk key value = true := by
          by_contra hnot
          have hcheck := checkTagPair_textEntry (α := α) (key, value)
          rw [if_neg hnot] at hcheck
          rw [textEntry, hpair] at hcheck
          cases hcheck
        rw [tagPairBytes_text (key, value)] at hbytes
        cases hbytes
        by_cases hover : eventTagMaxBytes < encoded + textPairBytes (key, value) index
        · rw [if_pos hover] at h
          cases h
        · rw [if_neg hover] at h
          obtain ⟨text, rfl, hall, rfl, hle⟩ := (ih (index + 1) (not_lt.mp hover)).mp h
          refine ⟨(key, value) :: text, rfl, List.forall_mem_cons.mpr ⟨hok, hall⟩, ?_, hle⟩
          rw [textBytes_cons]
          omega
    · rintro ⟨text, htext, hall, rfl, hle⟩
      obtain ⟨e, text, rfl, rfl, rfl⟩ := List.map_eq_cons_iff.mp htext.symm
      obtain ⟨hok, hall⟩ := List.forall_mem_cons.mp hall
      have hcons := textBytes_cons e text index
      have hfits : ¬ eventTagMaxBytes < encoded + textPairBytes e index := by omega
      have hrest := (ih (index + 1) (not_lt.mp hfits)).mpr
        ⟨text, rfl, hall, by omega, hle⟩
      rw [checkTagPair_textEntry, if_pos hok, ok_bind]
      dsimp only
      rw [tagPairBytes_text]
      change (if eventTagMaxBytes < encoded + textPairBytes e index then _ else _) = _
      rw [if_neg hfits]
      exact hrest

theorem tagLoop_raises (pairs : List (PyObject α × PyObject α)) (encoded index : ℕ) :
    Raises (· = .eventTagValidationError) (tagLoop encoded index pairs) := by
  induction pairs generalizing encoded index with
  | nil => exact Raises.ok
  | cons pair rest ih =>
    refine (checkTagPair_raises pair).bind fun p _ => ?_
    refine (catching_raises (tagPairBytes_raises p.1 p.2 index)).bind fun added _ => ?_
    by_cases hover : eventTagMaxBytes < encoded + added
    · rw [if_pos hover]
      exact Raises.error rfl
    · rw [if_neg hover]
      exact ih _ _

end Loop

/-! ### Sorting the keys -/

section Sorting

variable {α : Type} {foreign : Comparison α}

theorem less_raises (x y : PyObject α) :
    Raises (· = .typeError) (PyObject.less foreign x y) := by
  unfold PyObject.less
  split
  · exact Raises.ok
  · split
    · exact Raises.ok
    · exact Raises.error rfl

theorem insertSorted_raises (e : PyObject α × PyObject α) (l : List (PyObject α × PyObject α)) :
    Raises (· = .typeError) (insertSorted foreign e l) := by
  induction l with
  | nil => exact Raises.ok
  | cons f rest ih =>
    refine (less_raises f.1 e.1).bind fun before _ => ?_
    cases before
    · exact Raises.ok
    · exact ih.bind fun _ _ => Raises.ok

theorem sortedItems_raises (l : List (PyObject α × PyObject α)) :
    Raises (· = .typeError) (sortedItems foreign l) := by
  induction l with
  | nil => exact Raises.ok
  | cons e rest ih => exact ih.bind fun _ _ => insertSorted_raises e _

theorem insertSorted_perm {e : PyObject α × PyObject α} {l l' : List (PyObject α × PyObject α)}
    (h : insertSorted foreign e l = .ok l') : l'.Perm (e :: l) := by
  induction l generalizing l' with
  | nil =>
    cases h
    exact List.Perm.refl _
  | cons f rest ih =>
    rw [insertSorted] at h
    obtain ⟨before, -, h⟩ := bind_eq_ok.mp h
    cases before
    · cases h
      exact List.Perm.refl _
    · obtain ⟨rest', hrest, h⟩ := bind_eq_ok.mp h
      cases h
      exact ((ih hrest).cons f).trans (List.Perm.swap e f rest)

theorem sortedItems_perm {l l' : List (PyObject α × PyObject α)}
    (h : sortedItems foreign l = .ok l') : l'.Perm l := by
  induction l generalizing l' with
  | nil =>
    cases h
    exact List.Perm.refl _
  | cons e rest ih =>
    obtain ⟨rest', hrest, h⟩ := bind_eq_ok.mp h
    exact (insertSorted_perm h).trans ((ih hrest).cons e)

theorem insertSorted_str {e : PyObject α × PyObject α} {l : List (PyObject α × PyObject α)}
    (he : ∃ s, e.1 = .str s) (hl : ∀ f ∈ l, ∃ s, f.1 = PyObject.str s) :
    ∃ l', insertSorted foreign e l = .ok l' := by
  induction l with
  | nil => exact ⟨_, rfl⟩
  | cons f rest ih =>
    obtain ⟨hf, hrest⟩ := List.forall_mem_cons.mp hl
    obtain ⟨rest', h⟩ := ih hrest
    obtain ⟨s, hs⟩ := he
    obtain ⟨t, ht⟩ := hf
    rw [insertSorted, hs, ht, PyObject.less, ok_bind, h, ok_bind]
    by_cases hlt : t.map CodePoint.toNat < s.map CodePoint.toNat
    · exact ⟨_, if_pos (decide_eq_true hlt)⟩
    · exact ⟨_, if_neg (by simpa using hlt)⟩

/-- Keys that are all `str` can be sorted. -/
theorem sortedItems_str (foreign : Comparison α) {l : List (PyObject α × PyObject α)}
    (hl : ∀ f ∈ l, ∃ s, f.1 = PyObject.str s) : ∃ l', sortedItems foreign l = .ok l' := by
  induction l with
  | nil => exact ⟨_, rfl⟩
  | cons e rest ih =>
    obtain ⟨he, hrest⟩ := List.forall_mem_cons.mp hl
    obtain ⟨rest', h⟩ := ih hrest
    rw [sortedItems, h, ok_bind]
    exact insertSorted_str he fun f hf => hrest f ((sortedItems_perm h).subset hf)

end Sorting

/-! ### The whole mapping -/

section Mapping

variable {α : Type} {foreign : Comparison α} {tags : Items (PyObject α) (PyObject α)}

theorem textEntry_injective : Function.Injective (textEntry (α := α)) := by
  intro e f hef
  obtain ⟨h1, h2⟩ := Prod.mk.inj hef
  exact Prod.ext (PyStr.ofString_injective (PyObject.str.inj h1))
    (PyStr.ofString_injective (PyObject.str.inj h2))

theorem textBytes_perm {text text' : List (String × String)} (h : text.Perm text') (index : ℕ) :
    textBytes text index = textBytes text' index := by
  unfold textBytes
  rw [(h.map _).sum_eq, h.length_eq]

/-- A list of pairs that is a list of texts in another order. -/
theorem exists_text_of_perm {l : List (PyObject α × PyObject α)} {text : List (String × String)}
    (h : (text.map (textEntry (α := α))).Perm l) :
    ∃ text' : List (String × String), l = text'.map textEntry ∧ text'.Perm text := by
  have hmem : ∀ f ∈ l, ∃ e : String × String, textEntry e = f := fun f hf => by
    obtain ⟨e, -, he⟩ := List.mem_map.mp (h.symm.subset hf)
    exact ⟨e, he⟩
  obtain ⟨text', rfl⟩ : ∃ text' : List (String × String), l = text'.map (textEntry (α := α)) := by
    clear h
    induction l with
    | nil => exact ⟨[], rfl⟩
    | cons f l ih =>
      obtain ⟨⟨e, rfl⟩, hl⟩ := List.forall_mem_cons.mp hmem
      obtain ⟨text', rfl⟩ := ih hl
      exact ⟨e :: text', rfl⟩
  exact ⟨text', rfl, ((List.map_perm_map_iff textEntry_injective).mp h).symm⟩

theorem eventTagMaxBytes_pos : 2 ≤ eventTagMaxBytes := by decide

/-- `validate_event_tags` returns exactly on texts in order whose canonical object fits. -/
theorem validateTagMapping_eq_ok :
    validateTagMapping foreign tags = .ok () ↔
      tags.entries.length ≤ eventTagMaxEntries ∧
      ∃ text : List (String × String), tags.entries = text.map textEntry ∧
        (∀ e ∈ text, eventTagPairOk e.1 e.2 = true) ∧ tagBytes text ≤ eventTagMaxBytes := by
  unfold validateTagMapping
  by_cases hsize : eventTagMaxEntries < tags.entries.length
  · rw [if_pos hsize]
    constructor
    · intro h
      cases h
    · exact fun h => absurd h.1 (not_le.mpr hsize)
  rw [if_neg hsize]
  constructor
  · intro h
    obtain ⟨keys, hkeys, h⟩ := bind_eq_ok.mp h
    obtain ⟨n, hloop, -⟩ := bind_eq_ok.mp h
    obtain ⟨sorted, hsorted, rfl⟩ : ∃ sorted, sortedItems foreign tags.entries = .ok sorted ∧
        sorted = keys := by
      cases hs : sortedItems foreign tags.entries with
      | error e =>
        rw [hs] at hkeys
        cases hkeys
      | ok sorted =>
        rw [hs] at hkeys
        exact ⟨sorted, rfl, Except.ok.inj hkeys⟩
    obtain ⟨text, rfl, hall, rfl, hle⟩ := (tagLoop_eq_ok 0 eventTagMaxBytes_pos).mp hloop
    obtain ⟨text', htext, hperm⟩ := exists_text_of_perm (sortedItems_perm hsorted)
    refine ⟨not_lt.mp hsize, text', htext, fun e he => hall e (hperm.subset he), ?_⟩
    rw [tagBytes_eq, textBytes_perm hperm]
    exact hle
  · rintro ⟨-, text, htext, hall, hle⟩
    have hstr : ∀ f ∈ tags.entries, ∃ s, f.1 = PyObject.str s := by
      rw [htext]
      intro f hf
      obtain ⟨e, -, rfl⟩ := List.mem_map.mp hf
      exact ⟨_, rfl⟩
    obtain ⟨sorted, hsorted⟩ := sortedItems_str foreign hstr
    obtain ⟨text', rfl, hperm⟩ :=
      exists_text_of_perm (htext ▸ (sortedItems_perm hsorted).symm)
    rw [tagBytes_eq, ← textBytes_perm hperm] at hle
    have hloop := (tagLoop_eq_ok (α := α) 0 eventTagMaxBytes_pos).mpr
      ⟨text', rfl, fun e he => hall e (hperm.subset he), rfl, hle⟩
    rw [hsorted]
    change (tagLoop 2 0 _ >>= fun _ => _) = _
    rw [hloop]
    rfl

theorem validateTagMapping_raises :
    Raises (· = .eventTagValidationError) (validateTagMapping foreign tags) := by
  unfold validateTagMapping
  by_cases hsize : eventTagMaxEntries < tags.entries.length
  · rw [if_pos hsize]
    exact Raises.error rfl
  · rw [if_neg hsize]
    exact (catching_raises (sortedItems_raises _)).bind fun keys _ =>
      (tagLoop_raises keys 2 0).bind fun _ _ => Raises.ok

/-- What an accepted tag map is: few entries with short keys of the pattern and short values of
plain text, and a short canonical object. -/
structure ValidTags (tags : Items (PyObject α) (PyObject α)) : Prop where
  entries : tags.entries.length ≤ 128
  keys : ∀ e ∈ tags.entries, ∃ key, e.1 = .str key ∧ key.length ≤ 64 ∧ fullmatchTagKey key = true
  values : ∀ e ∈ tags.entries, ∃ value, e.2 = .str value ∧ 1 ≤ value.length ∧
    value.length ≤ 256 ∧ .char (Char.ofNat 0) ∉ value ∧ ∀ c ∈ value, ¬ c.IsSurrogate
  bytes : ∃ text : List (String × String), tags.entries = text.map textEntry ∧
    tagBytes text ≤ 16384

theorem eventTagPairOk_iff {key value : String} :
    eventTagPairOk key value = true ↔
      (key.length ≤ 64 ∧ fullmatchTagKey (PyStr.ofString key) = true) ∧
        1 ≤ (PyStr.ofString value).length ∧ (PyStr.ofString value).length ≤ 256 ∧
          .char (Char.ofNat 0) ∉ PyStr.ofString value := by
  have hnul : CodePoint.char (Char.ofNat 0) ∈ PyStr.ofString value ↔
      Char.ofNat 0 ∈ value.toList :=
    List.mem_map_of_injective fun c d hcd => CodePoint.char.inj hcd
  rw [fullmatchTagKey_ofString, PyStr.length_ofString, hnul]
  unfold eventTagPairOk eventTagMaxKeyBytes
  simp only [Bool.and_eq_true, decide_eq_true_eq, Bool.not_eq_true', List.contains_eq_mem,
    decide_eq_false_iff_not]
  tauto

theorem validTags_iff :
    ValidTags tags ↔ tags.entries.length ≤ eventTagMaxEntries ∧
      ∃ text : List (String × String), tags.entries = text.map textEntry ∧
        (∀ e ∈ text, eventTagPairOk e.1 e.2 = true) ∧ tagBytes text ≤ eventTagMaxBytes := by
  constructor
  · rintro ⟨hsize, hkeys, hvalues, text, htext, hbytes⟩
    refine ⟨hsize, text, htext, fun e he => ?_, hbytes⟩
    have hmem : textEntry e ∈ tags.entries := htext ▸ List.mem_map_of_mem he
    obtain ⟨key, hkey, hlen, hmatch⟩ := hkeys _ hmem
    obtain ⟨value, hvalue, h1, h2, h3, -⟩ := hvalues _ hmem
    obtain rfl := PyObject.str.inj hkey
    obtain rfl := PyObject.str.inj hvalue
    rw [PyStr.length_ofString] at hlen
    exact eventTagPairOk_iff.mpr ⟨⟨hlen, hmatch⟩, h1, h2, h3⟩
  · rintro ⟨hsize, text, htext, hall, hbytes⟩
    refine ⟨hsize, fun e he => ?_, fun e he => ?_, text, htext, hbytes⟩
    · obtain ⟨e, hmem, rfl⟩ := List.mem_map.mp (htext ▸ he)
      obtain ⟨⟨hlen, hmatch⟩, -⟩ := eventTagPairOk_iff.mp (hall e hmem)
      exact ⟨_, rfl, by rwa [PyStr.length_ofString], hmatch⟩
    · obtain ⟨e, hmem, rfl⟩ := List.mem_map.mp (htext ▸ he)
      obtain ⟨-, h1, h2, h3⟩ := eventTagPairOk_iff.mp (hall e hmem)
      exact ⟨_, rfl, h1, h2, h3, PyStr.not_surrogate e.2⟩

/-- **Tag validation.**  On every mapping `validate_event_tags` returns exactly if the tags are
valid, and else raises `EventTagValidationError`; where the loop runs to its end, its count is the
length of the canonical object of the whole map. -/
theorem tag_validation (foreign : Comparison α) (tags : Items (PyObject α) (PyObject α)) :
    (validateTagMapping foreign tags = .ok () ↔ ValidTags tags) ∧
      (¬ ValidTags tags →
        validateTagMapping foreign tags = .error .eventTagValidationError) ∧
      ∀ keys n, sortedItems foreign tags.entries = .ok keys → tagLoop 2 0 keys = .ok n →
        ∃ text : List (String × String), tags.entries = text.map textEntry ∧
          n = tagBytes text := by
  have hiff : validateTagMapping foreign tags = .ok () ↔ ValidTags tags :=
    validateTagMapping_eq_ok.trans validTags_iff.symm
  refine ⟨hiff, fun hnot => ?_, fun keys n hkeys hloop => ?_⟩
  · cases h : validateTagMapping foreign tags with
    | ok u => exact absurd (hiff.mp h) hnot
    | error e => rw [validateTagMapping_raises e h]
  · obtain ⟨text, rfl, -, rfl, -⟩ := (tagLoop_eq_ok 0 eventTagMaxBytes_pos).mp hloop
    obtain ⟨text', htext, hperm⟩ := exists_text_of_perm (sortedItems_perm hkeys)
    exact ⟨text', htext, by rw [tagBytes_eq, textBytes_perm hperm]⟩

/-- One tag, with a quote and a two-byte letter in its value. -/
def sampleTags : Items (PyObject Empty) (PyObject Empty) :=
  ⟨[textEntry ("site", "\"ü")], List.nodup_singleton _⟩

/-- A value that ends in half of a surrogate pair. -/
def loneSurrogate : Items (PyObject Empty) (PyObject Empty) :=
  ⟨[(.str (PyStr.ofString "site"), .str [.char 'a', .surrogate 0x23])], List.nodup_singleton _⟩

example : tagLoop 2 0 sampleTags.entries = .ok 15 ∧
    validateTagMapping (fun _ _ => none) loneSurrogate = .error .eventTagValidationError := by
  decide +kernel

theorem tag_validation_sample : ¬ ValidTags loneSurrogate ∧
    validateTagMapping (fun _ _ => none) loneSurrogate = .error .eventTagValidationError := by
  have hnot : ¬ ValidTags loneSurrogate := by
    intro h
    obtain ⟨value, hvalue, -, -, -, hsur⟩ := h.values _ (List.mem_singleton_self _)
    obtain rfl := PyObject.str.inj hvalue
    exact hsur _ (List.mem_cons_of_mem _ (List.mem_singleton_self _)) ⟨_, rfl⟩
  exact ⟨hnot, (tag_validation (fun _ _ => none) loneSurrogate).2.1 hnot⟩

end Mapping

/-! ### Maps of texts -/

theorem hexField_bytes (width n : ℕ) : byteLength (hexField width n) = width := by
  have hsize : ∀ c ∈ hexField width n, Char.utf8Size c = 1 := by
    intro c hc
    have hmem := hexField_subset width n c hc
    fin_cases hmem <;> decide
  unfold byteLength
  rw [List.map_congr_left hsize, List.map_const', List.sum_replicate, hexField_length]
  simp

theorem jsonCharBytes_eq (c : Char) : jsonCharBytes c = byteLength (escapeChar c) := by
  unfold jsonCharBytes escapeChar
  split_ifs with h h1 h2 h3 h4 h5 h6 h7 h8
  all_goals first
    | rfl
    | exact absurd h (by tauto)
    | (rw [byteLength_append, hexField_bytes]; rfl)

theorem jsonStringBytes_eq (s : String) : jsonStringBytes s = byteLength (stringText s) := by
  have hsum : (s.toList.map jsonCharBytes).sum = byteLength (s.toList.flatMap escapeChar) := by
    induction s.toList with
    | nil => rfl
    | cons c l ih =>
      rw [List.map_cons, List.sum_cons, ih, List.flatMap_cons, byteLength_append, jsonCharBytes_eq]
  have hquote : Char.utf8Size '"' = 1 := by decide
  unfold jsonStringBytes stringText
  rw [hsum]
  simp only [byteLength_append, byteLength_cons, byteLength_nil, hquote]
  omega

theorem entryBytes_string (e : String × String) :
    entryBytes (e.1, .string e.2) = jsonStringBytes e.1 + 1 + jsonStringBytes e.2 := by
  rw [jsonStringBytes_eq, jsonStringBytes_eq, entryBytes, canonicalJson]

theorem eventTagLoop_iff (text : List (String × String)) {encoded : ℕ} (index : ℕ)
    (hstart : encoded ≤ eventTagMaxBytes) :
    eventTagLoop encoded (if index = 0 then 0 else 1) text = true ↔
      (∀ e ∈ text, eventTagPairOk e.1 e.2 = true) ∧
        encoded + textBytes text index ≤ eventTagMaxBytes := by
  induction text generalizing encoded index with
  | nil => simpa [eventTagLoop, textBytes] using hstart
  | cons e text ih =>
    have hcons := textBytes_cons e text index
    have hpair : textPairBytes e index =
        jsonStringBytes e.1 + 1 + jsonStringBytes e.2 + if index = 0 then 0 else 1 := by
      rw [textPairBytes, entryBytes_string]
    rw [eventTagLoop, Bool.and_eq_true, Bool.and_eq_true, decide_eq_true_eq, ← hpair,
      List.forall_mem_cons]
    constructor
    · rintro ⟨⟨hok, hfits⟩, hrest⟩
      obtain ⟨hall, hle⟩ := (ih (index + 1) hfits).mp hrest
      exact ⟨⟨hok, hall⟩, by omega⟩
    · rintro ⟨⟨hok, hall⟩, hle⟩
      exact ⟨⟨hok, by omega⟩, (ih (index + 1) (by omega)).mpr ⟨hall, by omega⟩⟩

/-- On a map of texts the check is by entries, pairs and bytes. -/
theorem validateEventTags_iff (tags : Items String String) :
    validateEventTags tags = true ↔
      tags.entries.length ≤ eventTagMaxEntries ∧
        (∀ e ∈ tags.entries, eventTagPairOk e.1 e.2 = true) ∧
          tagBytes tags.entries ≤ eventTagMaxBytes := by
  have hperm := perm_sortBy Prod.fst tags.entries
  have hloop := eventTagLoop_iff (sortBy Prod.fst tags.entries) 0 eventTagMaxBytes_pos
  rw [if_pos rfl] at hloop
  rw [validateEventTags, Bool.and_eq_true, decide_eq_true_eq, hloop, tagBytes_eq,
    textBytes_perm hperm]
  simp only [mem_sortBy]

/-- The check the model uses on texts is `validate_event_tags` on them. -/
theorem validateTagMapping_text {α : Type} {foreign : Comparison α}
    {tags : Items (PyObject α) (PyObject α)} (text : Items String String)
    (h : tags.entries = text.entries.map textEntry) :
    validateTagMapping foreign tags = .ok () ↔ validateEventTags text = true := by
  rw [validateTagMapping_eq_ok, validateEventTags_iff, h, List.length_map]
  refine and_congr_right fun _ => ⟨?_, fun hspec => ⟨text.entries, rfl, hspec⟩⟩
  rintro ⟨text', htext, hall, hle⟩
  obtain rfl := List.map_injective_iff.mpr textEntry_injective htext
  exact ⟨hall, hle⟩

end Correlia
