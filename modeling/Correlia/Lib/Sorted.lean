import Mathlib

/-!
# Lib.Sorted — sorted sets and dictionaries as lists in order

`sortedSet key l` is `sorted(set(l), key=key)`: the elements of `l` once each, by key.  A list in
strict key order is determined by its members (`eq_of_strict`), so the order in which a set is
built never shows.  A `Dict` is an association list in strict order of its keys: a JSON object,
whose key order carries nothing.
-/

namespace Lib

variable {α β : Type*} [LinearOrder β]

/-- Strictly increasing by key. -/
def Strict (key : α → β) (l : List α) : Prop := l.Pairwise fun a b => key a < key b

instance (key : α → β) (l : List α) : Decidable (Strict key l) :=
  inferInstanceAs (Decidable (l.Pairwise _))

theorem Strict.nodup {key : α → β} {l : List α} (h : Strict key l) : l.Nodup :=
  h.imp fun hab e => hab.ne (congrArg key e)

theorem Strict.sublist {key : α → β} {l l' : List α} (h : Strict key l) (hs : l'.Sublist l) :
    Strict key l' := List.Pairwise.sublist hs h

/-- What stands before the first element that fails, in a list in strict order. -/
theorem Strict.mem_takeWhile {key : α → β} {l : List α} (h : Strict key l) {p : α → Bool} {a : α} :
    a ∈ l.takeWhile p ↔ a ∈ l ∧ ∀ b ∈ l, key b ≤ key a → p b = true := by
  induction l with
  | nil => simp
  | cons c l ih =>
    obtain ⟨hc, hl⟩ := List.pairwise_cons.mp h
    rw [List.takeWhile_cons]
    cases hp : p c with
    | false =>
      constructor
      · nofun
      · rintro ⟨ha, hall⟩
        have hle : key c ≤ key a := by
          rcases List.mem_cons.mp ha with rfl | ha
          · exact le_rfl
          · exact (hc a ha).le
        rw [hall c List.mem_cons_self hle] at hp
        cases hp
    | true =>
      simp only [if_true, List.mem_cons]
      constructor
      · rintro (rfl | ha)
        · refine ⟨.inl rfl, fun b hb hle => ?_⟩
          rcases hb with rfl | hb
          · exact hp
          · exact absurd (hc b hb) hle.not_gt
        · obtain ⟨hal, hall⟩ := (ih hl).mp ha
          refine ⟨.inr hal, fun b hb hle => ?_⟩
          rcases hb with rfl | hb
          · exact hp
          · exact hall b hb hle
      · rintro ⟨rfl | ha, hall⟩
        · exact .inl rfl
        · exact .inr ((ih hl).mpr ⟨ha, fun b hb => hall b (.inr hb)⟩)

/-- The first that passes has the smallest key of those that pass. -/
theorem Strict.find?_lt {key : α → β} {l : List α} (h : Strict key l) {p : α → Bool} {a : α}
    (ha : l.find? p = some a) {b : α} (hb : b ∈ l) (hp : p b = true) (hne : b ≠ a) :
    key a < key b := by
  obtain ⟨-, before, after, rfl, hbefore⟩ := List.find?_eq_some_iff_append.mp ha
  rcases List.mem_append.mp hb with hb | hb
  · have := hbefore b hb
    rw [hp] at this
    cases this
  · obtain ⟨-, htail, -⟩ := List.pairwise_append.mp h
    rcases List.mem_cons.mp hb with rfl | hb
    · exact absurd rfl hne
    · exact (List.pairwise_cons.mp htail).1 b hb

/-- A list in strict key order is determined by its members. -/
theorem eq_of_strict {key : α → β} {l l' : List α} (h : Strict key l) (h' : Strict key l')
    (hm : ∀ a, a ∈ l ↔ a ∈ l') : l = l' := by
  refine List.Perm.eq_of_pairwise ?_ h h' ?_
  · exact fun a b _ _ hab hba => absurd hab hba.asymm
  · exact (List.perm_ext_iff_of_nodup h.nodup h'.nodup).mpr hm

/-! ### Sorting by a key -/

/-- `sorted(l, key=key)`. -/
def sortBy (key : α → β) (l : List α) : List α := l.insertionSort fun a b => key a ≤ key b

theorem mem_sortBy {key : α → β} {l : List α} {a : α} : a ∈ sortBy key l ↔ a ∈ l :=
  List.mem_insertionSort _

theorem sortBy_of_strict {key : α → β} {l : List α} (h : Strict key l) : sortBy key l = l :=
  List.Pairwise.insertionSort_eq (h.imp fun hab => hab.le)

theorem sortBy_strict {key : α → β} {l : List α} (hk : (l.map key).Nodup) :
    Strict key (sortBy key l) := by
  have hs : (sortBy key l).Pairwise fun a b => key a ≤ key b := by
    have : Std.Total fun a b : α => key a ≤ key b := ⟨fun a b => le_total (key a) (key b)⟩
    have : IsTrans α fun a b => key a ≤ key b := ⟨fun _ _ _ => le_trans⟩
    exact List.pairwise_insertionSort _ l
  have hd : ((sortBy key l).map key).Nodup :=
    ((List.perm_insertionSort _ l).map key).nodup_iff.mpr hk
  have hne : (sortBy key l).Pairwise fun a b => key a ≠ key b := List.pairwise_map.mp hd
  exact (hs.and hne).imp fun ⟨h1, h2⟩ => lt_of_le_of_ne h1 h2

/-- `sorted(set(l), key=key)`. -/
def sortedSet [DecidableEq α] (key : α → β) (l : List α) : List α := sortBy key l.dedup

section SortedSet

variable [DecidableEq α] {key : α → β} {l l' : List α}

@[simp] theorem mem_sortedSet {a : α} : a ∈ sortedSet key l ↔ a ∈ l := by
  rw [sortedSet, mem_sortBy, List.mem_dedup]

theorem sortedSet_strict (hk : Function.Injective key) : Strict key (sortedSet key l) :=
  sortBy_strict ((List.nodup_dedup l).map hk)

theorem sortedSet_congr (hk : Function.Injective key) (h : ∀ a, a ∈ l ↔ a ∈ l') :
    sortedSet key l = sortedSet key l' :=
  eq_of_strict (sortedSet_strict hk) (sortedSet_strict hk) fun a => by simp [h]

theorem sortedSet_of_strict (h : Strict key l) : sortedSet key l = l := by
  rw [sortedSet, h.nodup.dedup, sortBy_of_strict h]

theorem sortedSet_eq_nil : sortedSet key l = [] ↔ l = [] := by
  simp only [List.eq_nil_iff_forall_not_mem, mem_sortedSet]

end SortedSet

/-! ### Dictionaries -/

section Dict

variable {κ ν : Type*} [LinearOrder κ]

/-- `d[k] = v` on the entries in key order. -/
def putEntry (k : κ) (v : ν) : List (κ × ν) → List (κ × ν)
  | [] => [(k, v)]
  | e :: es =>
    if k < e.1 then (k, v) :: e :: es
    else if k = e.1 then (k, v) :: es
    else e :: putEntry k v es

theorem mem_putEntry {k : κ} {v : ν} {l : List (κ × ν)} (h : Strict Prod.fst l) {e : κ × ν} :
    e ∈ putEntry k v l ↔ e = (k, v) ∨ e ∈ l ∧ e.1 ≠ k := by
  induction l with
  | nil => simp [putEntry]
  | cons d es ih =>
    obtain ⟨hd, hes⟩ := List.pairwise_cons.mp h
    have htail : ∀ e ∈ es, d.1 < e.1 := hd
    unfold putEntry
    split_ifs with h1 h2
    · constructor
      · intro he
        rcases List.mem_cons.mp he with rfl | he
        · exact Or.inl rfl
        · refine Or.inr ⟨he, ?_⟩
          rcases List.mem_cons.mp he with rfl | he
          · exact h1.ne'
          · exact (h1.trans (htail e he)).ne'
      · rintro (rfl | ⟨he, -⟩)
        · simp
        · exact List.mem_cons_of_mem _ he
    · subst h2
      constructor
      · intro he
        rcases List.mem_cons.mp he with rfl | he
        · exact Or.inl rfl
        · exact Or.inr ⟨List.mem_cons_of_mem _ he, (htail e he).ne'⟩
      · rintro (rfl | ⟨he, hne⟩)
        · simp
        · rcases List.mem_cons.mp he with rfl | he
          · exact absurd rfl hne
          · exact List.mem_cons_of_mem _ he
    · rw [List.mem_cons, ih hes, List.mem_cons]
      constructor
      · rintro (rfl | rfl | ⟨he, hne⟩)
        · exact Or.inr ⟨Or.inl rfl, fun e => h2 e.symm⟩
        · exact Or.inl rfl
        · exact Or.inr ⟨Or.inr he, hne⟩
      · rintro (rfl | ⟨rfl | he, hne⟩)
        · exact Or.inr (Or.inl rfl)
        · exact Or.inl rfl
        · exact Or.inr (Or.inr ⟨he, hne⟩)

theorem putEntry_strict (k : κ) (v : ν) {l : List (κ × ν)} (h : Strict Prod.fst l) :
    Strict Prod.fst (putEntry k v l) := by
  induction l with
  | nil => simp [putEntry, Strict]
  | cons d es ih =>
    obtain ⟨hd, hes⟩ := List.pairwise_cons.mp h
    have htail : ∀ e ∈ es, d.1 < e.1 := hd
    unfold putEntry
    split_ifs with h1 h2
    · refine List.pairwise_cons.mpr ⟨fun e he => ?_, h⟩
      rcases List.mem_cons.mp he with rfl | he
      · exact h1
      · exact h1.trans (htail e he)
    · exact List.pairwise_cons.mpr ⟨fun e he => h2 ▸ htail e he, hes⟩
    · refine List.pairwise_cons.mpr ⟨fun e he => ?_, ih hes⟩
      rcases (mem_putEntry hes).mp he with rfl | ⟨he, -⟩
      · exact lt_of_le_of_ne (not_lt.mp h1) fun e => h2 e.symm
      · exact htail e he

/-- A dictionary: entries in strict order of their keys. -/
structure Dict (κ ν : Type*) [LinearOrder κ] where
  entries : List (κ × ν)
  strict : Strict Prod.fst entries

namespace Dict

instance [DecidableEq ν] : DecidableEq (Dict κ ν) := fun d e =>
  decidable_of_iff (d.entries = e.entries) ⟨fun h => by cases d; cases e; congr, fun h => h ▸ rfl⟩

/-- Dictionaries with the same entries are equal. -/
@[ext] theorem ext_mem {d e : Dict κ ν} (h : ∀ x, x ∈ d.entries ↔ x ∈ e.entries) : d = e := by
  have := eq_of_strict d.strict e.strict h
  cases d
  cases e
  congr

def empty : Dict κ ν := ⟨[], List.Pairwise.nil⟩

def size (d : Dict κ ν) : ℕ := d.entries.length

def keys (d : Dict κ ν) : List κ := d.entries.map Prod.fst

/-- `k in d`. -/
def contains (d : Dict κ ν) (k : κ) : Bool := decide (k ∈ d.keys)

/-- `d[k] = v`. -/
def insert (d : Dict κ ν) (k : κ) (v : ν) : Dict κ ν :=
  ⟨putEntry k v d.entries, putEntry_strict k v d.strict⟩

/-- `{k: v for k, v in d.items() if p(k, v)}`. -/
def filter (p : κ × ν → Bool) (d : Dict κ ν) : Dict κ ν :=
  ⟨d.entries.filter p, d.strict.sublist List.filter_sublist⟩

/-- `{k: f(v) for k, v in d.items()}`. -/
def map {ω : Type*} (f : ν → ω) (d : Dict κ ν) : Dict κ ω where
  entries := d.entries.map fun e => (e.1, f e.2)
  strict := by
    rw [Strict, List.pairwise_map]
    exact d.strict

/-- `dict(items)`. -/
def ofItems (items : List (κ × ν)) : Dict κ ν := items.foldl (fun d e => d.insert e.1 e.2) empty

@[simp] theorem mem_filter {p : κ × ν → Bool} {d : Dict κ ν} {e : κ × ν} :
    e ∈ (d.filter p).entries ↔ e ∈ d.entries ∧ p e = true := List.mem_filter

theorem mem_insert {d : Dict κ ν} {k : κ} {v : ν} {e : κ × ν} :
    e ∈ (d.insert k v).entries ↔ e = (k, v) ∨ e ∈ d.entries ∧ e.1 ≠ k := mem_putEntry d.strict

theorem contains_iff {d : Dict κ ν} {k : κ} : d.contains k = true ↔ ∃ v, (k, v) ∈ d.entries := by
  rw [contains, decide_eq_true_iff, keys, List.mem_map]
  exact ⟨fun ⟨e, he, hk⟩ => ⟨e.2, hk ▸ he⟩, fun ⟨v, hv⟩ => ⟨(k, v), hv, rfl⟩⟩

theorem keys_nodup (d : Dict κ ν) : d.keys.Nodup :=
  List.pairwise_map.mpr (d.strict.imp fun h => h.ne)

/-- A dictionary has one value for a key. -/
theorem unique {d : Dict κ ν} {k : κ} {v w : ν} (hv : (k, v) ∈ d.entries)
    (hw : (k, w) ∈ d.entries) : v = w :=
  (Prod.mk.inj (List.inj_on_of_nodup_map d.keys_nodup hv hw rfl)).2

theorem entries_nodup (d : Dict κ ν) : d.entries.Nodup := d.strict.nodup

section Map

variable {ω : Type*} {f : ν → ω} {d : Dict κ ν}

@[simp] theorem size_map : (d.map f).size = d.size := List.length_map _

@[simp] theorem keys_map : (d.map f).keys = d.keys := by
  simp [keys, map, Function.comp_def]

@[simp] theorem contains_map {k : κ} : (d.map f).contains k = d.contains k := by
  simp only [contains, keys_map]

theorem mem_map {e : κ × ω} : e ∈ (d.map f).entries ↔ ∃ v, (e.1, v) ∈ d.entries ∧ f v = e.2 := by
  constructor
  · intro h
    obtain ⟨x, hx, rfl⟩ := List.mem_map.mp h
    exact ⟨x.2, hx, rfl⟩
  · rintro ⟨v, hv, hf⟩
    exact List.mem_map.mpr ⟨(e.1, v), hv, Prod.ext rfl hf⟩

theorem map_insert (k : κ) (v : ν) : (d.insert k v).map f = (d.map f).insert k (f v) := by
  apply ext_mem
  rintro ⟨k', w⟩
  rw [mem_map, mem_insert, mem_map]
  constructor
  · rintro ⟨v', hv', rfl⟩
    rcases mem_insert.mp hv' with h | ⟨h, hne⟩
    · obtain ⟨rfl, rfl⟩ := Prod.mk.inj h
      exact Or.inl rfl
    · exact Or.inr ⟨⟨v', h, rfl⟩, hne⟩
  · rintro (h | ⟨⟨v', hv', rfl⟩, hne⟩)
    · obtain ⟨rfl, rfl⟩ := Prod.mk.inj h
      exact ⟨v, mem_insert.mpr (Or.inl rfl), rfl⟩
    · exact ⟨v', mem_insert.mpr (Or.inr ⟨hv', hne⟩), rfl⟩

theorem map_filter (p : κ × ω → Bool) :
    (d.map f).filter p = (d.filter fun e => p (e.1, f e.2)).map f := by
  apply ext_mem
  rintro ⟨k, w⟩
  rw [mem_filter, mem_map, mem_map]
  constructor
  · rintro ⟨⟨v, hv, rfl⟩, hp⟩
    exact ⟨v, mem_filter.mpr ⟨hv, hp⟩, rfl⟩
  · rintro ⟨v, hv, rfl⟩
    obtain ⟨hv, hp⟩ := mem_filter.mp hv
    exact ⟨⟨v, hv, rfl⟩, hp⟩

theorem map_congr {g : ν → ω} (h : ∀ e ∈ d.entries, f e.2 = g e.2) : d.map f = d.map g := by
  apply ext_mem
  rintro ⟨k, w⟩
  rw [mem_map, mem_map]
  exact exists_congr fun v => and_congr_right fun hv => by rw [h _ hv]

theorem map_map {ρ : Type*} (g : ω → ρ) : (d.map f).map g = d.map fun v => g (f v) := by
  apply ext_mem
  rintro ⟨k, w⟩
  simp only [mem_map]
  constructor
  · rintro ⟨_, ⟨v, hv, rfl⟩, hw⟩
    exact ⟨v, hv, hw⟩
  · rintro ⟨v, hv, hw⟩
    exact ⟨_, ⟨v, hv, rfl⟩, hw⟩

end Map

theorem size_filter_le (p : κ × ν → Bool) (d : Dict κ ν) : (d.filter p).size ≤ d.size :=
  List.length_filter_le _ _

theorem size_insert_le (d : Dict κ ν) (k : κ) (v : ν) : (d.insert k v).size ≤ d.size + 1 := by
  have hsub : (d.insert k v).entries ⊆ (k, v) :: d.entries := fun e he => by
    rcases mem_insert.mp he with rfl | ⟨he, -⟩
    · simp
    · exact List.mem_cons_of_mem _ he
  exact ((entries_nodup _).subperm hsub).length_le

/-- `dict(items)` of items with distinct keys has exactly these entries. -/
theorem mem_ofItems {items : List (κ × ν)} (hk : (items.map Prod.fst).Nodup) {e : κ × ν} :
    e ∈ (ofItems items).entries ↔ e ∈ items := by
  have key : ∀ (items : List (κ × ν)) (d : Dict κ ν), (items.map Prod.fst).Nodup →
      (∀ e ∈ d.entries, e.1 ∉ items.map Prod.fst) → ∀ e : κ × ν,
      e ∈ (items.foldl (fun d e => d.insert e.1 e.2) d).entries ↔ e ∈ d.entries ∨ e ∈ items := by
    intro items
    induction items with
    | nil => simp
    | cons x xs ih =>
      intro d hnd hdis e
      rw [List.map_cons, List.nodup_cons] at hnd
      rw [List.foldl_cons, ih _ hnd.2, mem_insert, List.mem_cons]
      · constructor
        · rintro ((rfl | ⟨he, -⟩) | he)
          · exact Or.inr (Or.inl rfl)
          · exact Or.inl he
          · exact Or.inr (Or.inr he)
        · rintro (he | rfl | he)
          · refine Or.inl (Or.inr ⟨he, fun heq => hdis e he ?_⟩)
            rw [heq]
            exact List.mem_cons_self
          · exact Or.inl (Or.inl rfl)
          · exact Or.inr he
      · intro y hy
        rcases mem_insert.mp hy with rfl | ⟨hy, -⟩
        · exact hnd.1
        · exact fun hin => hdis y hy (List.mem_cons_of_mem _ hin)
  rw [ofItems, key items empty hk (by simp [empty]) e]
  simp [empty]

theorem size_ofItems_le (items : List (κ × ν)) : (ofItems items).size ≤ items.length := by
  have key : ∀ (items : List (κ × ν)) (d : Dict κ ν),
      (items.foldl (fun d e => d.insert e.1 e.2) d).size ≤ d.size + items.length := by
    intro items
    induction items with
    | nil => simp
    | cons x xs ih =>
      intro d
      have := ih (d.insert x.1 x.2)
      have := size_insert_le d x.1 x.2
      rw [List.foldl_cons, List.length_cons]
      omega
  simpa only [ofItems, empty, size, List.length_nil, zero_add] using key items empty

theorem mem_of_mem_ofItems {items : List (κ × ν)} {e : κ × ν} (h : e ∈ (ofItems items).entries) :
    e ∈ items := by
  have key : ∀ (items : List (κ × ν)) (d : Dict κ ν),
      e ∈ (items.foldl (fun d e => d.insert e.1 e.2) d).entries → e ∈ d.entries ∨ e ∈ items := by
    intro items
    induction items with
    | nil => simp
    | cons x xs ih =>
      intro d he
      rcases ih _ he with he | he
      · rcases mem_insert.mp he with rfl | ⟨he, -⟩
        · exact Or.inr List.mem_cons_self
        · exact Or.inl he
      · exact Or.inr (List.mem_cons_of_mem _ he)
  rcases key items empty h with h | h
  · simp [empty] at h
  · exact h

end Dict

end Dict

/-! ### Dictionaries in insertion order -/

/-- A dictionary whose order is seen: entries in insertion order. -/
structure Items (κ ν : Type*) where
  entries : List (κ × ν)
  nodup : (entries.map Prod.fst).Nodup

/-- `d[k] = v`: in place, or at the end. -/
def setItem {κ ν : Type*} [DecidableEq κ] (k : κ) (v : ν) : List (κ × ν) → List (κ × ν)
  | [] => [(k, v)]
  | e :: es => if e.1 = k then (k, v) :: es else e :: setItem k v es

/-- `d.get(k)`. -/
def getItem {κ ν : Type*} [DecidableEq κ] (k : κ) (l : List (κ × ν)) : Option ν :=
  (l.find? fun e => e.1 = k).map Prod.snd

section GetItem

variable {κ ν : Type*} [DecidableEq κ] {k : κ} {v : ν} {l l' : List (κ × ν)}

@[simp] theorem getItem_nil : getItem k ([] : List (κ × ν)) = none := rfl

theorem getItem_cons (e : κ × ν) (es : List (κ × ν)) :
    getItem k (e :: es) = if e.1 = k then some e.2 else getItem k es := by
  rw [getItem, List.find?_cons]
  by_cases h : e.1 = k
  · simp [h]
  · simp [h, getItem]

theorem mem_of_getItem (h : getItem k l = some v) : (k, v) ∈ l := by
  obtain ⟨e, he, rfl⟩ := Option.map_eq_some_iff.mp h
  have hk : e.1 = k := by simpa using List.find?_some he
  subst hk
  exact List.mem_of_find?_eq_some he

/-- With distinct keys, looking a key up finds its entry. -/
theorem getItem_eq_some (hk : (l.map Prod.fst).Nodup) : getItem k l = some v ↔ (k, v) ∈ l := by
  refine ⟨mem_of_getItem, fun h => ?_⟩
  induction l with
  | nil => simp at h
  | cons e es ih =>
    obtain ⟨hnot, hes⟩ := List.nodup_cons.mp hk
    rw [getItem_cons]
    rcases List.mem_cons.mp h with rfl | h
    · exact if_pos rfl
    · rw [if_neg, ih hes h]
      rintro rfl
      exact hnot (List.mem_map.mpr ⟨_, h, rfl⟩)

theorem getItem_eq_none : getItem k l = none ↔ k ∉ l.map Prod.fst := by
  rw [getItem, Option.map_eq_none_iff, List.find?_eq_none]
  simp only [decide_eq_true_eq, List.mem_map, not_exists, not_and]

/-- What a part of a dictionary holds, the dictionary holds. -/
theorem getItem_of_sublist (hs : l'.Sublist l) (hk : (l.map Prod.fst).Nodup)
    (h : getItem k l' = some v) : getItem k l = some v :=
  (getItem_eq_some hk).mpr (hs.subset (mem_of_getItem h))

theorem getItem_setItem (k' : κ) (l : List (κ × ν)) :
    getItem k' (setItem k v l) = if k = k' then some v else getItem k' l := by
  induction l with
  | nil => simp [setItem, getItem_cons]
  | cons e es ih =>
    unfold setItem
    by_cases h : e.1 = k
    · rw [if_pos h, getItem_cons, getItem_cons, h]
      by_cases hk : k = k' <;> simp [hk]
    · rw [if_neg h, getItem_cons, getItem_cons, ih]
      by_cases he : e.1 = k'
      · rw [if_pos he, if_pos he, if_neg (fun hk => h (he.trans hk.symm))]
      · rw [if_neg he, if_neg he]

theorem mem_keys_setItem {k' : κ} :
    k' ∈ (setItem k v l).map Prod.fst ↔ k' = k ∨ k' ∈ l.map Prod.fst := by
  induction l with
  | nil => simp [setItem]
  | cons e es ih =>
    unfold setItem
    by_cases h : e.1 = k
    · rw [if_pos h]
      simp [h]
    · rw [if_neg h, List.map_cons, List.mem_cons, ih, List.map_cons, List.mem_cons]
      tauto

theorem setItem_nodup (hk : (l.map Prod.fst).Nodup) : ((setItem k v l).map Prod.fst).Nodup := by
  induction l with
  | nil => simp [setItem]
  | cons e es ih =>
    obtain ⟨hnot, hes⟩ := List.nodup_cons.mp hk
    unfold setItem
    by_cases h : e.1 = k
    · rw [if_pos h]
      exact List.nodup_cons.mpr ⟨h ▸ hnot, hes⟩
    · rw [if_neg h]
      refine List.nodup_cons.mpr ⟨fun hmem => ?_, ih hes⟩
      rcases mem_keys_setItem.mp hmem with hek | hmem
      · exact h hek
      · exact hnot hmem

/-- `for k, v in items: d[k] = v`. -/
def setItems (items d : List (κ × ν)) : List (κ × ν) :=
  items.foldl (fun d e => setItem e.1 e.2 d) d

/-- The last write to a key wins. -/
theorem getItem_setItems (k : κ) (items d : List (κ × ν)) :
    getItem k (setItems items d) = (getItem k items.reverse).or (getItem k d) := by
  induction items generalizing d with
  | nil => rfl
  | cons e es ih =>
    rw [setItems, List.foldl_cons, ← setItems, ih, getItem_setItem, List.reverse_cons]
    have happend : getItem k (es.reverse ++ [e]) =
        (getItem k es.reverse).or (if e.1 = k then some e.2 else none) := by
      rw [getItem, getItem, List.find?_append, Option.map_or]
      by_cases h : e.1 = k <;> simp [h]
    rw [happend, Option.or_assoc]
    by_cases h : e.1 = k <;> simp [h]

/-- Every write is read back exactly when the writes to one key agree. -/
theorem getItem_setItems_all {items : List (κ × ν)} :
    (∀ e ∈ items, getItem e.1 (setItems items []) = some e.2) ↔
      ∀ e ∈ items, ∀ e' ∈ items, e.1 = e'.1 → e.2 = e'.2 := by
  constructor
  · intro hall e he e' he' hkey
    have h := hall e he
    rw [hkey, hall e' he'] at h
    exact (Option.some.inj h).symm
  · intro hagree e he
    rw [getItem_setItems, getItem_nil, Option.or_none]
    cases hget : getItem e.1 items.reverse with
    | none =>
      refine absurd (getItem_eq_none.mp hget) (not_not.mpr ?_)
      exact List.mem_map_of_mem (List.mem_reverse.mpr he)
    | some v =>
      have hmem := List.mem_reverse.mp (mem_of_getItem hget)
      rw [hagree e he _ hmem rfl]

/-- Keeping the entries whose key passes a test. -/
theorem getItem_filter_key (k : κ) (p : κ → Bool) (l : List (κ × ν)) :
    getItem k (l.filter fun e => p e.1) = if p k then getItem k l else none := by
  induction l with
  | nil => simp
  | cons e es ih =>
    by_cases he : e.1 = k
    · subst he
      cases hp : p e.1
      · rw [List.filter_cons_of_neg (by simp [hp]), ih]
        simp [hp]
      · rw [List.filter_cons_of_pos (by simp [hp]), getItem_cons, getItem_cons]
        simp
    · cases hp : p e.1
      · rw [List.filter_cons_of_neg (by simp [hp]), ih, getItem_cons, if_neg he]
      · rw [List.filter_cons_of_pos (by simp [hp]), getItem_cons, getItem_cons, if_neg he,
          if_neg he, ih]

end GetItem

namespace Items

variable {κ ν : Type*} [DecidableEq κ]

def empty : Items κ ν := ⟨[], List.nodup_nil⟩

/-- `d.get(k)`. -/
def get (d : Items κ ν) (k : κ) : Option ν := getItem k d.entries

/-- `d[k] = v`. -/
def set (d : Items κ ν) (k : κ) (v : ν) : Items κ ν :=
  ⟨setItem k v d.entries, setItem_nodup d.nodup⟩

/-- `for k in keys: del d[k]`. -/
def delete (d : Items κ ν) (keys : List κ) : Items κ ν :=
  ⟨d.entries.filter fun e => e.1 ∉ keys, d.nodup.sublist (List.filter_sublist.map _)⟩

theorem get_set (d : Items κ ν) (k k' : κ) (v : ν) :
    (d.set k v).get k' = if k = k' then some v else d.get k' := getItem_setItem k' d.entries

theorem get_delete (d : Items κ ν) (keys : List κ) (k : κ) :
    (d.delete keys).get k = if k ∈ keys then none else d.get k := by
  have h := getItem_filter_key k (fun k => decide (k ∉ keys)) d.entries
  rw [get, delete, h]
  by_cases hk : k ∈ keys <;> simp [hk, get]

theorem get_eq_some {d : Items κ ν} {k : κ} {v : ν} : d.get k = some v ↔ (k, v) ∈ d.entries :=
  getItem_eq_some d.nodup

/-- `d == e`: the order of the entries does not count. -/
def eq [DecidableEq ν] (d e : Items κ ν) : Bool := decide (d.entries.Perm e.entries)

theorem eq_iff [DecidableEq ν] {d e : Items κ ν} : d.eq e = true ↔ ∀ k, d.get k = e.get k := by
  have hnodup : ∀ d : Items κ ν, d.entries.Nodup := fun d => d.nodup.of_map
  rw [eq, decide_eq_true_iff, List.perm_ext_iff_of_nodup (hnodup d) (hnodup e)]
  constructor
  · intro h k
    refine Option.ext fun v => ?_
    rw [get_eq_some, get_eq_some]
    exact h (k, v)
  · rintro h ⟨k, v⟩
    rw [← get_eq_some, ← get_eq_some, h]

end Items

end Lib
