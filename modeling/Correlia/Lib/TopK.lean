import Correlia.Lib.Sorted

/-!
# Lib.TopK — the `k` greatest members of a finite set

`topK k s` keeps the members of `s` with fewer than `k` greater ones.  Eviction that keeps the
`k` greatest after every insertion loses nothing a later eviction would keep (`topK_union_topK`),
and it commutes with pruning from below (`topK_filter`).  `Dict.greatest` is the same by sorting
and cutting, as a program does it.
-/

namespace Lib

section TopK

variable {α : Type*} [LinearOrder α]

/-- The members above `x`. -/
def above (x : α) (s : Finset α) : Finset α := s.filter (x < ·)

def topK (k : ℕ) (s : Finset α) : Finset α := s.filter fun x => (above x s).card < k

variable {k : ℕ} {s t : Finset α} {x y : α}

@[simp] theorem mem_above : y ∈ above x s ↔ y ∈ s ∧ x < y := Finset.mem_filter

@[simp] theorem mem_topK : x ∈ topK k s ↔ x ∈ s ∧ (above x s).card < k := Finset.mem_filter

theorem topK_subset : topK k s ⊆ s := Finset.filter_subset _ _

theorem above_mono (h : s ⊆ t) : above x s ⊆ above x t := Finset.filter_subset_filter _ h

theorem topK_of_card_le (h : s.card ≤ k) : topK k s = s := by
  refine Finset.Subset.antisymm topK_subset fun x hx => mem_topK.mpr ⟨hx, ?_⟩
  have hlt : above x s ⊂ s := by
    refine Finset.ssubset_iff_subset_ne.mpr ⟨Finset.filter_subset _ _, fun e => ?_⟩
    have hself : x ∈ above x s := by rwa [e]
    exact lt_irrefl x (mem_above.mp hself).2
  exact (Finset.card_lt_card hlt).trans_le h

/-- Above a member that is not kept there are `k` kept ones. -/
theorem le_card_above_topK (hx : x ∈ s) (hnx : x ∉ topK k s) :
    k ≤ (above x (topK k s)).card := by
  -- the greatest counterexample would have only kept members above it
  by_contra hlt
  rw [not_le] at hlt
  set bad := s.filter fun z => z ∉ topK k s ∧ (above z (topK k s)).card < k with hbad
  have hne : bad.Nonempty := ⟨x, Finset.mem_filter.mpr ⟨hx, hnx, hlt⟩⟩
  obtain ⟨m, hm, hmax⟩ := bad.exists_max_image id hne
  obtain ⟨hms, hmk, hmlt⟩ := Finset.mem_filter.mp hm
  have hsub : above m s ⊆ above m (topK k s) := by
    intro z hz
    obtain ⟨hzs, hmz⟩ := mem_above.mp hz
    refine mem_above.mpr ⟨?_, hmz⟩
    by_contra hzk
    have hle : above z (topK k s) ⊆ above m (topK k s) := fun w hw =>
      mem_above.mpr ⟨(mem_above.mp hw).1, hmz.trans (mem_above.mp hw).2⟩
    have hzb : z ∈ bad :=
      Finset.mem_filter.mpr ⟨hzs, hzk, (Finset.card_le_card hle).trans_lt hmlt⟩
    exact absurd hmz (not_lt.mpr (hmax z hzb))
  exact hmk (mem_topK.mpr ⟨hms, (Finset.card_le_card hsub).trans_lt hmlt⟩)

/-- Cutting early loses nothing a later cut keeps. -/
theorem topK_union_topK : topK k (topK k s ∪ t) = topK k (s ∪ t) := by
  have hsub : topK k s ∪ t ⊆ s ∪ t := Finset.union_subset_union_left topK_subset
  ext x
  constructor
  · intro hx
    obtain ⟨hxs, hxk⟩ := mem_topK.mp hx
    refine mem_topK.mpr ⟨hsub hxs, ?_⟩
    by_contra hge
    -- some member above `x` was cut, so `k` kept members of `s` are above it
    have hex : ∃ y ∈ above x (s ∪ t), y ∉ above x (topK k s ∪ t) := by
      by_contra hno
      push Not at hno
      exact hge ((Finset.card_le_card hno).trans_lt hxk)
    obtain ⟨y, hy, hny⟩ := hex
    obtain ⟨hyst, hxy⟩ := mem_above.mp hy
    have hy' : y ∉ topK k s ∪ t := fun h => hny (mem_above.mpr ⟨h, hxy⟩)
    rw [Finset.mem_union, not_or] at hy'
    have hys : y ∈ s := (Finset.mem_union.mp hyst).resolve_right hy'.2
    have hk := le_card_above_topK hys hy'.1
    have hle : above y (topK k s) ⊆ above x (topK k s ∪ t) := fun z hz =>
      mem_above.mpr ⟨Finset.mem_union_left _ (mem_above.mp hz).1, hxy.trans (mem_above.mp hz).2⟩
    have := Finset.card_le_card hle
    omega
  · intro hx
    obtain ⟨hxs, hxk⟩ := mem_topK.mp hx
    have hcard : (above x (topK k s ∪ t)).card < k :=
      (Finset.card_le_card (above_mono hsub)).trans_lt hxk
    refine mem_topK.mpr ⟨?_, hcard⟩
    rcases Finset.mem_union.mp hxs with h | h
    · refine Finset.mem_union_left _ (mem_topK.mpr ⟨h, ?_⟩)
      exact (Finset.card_le_card (above_mono Finset.subset_union_left)).trans_lt hxk
    · exact Finset.mem_union_right _ h

/-- Cutting commutes with pruning from below. -/
theorem topK_filter (p : α → Prop) [DecidablePred p] (hp : ∀ x y, x ≤ y → p x → p y) :
    topK k (s.filter p) = (topK k s).filter p := by
  ext x
  have habove : p x → above x (s.filter p) = above x s := fun hpx => by
    ext y
    simp only [mem_above, Finset.mem_filter]
    exact ⟨fun h => ⟨h.1.1, h.2⟩, fun h => ⟨⟨h.1, hp x y h.2.le hpx⟩, h.2⟩⟩
  simp only [mem_topK, Finset.mem_filter]
  constructor
  · rintro ⟨⟨hs, hpx⟩, hk⟩
    exact ⟨⟨hs, habove hpx ▸ hk⟩, hpx⟩
  · rintro ⟨⟨hs, hk⟩, hpx⟩
    exact ⟨⟨hs, hpx⟩, (habove hpx).symm ▸ hk⟩

/-- The first `k` of a strictly decreasing list are its `k` greatest members. -/
theorem mem_take_iff : ∀ (k : ℕ) {l : List α}, l.Pairwise (· > ·) → ∀ x,
    x ∈ l.take k ↔ x ∈ topK k l.toFinset
  | 0, _, _, x => by simp
  | _ + 1, [], _, x => by simp
  | k + 1, a :: l, h, x => by
    obtain ⟨ha, hl⟩ := List.pairwise_cons.mp h
    rw [List.take_succ_cons, List.mem_cons, mem_take_iff k hl x]
    by_cases hxa : x = a
    · subst hxa
      have hempty : above x (x :: l).toFinset = ∅ := by
        refine Finset.eq_empty_of_forall_notMem fun y hy => ?_
        obtain ⟨hy, hxy⟩ := mem_above.mp hy
        rcases List.mem_cons.mp (List.mem_toFinset.mp hy) with rfl | hy
        · exact lt_irrefl _ hxy
        · exact hxy.asymm (ha y hy)
      simp only [mem_topK, hempty, Finset.card_empty, List.mem_toFinset, List.mem_cons_self, true_and,
        true_or, Nat.zero_lt_succ]
    · have habove : x ∈ l → above x (a :: l).toFinset = Insert.insert a (above x l.toFinset) := by
        intro hx
        ext y
        simp only [mem_above, List.mem_toFinset, List.mem_cons, Finset.mem_insert]
        constructor
        · rintro ⟨rfl | hy, hxy⟩
          · exact Or.inl rfl
          · exact Or.inr ⟨hy, hxy⟩
        · rintro (rfl | ⟨hy, hxy⟩)
          · exact ⟨Or.inl rfl, ha x hx⟩
          · exact ⟨Or.inr hy, hxy⟩
      have hna : a ∉ above x l.toFinset := fun h' =>
        lt_irrefl a (ha a (List.mem_toFinset.mp (mem_above.mp h').1))
      constructor
      · rintro (h' | h')
        · exact absurd h' hxa
        · obtain ⟨hx, hk⟩ := mem_topK.mp h'
          have hx := List.mem_toFinset.mp hx
          refine mem_topK.mpr ⟨by simp [hx], ?_⟩
          rw [habove hx, Finset.card_insert_of_notMem hna]
          omega
      · intro h'
        obtain ⟨hx, hk⟩ := mem_topK.mp h'
        have hx : x ∈ l := (List.mem_cons.mp (List.mem_toFinset.mp hx)).resolve_left hxa
        rw [habove hx, Finset.card_insert_of_notMem hna] at hk
        exact Or.inr (mem_topK.mpr ⟨List.mem_toFinset.mpr hx, by omega⟩)

end TopK

/-! ### Eviction from a dictionary -/

namespace Dict

variable {κ ν β : Type*} [LinearOrder κ] [LinearOrder β]

/-- `dict(sorted(d.items(), key=rank, reverse=True)[:k])`, when there are more than `k`. -/
def greatest (rank : κ × ν → β) (k : ℕ) (d : Dict κ ν) : Dict κ ν :=
  if k < d.size then
    ofItems ((d.entries.insertionSort fun a b => rank b ≤ rank a).take k)
  else d

theorem map_ofItems {ω : Type*} {f : ν → ω} {items : List (κ × ν)}
    (hk : (items.map Prod.fst).Nodup) :
    (ofItems items).map f = ofItems (items.map fun e => (e.1, f e.2)) := by
  have hk' : ((items.map fun e => (e.1, f e.2)).map Prod.fst).Nodup := by
    rwa [List.map_map]
  apply ext_mem
  rintro ⟨k, w⟩
  rw [mem_map, mem_ofItems hk', List.mem_map]
  constructor
  · rintro ⟨v, hv, rfl⟩
    exact ⟨(k, v), (mem_ofItems hk).mp hv, rfl⟩
  · rintro ⟨e, he, heq⟩
    obtain ⟨rfl, rfl⟩ := Prod.mk.inj heq
    exact ⟨e.2, (mem_ofItems hk).mpr he, rfl⟩

/-- Eviction by a rank of the mapped values commutes with mapping. -/
theorem map_greatest {ω : Type*} {f : ν → ω} (rank : κ × ω → β) (k : ℕ) (d : Dict κ ν) :
    (d.greatest (fun e => rank (e.1, f e.2)) k).map f = (d.map f).greatest rank k := by
  unfold greatest
  rw [size_map]
  split_ifs with hk
  · have hkeys : (((d.entries.insertionSort fun a b =>
        rank (b.1, f b.2) ≤ rank (a.1, f a.2)).take k).map Prod.fst).Nodup :=
      (((List.perm_insertionSort _ _).map Prod.fst).nodup_iff.mpr d.keys_nodup).sublist
        ((List.take_sublist k _).map _)
    rw [map_ofItems hkeys, List.map_take]
    congr 2
    exact List.map_insertionSort _ _ _ _ fun a _ b _ => Iff.rfl
  · rfl

/-- The ranks of the entries. -/
def ranks (rank : κ × ν → β) (d : Dict κ ν) : Finset β := (d.entries.map rank).toFinset

variable {rank : κ × ν → β} {k : ℕ} {d : Dict κ ν}

@[simp] theorem mem_ranks {b : β} : b ∈ d.ranks rank ↔ ∃ e ∈ d.entries, rank e = b := by
  simp only [ranks, List.mem_toFinset, List.mem_map]

theorem card_ranks (hr : Function.Injective rank) : (d.ranks rank).card = d.size := by
  rw [ranks, List.toFinset_card_of_nodup (d.entries_nodup.map hr), List.length_map, size]

theorem mem_greatest (hr : Function.Injective rank) {e : κ × ν} :
    e ∈ (d.greatest rank k).entries ↔ rank e ∈ topK k (d.ranks rank) := by
  unfold greatest
  split_ifs with hk
  · set l := d.entries.insertionSort fun a b => rank b ≤ rank a with hl
    have hperm : l.Perm d.entries := List.perm_insertionSort _ _
    have hdesc : (l.map rank).Pairwise (· > ·) := by
      have hs : l.Pairwise fun a b => rank b ≤ rank a := by
        have : Std.Total fun a b : κ × ν => rank b ≤ rank a :=
          ⟨fun a b => le_total (rank b) (rank a)⟩
        have : IsTrans (κ × ν) fun a b => rank b ≤ rank a := ⟨fun _ _ _ h h' => h'.trans h⟩
        exact List.pairwise_insertionSort _ d.entries
      have hne : l.Pairwise fun a b => rank a ≠ rank b :=
        List.pairwise_map.mp ((hperm.map rank).nodup_iff.mpr (d.entries_nodup.map hr))
      exact List.pairwise_map.mpr ((hs.and hne).imp fun ⟨h1, h2⟩ => lt_of_le_of_ne h1 h2.symm)
    have hkeys : ((l.take k).map Prod.fst).Nodup :=
      ((hperm.map Prod.fst).nodup_iff.mpr d.keys_nodup).sublist ((List.take_sublist k l).map _)
    have hranks : (l.map rank).toFinset = d.ranks rank := by
      ext b
      simp only [mem_ranks, List.mem_toFinset, List.mem_map, hperm.mem_iff]
    rw [mem_ofItems hkeys, ← hranks, ← mem_take_iff k hdesc, ← List.map_take, List.mem_map]
    exact ⟨fun h => ⟨e, h, rfl⟩, fun ⟨e', h, he⟩ => hr he ▸ h⟩
  · rw [topK_of_card_le (by rw [card_ranks hr]; omega), mem_ranks]
    exact ⟨fun h => ⟨e, h, rfl⟩, fun ⟨e', h, he⟩ => hr he ▸ h⟩

theorem mem_of_mem_greatest {e : κ × ν} (h : e ∈ (d.greatest rank k).entries) : e ∈ d.entries := by
  unfold greatest at h
  split_ifs at h with hk
  · exact (List.perm_insertionSort _ _).mem_iff.mp (List.mem_of_mem_take (mem_of_mem_ofItems h))
  · exact h

theorem greatest_subset (hr : Function.Injective rank) {e : κ × ν}
    (h : e ∈ (d.greatest rank k).entries) : e ∈ d.entries := by
  obtain ⟨e', he', heq⟩ := mem_ranks.mp (topK_subset ((mem_greatest hr).mp h))
  exact hr heq ▸ he'

theorem ranks_greatest (hr : Function.Injective rank) :
    (d.greatest rank k).ranks rank = topK k (d.ranks rank) := by
  ext b
  rw [mem_ranks]
  constructor
  · rintro ⟨e, he, rfl⟩
    exact (mem_greatest hr).mp he
  · intro hb
    obtain ⟨e, -, rfl⟩ := mem_ranks.mp (topK_subset hb)
    exact ⟨e, (mem_greatest hr).mpr hb, rfl⟩

theorem ranks_insert {κ' : κ} {v : ν} (hnew : d.contains κ' = false) :
    (d.insert κ' v).ranks rank = Insert.insert (rank (κ', v)) (d.ranks rank) := by
  have hne : ∀ e ∈ d.entries, e.1 ≠ κ' := by
    rintro ⟨f, w⟩ he rfl
    rw [contains_iff.mpr ⟨w, he⟩] at hnew
    cases hnew
  ext b
  simp only [mem_ranks, Finset.mem_insert, mem_insert]
  constructor
  · rintro ⟨e, rfl | ⟨he, -⟩, rfl⟩
    · exact Or.inl rfl
    · exact Or.inr ⟨e, he, rfl⟩
  · rintro (rfl | ⟨e, he, rfl⟩)
    · exact ⟨_, Or.inl rfl, rfl⟩
    · exact ⟨e, Or.inr ⟨he, hne e he⟩, rfl⟩

/-- The ranks determine the dictionary. -/
theorem eq_of_ranks (hr : Function.Injective rank) {d' : Dict κ ν}
    (h : d.ranks rank = d'.ranks rank) : d = d' := by
  have hmem : ∀ (d d' : Dict κ ν), d.ranks rank = d'.ranks rank →
      ∀ e ∈ d.entries, e ∈ d'.entries := by
    intro d d' h e he
    have hb : rank e ∈ d'.ranks rank := h ▸ mem_ranks.mpr ⟨e, he, rfl⟩
    obtain ⟨e', he', heq⟩ := mem_ranks.mp hb
    exact hr heq ▸ he'
  exact ext_mem fun e => ⟨hmem d d' h e, hmem d' d h.symm e⟩

theorem size_greatest_le : (d.greatest rank k).size ≤ k := by
  unfold greatest
  split_ifs with hk
  · exact (size_ofItems_le _).trans (by simp)
  · exact not_lt.mp hk

theorem size_greatest_le_size : (d.greatest rank k).size ≤ d.size := by
  by_cases hk : k < d.size
  · exact size_greatest_le.trans hk.le
  · rw [greatest, if_neg hk]

/-- Eviction leaves exactly `k` entries when there were more. -/
theorem size_greatest_of_lt (hk : k < d.size) : (d.greatest rank k).size = k := by
  rw [greatest, if_pos hk]
  set l := d.entries.insertionSort fun a b => rank b ≤ rank a with hl
  have hperm : l.Perm d.entries := List.perm_insertionSort _ _
  have hkeys : ((l.take k).map Prod.fst).Nodup :=
    ((hperm.map Prod.fst).nodup_iff.mpr d.keys_nodup).sublist ((List.take_sublist k l).map _)
  have hitems : (ofItems (l.take k)).entries.Perm (l.take k) :=
    (List.perm_ext_iff_of_nodup (entries_nodup _) hkeys.of_map).mpr fun _ => mem_ofItems hkeys
  have hlen : l.length = d.size := hperm.length_eq
  rw [size, hitems.length_eq, List.length_take]
  omega

/-- Where room is left nothing was evicted. -/
theorem greatest_eq_of_size_lt (h : (d.greatest rank k).size < k) : d.greatest rank k = d := by
  by_cases hk : k < d.size
  · have : (d.greatest rank k).size = k := size_greatest_of_lt hk
    omega
  · rw [greatest, if_neg hk]

end Dict

end Lib
