import Correlia.Lib.Sorted

/-!
# Lib.Keyset — paging through rows by their keys

A page holds the `limit` greatest rows below the cursor, in descending order of a key that no two
rows share; the look-ahead of one row tells whether a next cursor, the key of the last row, is
needed.  `Walk` follows the cursors of any service until one is absent.  A walk over rows that may
grow between requests ends, and visits each row of the first request exactly once (`walk_pages`).
-/

namespace Lib

variable {α κ : Type*} [LinearOrder κ]

/-- The rows below the cursor, greatest first. -/
def below (key : α → κ) (after : Option κ) (l : List α) : List α :=
  sortBy (fun r => OrderDual.toDual (key r)) (l.filter fun r => decide (∀ k ∈ after, key r < k))

structure KeysetPage (α κ : Type*) where
  rows : List α
  next : Option κ

/-- `LIMIT limit + 1`, of which the page keeps `limit`. -/
def keysetPage (key : α → κ) (limit : ℕ) (after : Option κ) (l : List α) : KeysetPage α κ :=
  let rows := (below key after l).take (limit + 1)
  ⟨rows.take limit, if limit < rows.length then (rows.take limit).getLast?.map key else none⟩

/-! ### One page -/

section Page

variable {key : α → κ} {limit : ℕ} {after : Option κ} {l : List α} {r : α}

@[simp] theorem mem_below : r ∈ below key after l ↔ r ∈ l ∧ ∀ k ∈ after, key r < k := by
  rw [below, mem_sortBy, List.mem_filter, decide_eq_true_eq]

theorem below_desc (hk : (l.map key).Nodup) :
    (below key after l).Pairwise fun a b => key b < key a := by
  have hnodup : ((l.filter fun r => decide (∀ k ∈ after, key r < k)).map
      fun r => OrderDual.toDual (key r)).Nodup := by
    have hsub : ((l.filter fun r => decide (∀ k ∈ after, key r < k)).map key).Nodup :=
      hk.sublist (List.filter_sublist.map key)
    have hmap := hsub.map OrderDual.toDual.injective
    rwa [List.map_map] at hmap
  exact sortBy_strict hnodup

theorem keysetPage_rows :
    (keysetPage key limit after l).rows = (below key after l).take limit := by
  rw [keysetPage, List.take_take, min_eq_left (Nat.le_succ _)]

theorem keysetPage_next :
    (keysetPage key limit after l).next =
      if limit < (below key after l).length then
        ((below key after l).take limit).getLast?.map key
      else none := by
  rw [keysetPage, List.take_take, min_eq_left (Nat.le_succ _), List.length_take]
  by_cases h : limit < (below key after l).length
  · rw [if_pos h]
    exact if_pos (by omega)
  · rw [if_neg h]
    exact if_neg (by omega)

/-- The last of descending rows is the least. -/
theorem le_of_getLast? {m : α} (hdesc : l.Pairwise fun a b => key b < key a)
    (hm : l.getLast? = some m) : ∀ r ∈ l, key m ≤ key r := by
  obtain ⟨front, rfl⟩ := List.getLast?_eq_some_iff.mp hm
  obtain ⟨-, -, hlt⟩ := List.pairwise_append.mp hdesc
  intro r hr
  rcases List.mem_append.mp hr with hr | hr
  · exact (hlt r hr m List.mem_cons_self).le
  · rw [List.mem_singleton.mp hr]

/-- What a page holds, and what is left below its cursor. -/
structure PageSpec (key : α → κ) (after : Option κ) (l : List α) (p : KeysetPage α κ) : Prop where
  desc : p.rows.Pairwise fun a b => key b < key a
  mem : ∀ r ∈ p.rows, r ∈ l ∧ ∀ k ∈ after, key r < k
  last : p.next = none → ∀ r ∈ l, (∀ k ∈ after, key r < k) → r ∈ p.rows
  more : ∀ k ∈ p.next, (∃ r ∈ p.rows, key r = k) ∧ (∀ r ∈ p.rows, k ≤ key r) ∧
    ∀ r ∈ l, (∀ k' ∈ after, key r < k') → r ∈ p.rows ∨ key r < k

theorem keysetPage_spec (hlimit : 1 ≤ limit) (hk : (l.map key).Nodup) :
    PageSpec key after l (keysetPage key limit after l) := by
  have hdesc : (below key after l).Pairwise fun a b => key b < key a := below_desc hk
  have hsub : (keysetPage key limit after l).rows.Sublist (below key after l) := by
    rw [keysetPage_rows]
    exact List.take_sublist _ _
  refine ⟨hdesc.sublist hsub, fun r hr => mem_below.mp (hsub.subset hr), ?_, ?_⟩
  · intro hnone r hr hbelow
    rw [keysetPage_next] at hnone
    by_cases h : limit < (below key after l).length
    · -- a full page has a last row
      rw [if_pos h, Option.map_eq_none_iff, List.getLast?_eq_none_iff] at hnone
      have := congrArg List.length hnone
      rw [List.length_take, List.length_nil] at this
      omega
    · rw [keysetPage_rows, List.take_of_length_le (not_lt.mp h)]
      exact mem_below.mpr ⟨hr, hbelow⟩
  · intro k hnext
    rw [keysetPage_next] at hnext
    by_cases h : limit < (below key after l).length
    · rw [if_pos h] at hnext
      obtain ⟨m, hm, rfl⟩ := Option.map_eq_some_iff.mp hnext
      rw [keysetPage_rows]
      have hmem : m ∈ (below key after l).take limit := List.mem_of_getLast? hm
      refine ⟨⟨m, hmem, rfl⟩, le_of_getLast? (hdesc.sublist (List.take_sublist _ _)) hm,
        fun r hr hbelow => ?_⟩
      have hin : r ∈ below key after l := mem_below.mpr ⟨hr, hbelow⟩
      rw [← List.take_append_drop limit (below key after l)] at hdesc hin
      obtain ⟨-, -, hlt⟩ := List.pairwise_append.mp hdesc
      exact (List.mem_append.mp hin).imp id fun hdrop => hlt m hmem r hdrop
    · rw [if_neg h] at hnext
      cases hnext

end Page

/-! ### Following the cursors -/

section Walk

variable {π γ ε : Type*} {fetch : ℕ → Option γ → Except ε π} {next : π → Option γ}

/-- The pages from request `i` on, up to the first without a next cursor. -/
inductive Walk (fetch : ℕ → Option γ → Except ε π) (next : π → Option γ) :
    ℕ → Option γ → List π → Prop
  | last {i : ℕ} {cursor : Option γ} {p : π} (hp : fetch i cursor = .ok p) (hn : next p = none) :
      Walk fetch next i cursor [p]
  | more {i : ℕ} {cursor : Option γ} {p : π} {c : γ} {pages : List π}
      (hp : fetch i cursor = .ok p) (hn : next p = some c)
      (rest : Walk fetch next (i + 1) (some c) pages) : Walk fetch next i cursor (p :: pages)

/-- There is one walk at most. -/
theorem Walk.unique {i : ℕ} {cursor : Option γ} {pages pages' : List π}
    (h : Walk fetch next i cursor pages) (h' : Walk fetch next i cursor pages') :
    pages = pages' := by
  induction h generalizing pages' with
  | last hp hn =>
    cases h' with
    | last hp' hn' =>
      rw [hp, Except.ok.injEq] at hp'
      rw [hp']
    | more hp' hn' rest' =>
      rw [hp, Except.ok.injEq] at hp'
      rw [← hp', hn] at hn'
      cases hn'
  | more hp hn rest ih =>
    cases h' with
    | last hp' hn' =>
      rw [hp, Except.ok.injEq] at hp'
      rw [← hp', hn] at hn'
      cases hn'
    | more hp' hn' rest' =>
      rw [hp, Except.ok.injEq] at hp'
      rw [← hp', hn, Option.some.injEq] at hn'
      rw [← hn'] at rest'
      rw [hp', ih rest']

/-- Page `n` of a walk is the answer to its request `n`. -/
theorem Walk.request {i : ℕ} {cursor : Option γ} {pages : List π}
    (h : Walk fetch next i cursor pages) {n : ℕ} {p : π} (hp : pages[n]? = some p) :
    ∃ cursor', fetch (i + n) cursor' = .ok p := by
  induction h generalizing n with
  | @last i cursor q hq hn =>
    cases n with
    | zero => exact ⟨cursor, by simpa using (Option.some.inj hp) ▸ hq⟩
    | succ n => simp at hp
  | @more i cursor q c pages hq hn rest ih =>
    cases n with
    | zero => exact ⟨cursor, by simpa using (Option.some.inj hp) ▸ hq⟩
    | succ n =>
      obtain ⟨cursor', h⟩ := ih (by simpa using hp)
      exact ⟨cursor', by rwa [show i + (n + 1) = i + 1 + n by omega]⟩

variable {β : Type*}

/-- A service that answers request `i` with a keyset page of the rows then present, each as
`project` shows it; a cursor it gives out means a key. -/
structure Pages (key : α → κ) (project : α → β) (rows : ℕ → List α) (limit : ℕ → ℕ)
    (content : π → List β) (means : γ → κ → Prop) (fetch : ℕ → Option γ → Except ε π)
    (next : π → Option γ) : Prop where
  limit_pos : ∀ i, 1 ≤ limit i
  nodup : ∀ i, ((rows i).map key).Nodup
  grow : ∀ i, ∀ r ∈ rows i, r ∈ rows (i + 1)
  page : ∀ i cursor after, Option.Rel means cursor after → ∃ p, fetch i cursor = .ok p ∧
    content p = (keysetPage key (limit i) after (rows i)).rows.map project ∧
    Option.Rel means (next p) (keysetPage key (limit i) after (rows i)).next

variable {key : α → κ} {project : α → β} {rows : ℕ → List α} {limit : ℕ → ℕ}
  {content : π → List β} {means : γ → κ → Prop}

/-- The rows a walk from this cursor visits. -/
structure Visits (key : α → κ) (rows : ℕ → List α) (i : ℕ) (after : Option κ) (seen : List α) :
    Prop where
  desc : seen.Pairwise fun a b => key b < key a
  below : ∀ r ∈ seen, ∀ k ∈ after, key r < k
  present : ∀ r ∈ seen, ∃ j, r ∈ rows j
  all : ∀ r ∈ rows i, (∀ k ∈ after, key r < k) → r ∈ seen

theorem visits_last {i : ℕ} {after : Option κ} {p : KeysetPage α κ}
    (hp : PageSpec key after (rows i) p) (hnone : p.next = none) : Visits key rows i after p.rows :=
  ⟨hp.desc, fun r hr => (hp.mem r hr).2, fun r hr => ⟨i, (hp.mem r hr).1⟩, hp.last hnone⟩

/-- A page, then the walk from its cursor. -/
theorem visits_more {i : ℕ} {after : Option κ} {p : KeysetPage α κ} {k : κ} {seen : List α}
    (hgrow : ∀ r ∈ rows i, r ∈ rows (i + 1)) (hp : PageSpec key after (rows i) p)
    (hnext : p.next = some k) (hseen : Visits key rows (i + 1) (some k) seen) :
    Visits key rows i after (p.rows ++ seen) := by
  obtain ⟨⟨m, hm, hkm⟩, hleast, hrest⟩ := hp.more k hnext
  have hlt : ∀ r ∈ seen, key r < k := fun r hr => hseen.below r hr k rfl
  refine ⟨List.pairwise_append.mpr ⟨hp.desc, hseen.desc, fun a ha b hb => ?_⟩, ?_, ?_, ?_⟩
  · exact (hlt b hb).trans_le (hleast a ha)
  · intro r hr k' hk'
    rcases List.mem_append.mp hr with hr | hr
    · exact (hp.mem r hr).2 k' hk'
    · exact (hlt r hr).trans_le (hkm ▸ ((hp.mem m hm).2 k' hk').le)
  · intro r hr
    rcases List.mem_append.mp hr with hr | hr
    · exact ⟨i, (hp.mem r hr).1⟩
    · exact hseen.present r hr
  · intro r hr hbelow
    rcases hrest r hr hbelow with hin | hlow
    · exact List.mem_append_left _ hin
    · refine List.mem_append_right _ (hseen.all r (hgrow r hr) fun k' hk' => ?_)
      rwa [← Option.mem_some_iff.mp hk']

theorem rel_none_right {δ ζ : Type*} {r : δ → ζ → Prop} {o : Option δ}
    (h : Option.Rel r o none) : o = none := by
  cases o with
  | none => rfl
  | some a => cases h

theorem rel_some_right {δ ζ : Type*} {r : δ → ζ → Prop} {o : Option δ} {d : ζ}
    (h : Option.Rel r o (some d)) : ∃ b, o = some b ∧ r b d := by
  cases o with
  | none => cases h
  | some b =>
    cases h with
    | some hr => exact ⟨b, rfl, hr⟩

/-- Some walk from this cursor ends, and visits what it should. -/
def Ends (key : α → κ) (project : α → β) (rows : ℕ → List α) (content : π → List β)
    (fetch : ℕ → Option γ → Except ε π) (next : π → Option γ) (i : ℕ) (cursor : Option γ)
    (after : Option κ) : Prop :=
  ∃ pages seen, Walk fetch next i cursor pages ∧ pages.flatMap content = seen.map project ∧
    Visits key rows i after seen

theorem ends_step (h : Pages key project rows limit content means fetch next) {after : Option κ}
    (ih : ∀ k, (∀ k' ∈ after, k < k') → ∀ i c, means c k →
      Ends key project rows content fetch next i (some c) (some k))
    (i : ℕ) (cursor : Option γ) (hc : Option.Rel means cursor after) :
    Ends key project rows content fetch next i cursor after := by
  obtain ⟨p, hfetch, hcontent, hnext⟩ := h.page i cursor after hc
  have hspec : PageSpec key after (rows i) (keysetPage key (limit i) after (rows i)) :=
    keysetPage_spec (h.limit_pos i) (h.nodup i)
  cases hk : (keysetPage key (limit i) after (rows i)).next with
  | none =>
    rw [hk] at hnext
    refine ⟨[p], _, Walk.last hfetch (rel_none_right hnext), ?_, visits_last hspec hk⟩
    rw [List.flatMap_singleton, hcontent]
  | some k =>
    rw [hk] at hnext
    obtain ⟨c, hpc, hmeans⟩ := rel_some_right hnext
    obtain ⟨⟨m, hm, rfl⟩, -, -⟩ := hspec.more k hk
    obtain ⟨pages, seen, hwalk, hseen, hvisits⟩ :=
      ih (key m) (hspec.mem m hm).2 (i + 1) c hmeans
    refine ⟨p :: pages, _, Walk.more hfetch hpc hwalk, ?_, visits_more (h.grow i) hspec hk hvisits⟩
    rw [List.flatMap_cons, hcontent, hseen, List.map_append]

/-- Each next cursor is a lesser key. -/
theorem ends_of_key [WellFoundedLT κ]
    (h : Pages key project rows limit content means fetch next) (k : κ) :
    ∀ i c, means c k → Ends key project rows content fetch next i (some c) (some k) := by
  induction k using WellFoundedLT.induction with
  | ind k ih =>
    intro i c hc
    exact ends_step h (fun k' hk' => ih k' (hk' k rfl)) i (some c) (Option.Rel.some hc)

/-- **Paging enumerates exactly.**  The walk from the first request ends, and visits in descending
order every row then present. -/
theorem walk_pages [WellFoundedLT κ]
    (h : Pages key project rows limit content means fetch next) :
    Ends key project rows content fetch next 0 none none :=
  ends_step h (fun k _ => ends_of_key h k) 0 none Option.Rel.none

end Walk

end Lib
