import Correlia.Lib.JsonLength
import Correlia.Redaction

/-!
# SizeCap — what the size cap keeps of a redacted payload

The loop takes whole fields in a fixed order, largest first, and keeps the length of what is left by
subtraction.  That length is the canonical one at every turn (`capTrace_length`), so the loop stops
at the shortest prefix of the order without which the payload fits (`capLoop_spec`).
-/

namespace Correlia

open Lib Json

/-- The fields in the order of removal: by encoded length downwards, then by key. -/
def removalOrder (fields : List (String × Json)) : List (String × Json) :=
  sortBy (fun e => (toLex (-(entryBytes e : ℤ), e.1) : ℤ ×ₗ String)) fields

/-- What is left of the fields without those removed. -/
def without (removed fields : List (String × Json)) : List (String × Json) :=
  fields.filter fun e => decide (e.1 ∉ removed.map Prod.fst)

/-- The loop's variables, `stored_byte_length` and `payload`, at each turn of the removal loop. -/
def capTrace (maxBytes : ℤ) : List (ℤ × String) → ℤ → List (String × Json) →
    List (ℤ × List (String × Json))
  | [], stored, payload => [(stored, payload)]
  | (fieldBytes, key) :: rest, stored, payload =>
    (stored, payload) ::
      if stored ≤ maxBytes then []
      else capTrace maxBytes rest (stored - (fieldBytes + if 1 < payload.length then 1 else 0))
        (payload.filter fun e => decide (e.1 ≠ key))

/-- The fields as the loop of `_semantic_cap_payload` goes through them. -/
def capFields (payload : List (String × Json)) : List (ℤ × String) :=
  sortBy capRank (payload.map fun e => ((canonicalBytes (.object [e]) : ℤ) - 2, e.1))

variable {maxBytes : ℤ}

/-- The loop ends with the payload of its last turn. -/
theorem capTrace_last (maxBytes : ℤ) (fields : List (ℤ × String)) (stored : ℤ)
    (payload : List (String × Json)) :
    ((capTrace maxBytes fields stored payload).getLast?).map Prod.snd =
      some (capLoop maxBytes fields stored payload) := by
  induction fields generalizing stored payload with
  | nil => rfl
  | cons f rest ih =>
    obtain ⟨fieldBytes, key⟩ := f
    rw [capTrace, capLoop]
    by_cases h : stored ≤ maxBytes
    · rw [if_pos h, if_pos h]
      rfl
    · rw [if_neg h, if_neg h, ← ih]
      obtain ⟨p, hp, -⟩ := Option.map_eq_some_iff.mp
        (ih (stored - (fieldBytes + if 1 < payload.length then 1 else 0))
          (payload.filter fun e => decide (e.1 ≠ key)))
      rw [List.getLast?_cons, hp]
      rfl

theorem removalOrder_perm (fields : List (String × Json)) : (removalOrder fields).Perm fields :=
  perm_sortBy _ fields

theorem removalOrder_sorted {fields : List (String × Json)} (hk : (fields.map Prod.fst).Nodup) :
    (removalOrder fields).Pairwise fun e f =>
      entryBytes f < entryBytes e ∨ entryBytes e = entryBytes f ∧ e.1 < f.1 := by
  have hnodup : (fields.map fun e => (toLex (-(entryBytes e : ℤ), e.1) : ℤ ×ₗ String)).Nodup := by
    refine List.Nodup.of_map (fun r : ℤ ×ₗ String => (ofLex r).2) ?_
    rw [List.map_map]
    exact hk
  refine (sortBy_strict hnodup).imp fun h => ?_
  rcases Prod.Lex.lt_iff.mp h with h | ⟨h, hlt⟩
  · left
    simpa using h
  · right
    refine ⟨?_, hlt⟩
    simpa using h

theorem canonicalBytes_single (e : String × Json) :
    (canonicalBytes (.object [e]) : ℤ) - 2 = entryBytes e := by
  rw [canonicalBytes, byteLength_object_single]
  push_cast
  ring

theorem capFields_eq (fields : List (String × Json)) :
    capFields fields = (removalOrder fields).map fun e => ((entryBytes e : ℤ), e.1) := by
  have hrank : (fun e : String × Json => capRank ((entryBytes e : ℤ), e.1)) =
      fun e => (toLex (-(entryBytes e : ℤ), e.1) : ℤ ×ₗ String) := rfl
  unfold capFields removalOrder
  simp only [canonicalBytes_single]
  rw [sortBy_map, hrank]

/-! ### The loop -/

theorem without_nil (fields : List (String × Json)) : without [] fields = fields := by
  simp [without]

theorem without_cons (e : String × Json) (removed fields : List (String × Json)) :
    without (e :: removed) fields =
      without removed (fields.filter fun f => decide (f.1 ≠ e.1)) := by
  unfold without
  rw [List.filter_filter]
  refine List.filter_congr fun f _ => ?_
  simp only [List.map_cons, List.mem_cons, not_or, ne_eq, Bool.decide_and, Bool.and_comm]

/-- **The removal loop.**  From the canonical length of the payload and the payload's own fields, in
any order: each turn's length is canonical, and the loop ends after the shortest prefix without
which the payload fits. -/
theorem capLoop_spec {order payload : List (String × Json)} (hmax : 2 ≤ maxBytes)
    (hk : (payload.map Prod.fst).Nodup) (hperm : order.Perm payload) :
    let fields := order.map fun e => ((entryBytes e : ℤ), e.1)
    let stored : ℤ := canonicalBytes (.object payload)
    (∀ turn ∈ capTrace maxBytes fields stored payload,
      turn.1 = canonicalBytes (.object turn.2)) ∧
    ∃ removed kept, order = removed ++ kept ∧
      capLoop maxBytes fields stored payload = without removed payload ∧
      (canonicalBytes (.object (without removed payload)) : ℤ) ≤ maxBytes ∧
      ∀ shorter rest, removed = shorter ++ rest → rest ≠ [] →
        maxBytes < canonicalBytes (.object (without shorter payload)) := by
  induction order generalizing payload with
  | nil =>
    obtain rfl : payload = [] := hperm.nil_eq.symm
    have hempty : canonicalBytes (.object []) = 2 := by
      rw [canonicalBytes, byteLength_object]
      rfl
    refine ⟨fun turn hturn => ?_, [], [], rfl, rfl, ?_, fun shorter rest h hne => ?_⟩
    · rw [List.mem_singleton.mp hturn]
    · rw [without_nil, hempty]
      exact_mod_cast hmax
    · exact absurd (List.append_eq_nil_iff.mp h.symm).2 hne
  | cons e order ih =>
    simp only [List.map_cons, capTrace, capLoop]
    by_cases hfits : (canonicalBytes (.object payload) : ℤ) ≤ maxBytes
    · rw [if_pos hfits, if_pos hfits]
      refine ⟨fun turn hturn => ?_, [], e :: order, rfl, (without_nil payload).symm, ?_,
        fun shorter rest h hne => ?_⟩
      · rw [List.mem_singleton.mp hturn]
      · rwa [without_nil]
      · exact absurd (List.append_eq_nil_iff.mp h.symm).2 hne
    · have he : e ∈ payload := hperm.subset List.mem_cons_self
      -- what is left after `e`, and its length
      have hlength : (canonicalBytes (.object payload) : ℤ) -
          ((entryBytes e : ℤ) + if 1 < payload.length then 1 else 0) =
            canonicalBytes (.object (payload.filter fun f => decide (f.1 ≠ e.1))) := by
        have h := byteLength_object_without hk he
        unfold canonicalBytes
        rw [h]
        push_cast
        split_ifs <;> ring
      have hk' : ((payload.filter fun f => decide (f.1 ≠ e.1)).map Prod.fst).Nodup :=
        hk.sublist (List.filter_sublist.map Prod.fst)
      have hperm' : order.Perm (payload.filter fun f => decide (f.1 ≠ e.1)) := by
        have hfilter := hperm.filter fun f => decide (f.1 ≠ e.1)
        have hself : order.filter (fun f => decide (f.1 ≠ e.1)) = order := by
          have hnodup : ((e :: order).map Prod.fst).Nodup := (hperm.map Prod.fst).nodup_iff.mpr hk
          rw [List.map_cons, List.nodup_cons] at hnodup
          rw [List.filter_eq_self]
          intro f hf
          exact decide_eq_true fun heq => hnodup.1 (heq ▸ List.mem_map_of_mem hf)
        rwa [List.filter_cons_of_neg (by simp), hself] at hfilter
      obtain ⟨htrace, removed, kept, rfl, hloop, hend, hshort⟩ := ih hk' hperm'
      rw [if_neg hfits, if_neg hfits, hlength]
      refine ⟨List.forall_mem_cons.mpr ⟨rfl, htrace⟩, e :: removed, kept, rfl, ?_, ?_, ?_⟩
      · rw [without_cons, hloop]
      · rwa [without_cons]
      · intro shorter rest h hne
        cases shorter with
        | nil =>
          rw [without_nil]
          exact not_le.mp hfits
        | cons f shorter =>
          obtain ⟨rfl, htail⟩ := List.cons.inj h
          rw [without_cons]
          exact hshort shorter rest htail hne

/-- The canonical length of an object is at least that of `{}`. -/
theorem two_le_canonicalBytes (fields : List (String × Json)) :
    2 ≤ canonicalBytes (.object fields) := by
  rw [canonicalBytes, byteLength_object]
  omega

/-- `_semantic_cap_payload`, whether or not the payload fits at once. -/
theorem semanticCapPayload_spec {payload : List (String × Json)} (hmax : 2 ≤ maxBytes)
    (hk : (payload.map Prod.fst).Nodup) :
    let capped := semanticCapPayload payload maxBytes
    capped.storedByteLength = canonicalBytes (.object capped.payload) ∧
    (capped.truncated = true ↔ maxBytes < canonicalBytes (.object payload)) ∧
    ∃ removed kept, removalOrder payload = removed ++ kept ∧
      capped.payload = without removed payload ∧
      (canonicalBytes (.object (without removed payload)) : ℤ) ≤ maxBytes ∧
      ∀ shorter rest, removed = shorter ++ rest → rest ≠ [] →
        maxBytes < canonicalBytes (.object (without shorter payload)) := by
  obtain ⟨-, hloop⟩ := capLoop_spec hmax hk (removalOrder_perm payload)
  unfold semanticCapPayload
  dsimp only
  by_cases hfits : (canonicalBytes (.object payload) : ℤ) ≤ maxBytes
  · rw [if_pos hfits]
    refine ⟨rfl, by simpa using hfits, [], removalOrder payload, rfl, (without_nil payload).symm, ?_,
      fun shorter rest h hne => ?_⟩
    · rwa [without_nil]
    · exact absurd (List.append_eq_nil_iff.mp h.symm).2 hne
  · rw [if_neg hfits]
    refine ⟨rfl, by simpa using hfits, ?_⟩
    have hfields := capFields_eq payload
    rw [capFields] at hfields
    rw [hfields]
    exact hloop

/-- **The size cap.**  For every JSON object and every cap of at least two bytes: the stored length
is the canonical one and within the cap, so never above the original; the payload counts as
truncated iff the redacted one exceeds the cap; what is kept is as redacted; the removed fields are
the shortest prefix of the order, by encoded length downwards and then by key, without which the
rest fits; and the length the loop keeps is canonical at every turn. -/
theorem semantic_size_cap (hmac : String → List Char → HexDigest) (payload : Option JsonDict)
    (maxBytes : ℤ) (hmacKey : String) (hmax : 2 ≤ maxBytes) (hkey : hmacKey ≠ "") :
    ∃ r, redactPayload hmac payload maxBytes hmacKey = .ok r ∧
      let source := (payload.getD emptyPayload).fields
      let redacted := redactFields source
      let cap := min maxBytes r.originalByteLength
      r.originalByteLength = canonicalBytes (.object source) ∧
      r.storedByteLength = canonicalBytes (.object r.payload) ∧
      (r.storedByteLength : ℤ) ≤ cap ∧ r.storedByteLength ≤ r.originalByteLength ∧
      (r.truncated = true ↔ cap < canonicalBytes (.object redacted)) ∧
      (∀ key value, getItem key r.payload = some value → getItem key redacted = some value) ∧
      (removalOrder redacted).Perm redacted ∧
      ((removalOrder redacted).Pairwise fun e f =>
        entryBytes f < entryBytes e ∨ entryBytes e = entryBytes f ∧ e.1 < f.1) ∧
      (∃ removed kept, removalOrder redacted = removed ++ kept ∧
        r.payload = without removed redacted ∧
        (canonicalBytes (.object (without removed redacted)) : ℤ) ≤ cap ∧
        ∀ shorter rest, removed = shorter ++ rest → rest ≠ [] →
          cap < canonicalBytes (.object (without shorter redacted))) ∧
      ∀ turn ∈ capTrace cap (capFields redacted) (canonicalBytes (.object redacted)) redacted,
        turn.1 = canonicalBytes (.object turn.2) := by
  have hcoerce : coerceHmacKey hmacKey = .ok hmacKey := if_neg hkey
  unfold redactPayload
  rw [if_neg (by omega), hcoerce]
  refine ⟨_, rfl, ?_⟩
  dsimp only
  set source := (payload.getD emptyPayload).fields
  have hk : ((redactFields source).map Prod.fst).Nodup := by
    rw [redactFields_keys]
    exact (payload.getD emptyPayload).distinct.keys
  have hcap : (2 : ℤ) ≤ min maxBytes (byteLength (Json.object source).canonicalJson) :=
    le_min hmax (by exact_mod_cast two_le_canonicalBytes source)
  obtain ⟨hstored, htrunc, removed, kept, horder, hpayload, hfits, hshort⟩ :=
    semanticCapPayload_spec hcap hk
  have hle := hfits
  rw [← hpayload, ← hstored] at hle
  refine ⟨rfl, hstored, hle, ?_, htrunc, fun key value hget => ?_, removalOrder_perm _,
    removalOrder_sorted hk, ⟨removed, kept, horder, hpayload, hfits, hshort⟩, ?_⟩
  · exact_mod_cast hle.trans (min_le_right _ _)
  · exact getItem_of_sublist (semanticCapPayload_sublist _ _) hk hget
  · rw [capFields_eq]
    exact (capLoop_spec hcap hk (removalOrder_perm _)).1

/-- Three fields of which the two longer take eleven bytes each. -/
def sampleCapped : JsonDict where
  fields := [("b", .string "xxxxx"), ("a", .string "yyyyy"), ("c", .int 1)]
  distinct := by
    refine .object (by decide) fun e he => ?_
    simp only [List.mem_cons, List.not_mem_nil, or_false] at he
    rcases he with rfl | rfl | rfl
    · exact .string _
    · exact .string _
    · exact .int _

example : (redactPayload (fun _ _ => HexDigest.ofNat 5) (some sampleCapped) 20 "key").toOption.map
    (fun r => (r.payload.map Prod.fst, r.storedByteLength)) = some (["b", "c"], 19) := by
  decide +kernel

theorem semantic_size_cap_sample : ∃ r, redactPayload (fun _ _ => HexDigest.ofNat 5)
      (some sampleCapped) 20 "key" = .ok r ∧
    r.storedByteLength = canonicalBytes (.object r.payload) ∧
    r.storedByteLength ≤ r.originalByteLength := by
  obtain ⟨r, hr, -, hstored, -, hle, -⟩ := semantic_size_cap (fun _ _ => HexDigest.ofNat 5)
    (some sampleCapped) 20 "key" (by omega) (by decide)
  exact ⟨r, hr, hstored, hle⟩

end Correlia
