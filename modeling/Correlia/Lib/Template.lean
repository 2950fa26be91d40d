import Correlia.Lib.Sorted
import Correlia.Lib.Text

/-!
# Lib.Template — text with names in braces

A template is read as pieces: characters, and names in braces.  Where no opening brace is left
without its name, replacing a name in the text is replacing its pieces; so names that are replaced
one after the other are replaced piece by piece, and what is put in is only touched again where it
brings names of its own.
-/

namespace Lib

inductive Piece
  | char (c : Char)
  | name (n : List Char)
deriving DecidableEq

def Piece.chars : Piece → List Char
  | char c => [c]
  | name n => '\x7b' :: (n ++ ['\x7d'])

def textOf (ps : List Piece) : List Char := ps.flatMap Piece.chars

/-- The pieces of a text.  The argument is what has been read since an opening brace, when inside. -/
def pieces : Option (List Char) → List Char → List Piece
  | none, [] => []
  | some inner, [] => .char '\x7b' :: inner.reverse.map .char
  | none, c :: cs => if c = '\x7b' then pieces (some []) cs else .char c :: pieces none cs
  | some inner, c :: cs =>
    if c = '\x7d' then .name inner.reverse :: pieces none cs else pieces (some (c :: inner)) cs

/-- Every name that has a value is replaced, in one pass. -/
def fill (σ : List Char → Option (List Char)) (ps : List Piece) : List Char :=
  ps.flatMap fun
    | .char c => [c]
    | .name n => (σ n).getD (Piece.name n).chars

/-- The name is replaced by pieces. -/
def putName (k : List Char) (vs : List Piece) (ps : List Piece) : List Piece :=
  ps.flatMap fun p => if p = .name k then vs else [p]

def BraceFree (n : List Char) : Prop := '\x7b' ∉ n ∧ '\x7d' ∉ n

/-- Names without braces, and no opening brace. -/
def Plain (ps : List Piece) : Prop :=
  ∀ p ∈ ps, match p with
    | .char c => c ≠ '\x7b'
    | .name n => BraceFree n

/-- Behind an opening brace that begins no name there is no closing one. -/
def WellRead : List Piece → Prop
  | [] => True
  | .name n :: ps => BraceFree n ∧ WellRead ps
  | .char c :: ps => if c = '\x7b' then ∀ p ∈ ps, ∃ d, p = .char d ∧ d ≠ '\x7d' else WellRead ps

/-! ### Reading -/

section

variable {cs : List Char} {ps : List Piece}

theorem textOf_map_char (cs : List Char) : textOf (cs.map .char) = cs := by
  induction cs with
  | nil => rfl
  | cons c cs ih => exact congrArg (c :: ·) ih

theorem textOf_pieces (inner : Option (List Char)) (cs : List Char) :
    textOf (pieces inner cs) = (inner.elim [] fun i => '\x7b' :: i.reverse) ++ cs := by
  induction cs generalizing inner with
  | nil =>
    cases inner with
    | none => rfl
    | some i =>
      show '\x7b' :: textOf (i.reverse.map .char) = _
      rw [textOf_map_char, List.append_nil]
      rfl
  | cons c cs ih =>
    cases inner with
    | none =>
      unfold pieces
      split
      · rename_i hc
        rw [ih, hc]
        rfl
      · show c :: textOf (pieces none cs) = _
        rw [ih]
        rfl
    | some i =>
      unfold pieces
      split
      · rename_i hc
        show (Piece.name i.reverse).chars ++ textOf (pieces none cs) = _
        rw [ih, hc]
        simp [Piece.chars]
      · rw [ih]
        simp

theorem pieces_of_notMem (h : '\x7b' ∉ cs) : pieces none cs = cs.map .char := by
  induction cs with
  | nil => rfl
  | cons c cs ih =>
    obtain ⟨hc, hcs⟩ := not_or.mp fun hor => h (List.mem_cons.mpr hor)
    rw [pieces, if_neg (Ne.symm hc), ih hcs]
    rfl

theorem wellRead_pieces (inner : Option (List Char)) (hinner : ∀ i ∈ inner, '\x7d' ∉ i)
    (h : ∀ n, Piece.name n ∈ pieces inner cs → BraceFree n) : WellRead (pieces inner cs) := by
  induction cs generalizing inner with
  | nil =>
    cases inner with
    | none => trivial
    | some i =>
      show if _ then _ else _
      rw [if_pos rfl]
      intro p hp
      obtain ⟨d, hd, rfl⟩ := List.mem_map.mp hp
      exact ⟨d, rfl, fun heq => hinner i rfl (heq ▸ List.mem_reverse.mp hd)⟩
  | cons c cs ih =>
    cases inner with
    | none =>
      unfold pieces at h ⊢
      split at h <;> rename_i hc
      · rw [if_pos hc]
        exact ih (some []) (by rintro i ⟨⟩; exact List.not_mem_nil) h
      · rw [if_neg hc, WellRead, if_neg hc]
        exact ih none nofun fun n hn => h n (List.mem_cons_of_mem _ hn)
    | some i =>
      unfold pieces at h ⊢
      split at h <;> rename_i hc
      · rw [if_pos hc]
        exact ⟨h _ List.mem_cons_self, ih none nofun fun n hn => h n (List.mem_cons_of_mem _ hn)⟩
      · rw [if_neg hc]
        refine ih (some (c :: i)) ?_ h
        rintro _ ⟨⟩ hmem
        rcases List.mem_cons.mp hmem with heq | hmem
        · exact hc heq.symm
        · exact hinner i rfl hmem

end

/-! ### Replacing one name -/

section

variable {o c : Char} {k : List Char} {vs ps : List Piece} (old new : List Char)

theorem replaceFrom_skip (l rest : List Char) :
    replaceFrom old new l.length (l ++ rest) = replaceFrom old new 0 rest := by
  induction l with
  | nil => rfl
  | cons c l ih => exact ih

theorem replaceFrom_hit (rest : List Char) :
    replaceFrom (o :: old) new 0 (o :: old ++ rest) = new ++ replaceFrom (o :: old) new 0 rest := by
  rw [List.cons_append, replaceFrom, if_pos ⟨rest, rfl⟩]
  exact congrArg (new ++ ·) (replaceFrom_skip _ new old rest)

theorem replaceFrom_miss {cs : List Char} (h : ¬ old <+: c :: cs) :
    replaceFrom old new 0 (c :: cs) = c :: replaceFrom old new 0 cs := by
  rw [replaceFrom, if_neg h]

/-- Characters that do not begin an occurrence are passed over. -/
theorem replaceFrom_append {l : List Char} (h : o ∉ l) (rest : List Char) :
    replaceFrom (o :: old) new 0 (l ++ rest) = l ++ replaceFrom (o :: old) new 0 rest := by
  induction l with
  | nil => rfl
  | cons c l ih =>
    obtain ⟨hc, hl⟩ := not_or.mp fun hor => h (List.mem_cons.mpr hor)
    rw [List.cons_append, replaceFrom, if_neg, ih hl, List.cons_append]
    rintro ⟨t, ht⟩
    exact hc (List.cons_eq_cons.mp ht).1

theorem replaceFrom_of_notMem {cs : List Char} (hold : c ∈ old) (hc : c ∉ cs) :
    replaceFrom old new 0 cs = cs := by
  induction cs with
  | nil => rfl
  | cons d cs ih =>
    rw [replaceFrom, if_neg, ih fun h => hc (List.mem_cons_of_mem d h)]
    exact fun h => hc (h.subset hold)

theorem eq_of_chars_append {n rest : List Char} (hk : BraceFree k) (hn : BraceFree n)
    (h : (Piece.name k).chars <+: (Piece.name n).chars ++ rest) : k = n := by
  have htake : ∀ {m t : List Char}, '\x7d' ∉ m →
      (m ++ '\x7d' :: t).takeWhile (· ≠ '\x7d') = m := by
    intro m t hm
    rw [List.takeWhile_append_of_pos]
    · simp
    · exact fun c hc => decide_eq_true fun heq => hm (heq ▸ hc)
  obtain ⟨t, ht⟩ := h
  have heq : k ++ '\x7d' :: t = n ++ '\x7d' :: rest := by
    simpa [Piece.chars] using ht
  rw [← htake hk.2 (t := t), heq, htake hn.2]

/-- **One name**: replacing it in the text replaces its pieces. -/
theorem replaceFrom_textOf (hk : BraceFree k) (h : WellRead ps) :
    replaceFrom (Piece.name k).chars new 0 (textOf ps) =
      ps.flatMap fun p => if p = .name k then new else p.chars := by
  induction ps with
  | nil => rfl
  | cons p ps ih =>
    rw [textOf, List.flatMap_cons, ← textOf, List.flatMap_cons]
    cases p with
    | char c =>
      rw [WellRead] at h
      rw [if_neg nofun]
      by_cases hc : c = '\x7b'
      · -- no name follows
        rw [if_pos hc] at h
        have hchars : ∀ f : Piece → List Char, (∀ d, f (.char d) = [d]) →
            ps.flatMap f = textOf ps := by
          intro f hf
          refine List.flatMap_congr fun p hp => ?_
          obtain ⟨d, rfl, -⟩ := h p hp
          exact hf d
        rw [hchars _ fun d => if_neg nofun]
        refine replaceFrom_of_notMem (c := '\x7d') _ new (by simp [Piece.chars]) ?_
        intro hmem
        rcases List.mem_append.mp hmem with hmem | hmem
        · cases List.mem_singleton.mp (hmem : '\x7d' ∈ [c])
          cases hc
        · obtain ⟨p, hp, hmem⟩ := List.mem_flatMap.mp hmem
          obtain ⟨d, rfl, hd⟩ := h p hp
          exact hd (List.mem_singleton.mp hmem).symm
      · rw [if_neg hc] at h
        have hstart : '\x7b' ∉ (Piece.char c).chars := fun hmem =>
          hc (List.mem_singleton.mp hmem).symm
        exact (replaceFrom_append _ new hstart (textOf ps)).trans (congrArg ([c] ++ ·) (ih h))
    | name n =>
      obtain ⟨hn, h⟩ := h
      by_cases hkn : k = n
      · subst hkn
        rw [if_pos rfl]
        exact (replaceFrom_hit _ new (textOf ps)).trans (congrArg (new ++ ·) (ih h))
      · have hstart : '\x7b' ∉ n ++ ['\x7d'] := fun hmem => by
          rcases List.mem_append.mp hmem with hmem | hmem
          · exact hn.1 hmem
          · cases List.mem_singleton.mp hmem
        have hno : ¬ (Piece.name k).chars <+: (Piece.name n).chars ++ textOf ps := fun hpre =>
          hkn (eq_of_chars_append hk hn hpre)
        rw [if_neg fun heq => hkn (Piece.name.inj heq).symm]
        have hmiss := replaceFrom_miss _ new hno
        have hpass := replaceFrom_append (k ++ ['\x7d']) new hstart (textOf ps)
        exact hmiss.trans (congrArg ('\x7b' :: ·)
          (hpass.trans (congrArg (n ++ ['\x7d'] ++ ·) (ih h))))

end

/-! ### Replacing one name after the other -/

section

variable {k v : List Char} {vs ps qs : List Piece} {ctx : List (List Char × List Char)}

theorem textOf_putName (hk : BraceFree k) (h : WellRead ps) (v : List Char) :
    textOf (putName k (pieces none v) ps) = replaceFrom (Piece.name k).chars v 0 (textOf ps) := by
  rw [replaceFrom_textOf v hk h, putName, textOf, List.flatMap_assoc]
  refine List.flatMap_congr fun p _ => ?_
  by_cases hp : p = .name k
  · rw [if_pos hp, if_pos hp]
    exact textOf_pieces none v
  · rw [if_neg hp, if_neg hp]
    exact List.append_nil _

theorem putName_of_notMem (h : Piece.name k ∉ ps) : putName k vs ps = ps := by
  have hsame : ps.flatMap (fun p => if p = .name k then vs else [p]) = ps.flatMap fun p => [p] :=
    List.flatMap_congr fun p hp => if_neg fun heq : p = .name k => h (heq ▸ hp)
  rw [putName, hsame]
  exact List.flatMap_singleton' ps

theorem mem_putName {p : Piece} (h : p ∈ putName k vs ps) :
    p ∈ ps ∨ Piece.name k ∈ ps ∧ p ∈ vs := by
  obtain ⟨q, hq, hp⟩ := List.mem_flatMap.mp h
  by_cases hk : q = .name k
  · rw [if_pos hk] at hp
    exact .inr ⟨hk ▸ hq, hp⟩
  · rw [if_neg hk] at hp
    cases List.mem_singleton.mp hp
    exact .inl hq

theorem wellRead_append (hps : Plain ps) (hqs : WellRead qs) : WellRead (ps ++ qs) := by
  induction ps with
  | nil => exact hqs
  | cons p ps ih =>
    obtain ⟨hp, hrest⟩ := List.forall_mem_cons.mp hps
    cases p with
    | char c =>
      rw [List.cons_append, WellRead, if_neg hp]
      exact ih hrest
    | name n => exact ⟨hp, ih hrest⟩

theorem wellRead_putName (h : WellRead ps) (hvs : Piece.name k ∈ ps → Plain vs) :
    WellRead (putName k vs ps) := by
  induction ps with
  | nil => trivial
  | cons p ps ih =>
    have ih := fun h => ih h fun hmem => hvs (List.mem_cons_of_mem p hmem)
    rw [putName, List.flatMap_cons, ← putName]
    cases p with
    | name n =>
      obtain ⟨hn, h⟩ := h
      by_cases hk : Piece.name n = .name k
      · rw [if_pos hk]
        exact wellRead_append (hvs (hk ▸ List.mem_cons_self)) (ih h)
      · rw [if_neg hk]
        exact ⟨hn, ih h⟩
    | char c =>
      rw [if_neg nofun]
      by_cases hc : c = '\x7b'
      · rw [putName_of_notMem]
        · exact h
        · intro hmem
          rw [WellRead, if_pos hc] at h
          obtain ⟨d, hd, -⟩ := h _ hmem
          cases hd
      · rw [WellRead, if_neg hc] at h
        rw [List.cons_append, WellRead, if_neg hc]
        exact ih h

/-- The values, read as pieces themselves, put in one after the other. -/
def fillEach (ctx : List (List Char × List Char)) (ps : List Piece) : List Piece :=
  ctx.foldl (fun ps e => putName e.1 (pieces none e.2) ps) ps

/-- **One name after the other.**  `S` holds of the names that ever stand in the text. -/
theorem foldl_replaceFrom {S : List Char → Prop} (hkeys : ∀ e ∈ ctx, BraceFree e.1)
    (hvalues : ∀ e ∈ ctx, S e.1 → Plain (pieces none e.2) ∧
      ∀ n, Piece.name n ∈ pieces none e.2 → S n)
    (h : WellRead ps) (hps : ∀ n, Piece.name n ∈ ps → S n) :
    ctx.foldl (fun t e => replaceFrom (Piece.name e.1).chars e.2 0 t) (textOf ps) =
      textOf (fillEach ctx ps) := by
  induction ctx generalizing ps with
  | nil => rfl
  | cons e ctx ih =>
    obtain ⟨hkey, hkeys⟩ := List.forall_mem_cons.mp hkeys
    obtain ⟨hvalue, hvalues⟩ := List.forall_mem_cons.mp hvalues
    rw [List.foldl_cons, ← textOf_putName hkey h, fillEach, List.foldl_cons]
    refine ih hkeys hvalues (wellRead_putName h fun hmem => (hvalue (hps _ hmem)).1) fun n hn => ?_
    rcases mem_putName hn with hn | ⟨hmem, hn⟩
    · exact hps n hn
    · exact (hvalue (hps _ hmem)).2 n hn

theorem fillEach_of_notMem (h : ∀ e ∈ ctx, Piece.name e.1 ∉ ps) : fillEach ctx ps = ps := by
  induction ctx with
  | nil => rfl
  | cons e ctx ih =>
    obtain ⟨he, hctx⟩ := List.forall_mem_cons.mp h
    rw [fillEach, List.foldl_cons, putName_of_notMem he]
    exact ih hctx

theorem fillEach_append (ctx : List (List Char × List Char)) (ps qs : List Piece) :
    fillEach ctx (ps ++ qs) = fillEach ctx ps ++ fillEach ctx qs := by
  induction ctx generalizing ps qs with
  | nil => rfl
  | cons e ctx ih =>
    rw [fillEach, List.foldl_cons, putName, List.flatMap_append]
    exact ih _ _

theorem fillEach_eq_flatMap (ctx : List (List Char × List Char)) (ps : List Piece) :
    fillEach ctx ps = ps.flatMap fun p => fillEach ctx [p] := by
  induction ps with
  | nil => exact fillEach_of_notMem fun _ _ => List.not_mem_nil
  | cons p ps ih => rw [List.flatMap_cons, ← ih, ← fillEach_append, List.singleton_append]

theorem fillEach_chars (ctx : List (List Char × List Char)) (cs : List Char) :
    fillEach ctx (cs.map .char) = cs.map .char := by
  refine fillEach_of_notMem fun e _ hmem => ?_
  obtain ⟨_, -, heq⟩ := List.mem_map.mp hmem
  cases heq

/-- A name is given its value, and the later values go into that. -/
theorem fillEach_name {pre post : List (List Char × List Char)} (h : ∀ e ∈ pre, e.1 ≠ k) :
    fillEach (pre ++ (k, v) :: post) [.name k] = fillEach post (pieces none v) := by
  have hpre : fillEach pre [.name k] = [.name k] :=
    fillEach_of_notMem fun e he hmem => h e he (Piece.name.inj (List.mem_singleton.mp hmem))
  rw [fillEach, List.foldl_append]
  show fillEach ((k, v) :: post) (fillEach pre [.name k]) = _
  rw [hpre]
  show fillEach post ((if Piece.name k = .name k then pieces none v else [.name k]) ++ []) = _
  rw [if_pos rfl, List.append_nil]

/-- The entry a key is looked up as. -/
theorem exists_split_of_getItem (h : getItem k ctx = some v) :
    ∃ pre post, ctx = pre ++ (k, v) :: post ∧ ∀ e ∈ pre, e.1 ≠ k := by
  obtain ⟨e, he, rfl⟩ := Option.map_eq_some_iff.mp h
  obtain ⟨hk, pre, post, rfl, hpre⟩ := List.find?_eq_some_iff_append.mp he
  cases of_decide_eq_true hk
  exact ⟨pre, post, rfl, fun e he heq => by simpa [heq] using hpre e he⟩

/-- **Values without opening braces**: one after the other is all at once. -/
theorem textOf_fillEach (h : ∀ n v, Piece.name n ∈ ps → getItem n ctx = some v → '\x7b' ∉ v) :
    textOf (fillEach ctx ps) = fill (fun n => getItem n ctx) ps := by
  rw [fillEach_eq_flatMap, textOf, List.flatMap_assoc, fill]
  refine List.flatMap_congr fun p hp => ?_
  cases p with
  | char c =>
    rw [fillEach_of_notMem fun e _ hmem => by cases List.mem_singleton.mp hmem]
    rfl
  | name n =>
    show textOf (fillEach ctx [.name n]) = (getItem n ctx).getD (Piece.name n).chars
    cases hget : getItem n ctx with
    | none =>
      rw [fillEach_of_notMem]
      · exact List.append_nil _
      · intro e he hmem
        have hn := Piece.name.inj (List.mem_singleton.mp hmem)
        exact getItem_eq_none.mp hget (hn ▸ List.mem_map_of_mem he)
    | some v =>
      obtain ⟨pre, post, rfl, hpre⟩ := exists_split_of_getItem hget
      rw [fillEach_name hpre, pieces_of_notMem (h n v hp hget), fillEach_chars]
      exact textOf_map_char v

end

end Lib
