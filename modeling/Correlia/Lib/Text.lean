import Mathlib

/-!
# Lib.Text — the Python text operations a validator rests on

Blank tests (`str.strip`), lower-casing and substring tests (`fragment in text.lower()`),
`str.replace`, and fixed-width decimal fields.  A Python `str` is a Lean `String`: a list of
Unicode scalar values (lone surrogates never pass a strict string field).
-/

namespace Lib

/-- `str.isspace` of one character: the characters `str.strip` removes. -/
def isSpace (c : Char) : Bool :=
  let n := c.toNat
  (9 ≤ n && n ≤ 13) || (28 ≤ n && n ≤ 32) || n == 0x85 || n == 0xA0 || n == 0x1680 ||
    (0x2000 ≤ n && n ≤ 0x200A) || n == 0x2028 || n == 0x2029 || n == 0x202F || n == 0x205F ||
    n == 0x3000

/-- `not s or not s.strip()`. -/
def isBlank (s : String) : Bool := s.toList.all isSpace

/-- `s[:n]`. -/
def takeText (n : ℕ) (s : String) : String := String.ofList (s.toList.take n)

@[simp] theorem takeText_length (n : ℕ) (s : String) :
    (takeText n s).length = min n s.length := by
  rw [takeText, String.length_ofList, List.length_take, String.length_toList]

theorem takeText_of_length_le {n : ℕ} {s : String} (h : s.length ≤ n) : takeText n s = s := by
  rw [takeText, List.take_of_length_le (by rwa [String.length_toList]), String.ofList_toList]

/-- One character that is not a space makes a text non-blank. -/
theorem isBlank_eq_false {s : String} {c : Char} (hc : c ∈ s.toList) (h : isSpace c = false) :
    isBlank s = false := by
  rw [isBlank, List.all_eq_false]
  exact ⟨c, hc, by rw [h]; decide⟩

theorem length_pos_of_not_blank {s : String} (h : isBlank s = false) : 1 ≤ s.length := by
  by_contra hlt
  have hnil : s.toList = [] := by
    rw [← List.length_eq_zero_iff, String.length_toList]
    omega
  rw [isBlank, hnil] at h
  cases h

/-! ### `str.join` -/

theorem intercalate_length (sep : String) (parts : List String) :
    (sep.intercalate parts).length =
      (parts.map String.length).sum + (parts.length - 1) * sep.length := by
  induction parts with
  | nil => simp
  | cons a rest ih =>
    cases rest with
    | nil => simp
    | cons b rest =>
      rw [String.intercalate_cons_cons, String.length_append, String.length_append, ih]
      simp only [List.map_cons, List.sum_cons, List.length_cons, Nat.add_sub_cancel]
      ring

/-- What a part holds, the joined text holds. -/
theorem mem_intercalate {sep part : String} {parts : List String} (hp : part ∈ parts) {c : Char}
    (hc : c ∈ part.toList) : c ∈ (sep.intercalate parts).toList := by
  induction parts with
  | nil => cases hp
  | cons a rest ih =>
    cases rest with
    | nil =>
      rw [List.mem_singleton] at hp
      rwa [String.intercalate_singleton, ← hp]
    | cons b rest =>
      rw [String.intercalate_cons_cons, String.toList_append, String.toList_append]
      rcases List.mem_cons.mp hp with rfl | hp
      · exact List.mem_append_left _ (List.mem_append_left _ hc)
      · exact List.mem_append_right _ (ih hp)

/-! ### Lower-casing and substrings -/

/-- `str.lower` of one character, as far as ASCII text can tell: besides `A`–`Z` only the Kelvin
sign (U+212A) and the dotted capital I (U+0130) lower to text with an ASCII letter in it. -/
def lowerChar (c : Char) : List Char :=
  if 'A' ≤ c ∧ c ≤ 'Z' then [Char.ofNat (c.toNat + 32)]
  else if c = Char.ofNat 0x212A then ['k']
  else if c = Char.ofNat 0x130 then ['i', Char.ofNat 0x307]
  else [c]

/-- `text.lower()`. -/
def lower (s : String) : List Char := s.toList.flatMap lowerChar

/-- `fragment in text.lower()` for an ASCII fragment. -/
def hasFragment (fragment text : String) : Bool := decide (fragment.toList <:+: lower text)

/-- A character of the fragment that the lowered text lacks rules the fragment out. -/
theorem hasFragment_eq_false {fragment text : String} {c : Char} (hc : c ∈ fragment.toList)
    (h : c ∉ lower text) : hasFragment fragment text = false := by
  rw [hasFragment, decide_eq_false_iff_not]
  exact fun hin => h (hin.subset hc)

theorem mem_lower {c : Char} {s : String} :
    c ∈ lower s ↔ ∃ d ∈ s.toList, c ∈ lowerChar d := by
  simp [lower, List.mem_flatMap]

theorem lowerChar_lowerChar (c : Char) : ∀ d ∈ lowerChar c, lowerChar d = [d] := by
  unfold lowerChar
  split_ifs with h1 h2 h3
  · intro d hd
    rw [List.mem_singleton.mp hd]
    obtain ⟨ha, hz⟩ := h1
    have hcn : c = Char.ofNat c.toNat := (Char.ofNat_toNat c).symm
    change 65 ≤ c.toNat at ha
    change c.toNat ≤ 90 at hz
    rw [hcn]
    interval_cases c.toNat <;> decide
  · simp
  · simp
  · intro d hd
    rw [List.mem_singleton.mp hd, if_neg h1, if_neg h2, if_neg h3]

/-- Lower-casing twice is lower-casing once. -/
theorem lower_lower (s : String) : lower (String.ofList (lower s)) = lower s := by
  have hfix : ∀ l : List Char, (∀ d ∈ l, lowerChar d = [d]) → l.flatMap lowerChar = l := by
    intro l h
    induction l with
    | nil => rfl
    | cons a l ih =>
      rw [List.flatMap_cons, h a List.mem_cons_self, ih fun d hd => h d (List.mem_cons_of_mem a hd)]
      rfl
  rw [lower, String.toList_ofList]
  refine hfix _ fun d hd => ?_
  obtain ⟨c, -, hc⟩ := mem_lower.mp hd
  exact lowerChar_lowerChar c d hc

/-! ### `str.replace` -/

/-- Scan for `old`; the counter is what is left to skip of an occurrence already replaced. -/
def replaceFrom (old new : List Char) : ℕ → List Char → List Char
  | _, [] => []
  | skip + 1, _ :: cs => replaceFrom old new skip cs
  | 0, c :: cs =>
    if old <+: c :: cs then new ++ replaceFrom old new (old.length - 1) cs
    else c :: replaceFrom old new 0 cs

/-- `text.replace(old, new)` for a non-empty `old`. -/
def replaceText (old new text : String) : String :=
  String.ofList (replaceFrom old.toList new.toList 0 text.toList)

/-! ### Decimal fields -/

/-- The character of one decimal digit. -/
def digitChar (n : ℕ) : Char := Char.ofNat (48 + n % 10)

/-- The last `width` decimal digits of `n`: `f"{n:0{width}d}"` when `n` has no more. -/
def decimal : (width : ℕ) → (n : ℕ) → List Char
  | 0, _ => []
  | w + 1, n => decimal w (n / 10) ++ [digitChar n]

@[simp] theorem decimal_length (w n : ℕ) : (decimal w n).length = w := by
  induction w generalizing n with
  | zero => rfl
  | succ w ih => simp [decimal, ih]

/-- The ten digits. -/
def digitChars : List Char := ['0', '1', '2', '3', '4', '5', '6', '7', '8', '9']

theorem digitChar_mem (n : ℕ) : digitChar n ∈ digitChars := by
  have h : n % 10 < 10 := Nat.mod_lt _ (by omega)
  unfold digitChar
  interval_cases n % 10 <;> decide

theorem decimal_subset (w n : ℕ) : ∀ c ∈ decimal w n, c ∈ digitChars := by
  induction w generalizing n with
  | zero => simp [decimal]
  | succ w ih =>
    intro c hc
    rcases List.mem_append.mp hc with h | h
    · exact ih _ c h
    · rw [List.mem_singleton] at h
      exact h ▸ digitChar_mem n

/-- `str(n)` of a natural number. -/
def natText (n : ℕ) : String := String.ofList (Nat.toDigits 10 n)

theorem natText_chars (n : ℕ) : ∀ c ∈ (natText n).toList, c ∈ digitChars := by
  intro c hc
  rw [natText, String.toList_ofList] at hc
  have := Nat.isDigit_of_mem_toDigits (by omega) (by omega) hc
  simp only [Char.isDigit, Bool.and_eq_true, decide_eq_true_eq, UInt32.le_iff_toNat_le] at this
  obtain ⟨h1, h2⟩ := this
  have hcn : c = Char.ofNat c.toNat := (Char.ofNat_toNat c).symm
  change 48 ≤ c.toNat at h1
  change c.toNat ≤ 57 at h2
  rw [hcn]
  interval_cases c.toNat <;> decide

theorem natText_length_le {n k : ℕ} (hk : 0 < k) (h : n < 10 ^ k) : (natText n).length ≤ k := by
  rw [natText, String.length_ofList]
  exact (Nat.length_toDigits_le_iff (by omega) hk).mpr h

theorem natText_injective : Function.Injective natText := by
  intro n m h
  have hdigits := String.ofList_injective h
  rw [← Nat.ofDigitChars_ten_toDigits (n := n), hdigits, Nat.ofDigitChars_ten_toDigits]

theorem natText_length_pos (n : ℕ) : 1 ≤ (natText n).length := by
  rw [natText, String.length_ofList]
  exact Nat.length_toDigits_pos

/-! ### Digests -/

/-- The lower-case hexadecimal digits. -/
def hexChars : List Char := digitChars ++ ['a', 'b', 'c', 'd', 'e', 'f']

theorem hexChars_not_space : ∀ c ∈ hexChars, isSpace c = false := by
  intro c hc
  fin_cases hc <;> decide

/-- What `hashlib.sha256(data).hexdigest()` returns: 64 hexadecimal digits. -/
abbrev HexDigest := { s : String // s.length = 64 ∧ ∀ c ∈ s.toList, c ∈ hexChars }

/-- The last `width` hexadecimal digits of `n`. -/
def hexField : (width : ℕ) → (n : ℕ) → List Char
  | 0, _ => []
  | w + 1, n => hexField w (n / 16) ++ [hexChars.getD (n % 16) '0']

theorem hexField_length (w n : ℕ) : (hexField w n).length = w := by
  induction w generalizing n with
  | zero => rfl
  | succ w ih => simp [hexField, ih]

theorem hexField_subset (w n : ℕ) : ∀ c ∈ hexField w n, c ∈ hexChars := by
  induction w generalizing n with
  | zero => simp [hexField]
  | succ w ih =>
    intro c hc
    rcases List.mem_append.mp hc with h | h
    · exact ih _ c h
    · have hn : n % 16 < hexChars.length := Nat.mod_lt _ (by omega)
      rw [List.mem_singleton.mp h, List.getD_eq_getElem _ _ hn]
      exact List.getElem_mem hn

/-- The digest that reads as this number. -/
def HexDigest.ofNat (n : ℕ) : HexDigest :=
  ⟨String.ofList (hexField 64 n), by rw [String.length_ofList, hexField_length], fun c hc =>
    hexField_subset 64 n c (by rwa [String.toList_ofList] at hc)⟩

/-- `str(uuid)`. -/
def uuidText (n : ℕ) : String :=
  String.ofList (hexField 8 (n / 16 ^ 24) ++ ['-'] ++ hexField 4 (n / 16 ^ 20) ++ ['-'] ++
    hexField 4 (n / 16 ^ 16) ++ ['-'] ++ hexField 4 (n / 16 ^ 12) ++ ['-'] ++ hexField 12 n)

theorem uuidText_length (n : ℕ) : (uuidText n).length = 36 := by
  simp only [uuidText, String.length_ofList, List.length_append, hexField_length, List.length_cons,
    List.length_nil]

/-! ### `str.rpartition` -/

/-- `s.rpartition(sep)`, less the separator: what stands before and after its last occurrence. -/
def rpartition (sep : Char) : List Char → List Char × List Char
  | [] => ([], [])
  | c :: cs =>
    if sep ∈ cs then (c :: (rpartition sep cs).1, (rpartition sep cs).2)
    else if c = sep then ([], cs)
    else ([], c :: cs)

theorem rpartition_eq {sep : Char} {s : List Char} (h : sep ∈ s) :
    s = (rpartition sep s).1 ++ sep :: (rpartition sep s).2 ∧ sep ∉ (rpartition sep s).2 := by
  induction s with
  | nil => cases h
  | cons c cs ih =>
    unfold rpartition
    split_ifs with hlater hhere
    · obtain ⟨heq, hnot⟩ := ih hlater
      exact ⟨congrArg (c :: ·) heq, hnot⟩
    · exact ⟨congrArg (· :: cs) hhere, hlater⟩
    · exact absurd ((List.mem_cons.mp h).resolve_left (Ne.symm hhere)) hlater

/-- What starts with a prefix that ends in the separator, and is not just that prefix up to the last
separator, starts with it up to there. -/
theorem prefix_rpartition {sep : Char} {p s : List Char} (h : p ++ [sep] <+: s)
    (hne : (rpartition sep s).1 ≠ p) : p ++ [sep] <+: (rpartition sep s).1 := by
  obtain ⟨rest, rfl⟩ := h
  have hmem : sep ∈ p ++ [sep] ++ rest := by simp
  obtain ⟨heq, hnot⟩ := rpartition_eq hmem
  rw [List.append_assoc, List.singleton_append] at heq hnot hne ⊢
  rcases List.append_eq_append_iff.mp heq with ⟨more, hfirst, hrest⟩ | ⟨more, hfirst, hrest⟩
  · cases more with
    | nil => exact absurd (by simpa using hfirst) hne
    | cons c more =>
      obtain ⟨rfl, -⟩ := List.cons.inj hrest
      exact ⟨more, by rw [hfirst, List.append_assoc, List.singleton_append]⟩
  · cases more with
    | nil => exact absurd (by simpa using hfirst.symm) hne
    | cons c more =>
      -- the separator of the prefix would stand after the last one
      obtain ⟨-, hafter⟩ := List.cons.inj hrest
      refine absurd ?_ hnot
      rw [hafter]
      exact List.mem_append_right _ List.mem_cons_self

end Lib
