import Mathlib

/-!
# Lib.Base64 — URL-safe base64 with the padding taken off and put back

`b64encode` writes four characters for three bytes; `a2bBase64` is the scan of a decoder that skips
what is not base64, or refuses it when strict.  The padding is a function of the length
(`padded_stripped`), and decoding gives back what was encoded (`b64decode_b64encode`).
-/

namespace Lib

/-- The URL-safe alphabet. -/
def base64Alphabet : List Char :=
  "ABCDEFGHIJKLMNOPQRSTUVWXYZabcdefghijklmnopqrstuvwxyz0123456789-_".toList

def base64Char (n : ℕ) : Char := base64Alphabet.getD n 'A'

/-- The six bits of a character; `+` and `/` count as `-` and `_`. -/
def base64Value (c : Char) : Option ℕ :=
  if 'A' ≤ c ∧ c ≤ 'Z' then some (c.toNat - 65)
  else if 'a' ≤ c ∧ c ≤ 'z' then some (c.toNat - 71)
  else if '0' ≤ c ∧ c ≤ '9' then some (c.toNat + 4)
  else if c = '-' ∨ c = '+' then some 62
  else if c = '_' ∨ c = '/' then some 63
  else none

/-- `base64.urlsafe_b64encode`. -/
def b64encode : List UInt8 → List Char
  | [] => []
  | [a] => [base64Char (a.toNat / 4), base64Char (a.toNat % 4 * 16), '=', '=']
  | [a, b] =>
    [base64Char (a.toNat / 4), base64Char (a.toNat % 4 * 16 + b.toNat / 16),
      base64Char (b.toNat % 16 * 4), '=']
  | a :: b :: c :: rest =>
    base64Char (a.toNat / 4) :: base64Char (a.toNat % 4 * 16 + b.toNat / 16) ::
      base64Char (b.toNat % 16 * 4 + c.toNat / 64) :: base64Char (c.toNat % 64) :: b64encode rest

/-- Where the scan stands: the place in the group of four, the bits left over, the padding. -/
structure Base64Scan where
  quadPos : ℕ := 0
  left : ℕ := 0
  pads : ℕ := 0
  paddingStarted : Bool := false

/-- Six more bits: the next state, and the byte they complete. -/
def Base64Scan.push (s : Base64Scan) (v : ℕ) : Base64Scan × List UInt8 :=
  match s.quadPos with
  | 0 => (⟨1, v, 0, s.paddingStarted⟩, [])
  | 1 => (⟨2, v % 16, 0, s.paddingStarted⟩, [UInt8.ofNat (s.left * 4 + v / 16)])
  | 2 => (⟨3, v % 4, 0, s.paddingStarted⟩, [UInt8.ofNat (s.left * 16 + v / 4)])
  | _ => (⟨0, 0, 0, s.paddingStarted⟩, [UInt8.ofNat (s.left * 64 + v)])

/-- The loop of `binascii.a2b_base64`; `none` is a `binascii.Error`. -/
def a2bBase64 (strict : Bool) (s : Base64Scan) : List Char → Option (List UInt8)
  | [] => if s.quadPos = 0 then some [] else none
  | c :: rest =>
    if c = '=' then
      if 2 ≤ s.quadPos then
        if 4 ≤ s.quadPos + (s.pads + 1) then
          if strict ∧ rest ≠ [] then none else some []
        else a2bBase64 strict { s with pads := s.pads + 1, paddingStarted := true } rest
      else a2bBase64 strict { s with paddingStarted := true } rest
    else
      match base64Value c with
      | none => if strict then none else a2bBase64 strict s rest
      | some v =>
        if strict ∧ s.paddingStarted then none
        else (a2bBase64 strict (s.push v).1 rest).map fun bytes => (s.push v).2 ++ bytes

/-- `base64.urlsafe_b64decode`, or `b64decode` with `validate=True` when strict. -/
def b64decode (strict : Bool) (text : List Char) : Option (List UInt8) :=
  if strict ∧ text.head? = some '=' then none else a2bBase64 strict {} text

/-- `encoded.rstrip("=")`. -/
def stripPadding (text : List Char) : List Char :=
  (text.reverse.dropWhile fun c => c = '=').reverse

/-- `value + "=" * (-len(value) % 4)`. -/
def pad (text : List Char) : List Char :=
  text ++ List.replicate ((-(text.length : ℤ)) % 4).toNat '='

/-! ### The alphabet -/

theorem base64Char_spec (n : ℕ) (h : n < 64) :
    base64Value (base64Char n) = some n ∧ base64Char n ≠ '=' := by
  have hall : ∀ n < 64, base64Value (base64Char n) = some n ∧ base64Char n ≠ '=' := by
    decide +kernel
  exact hall n h

theorem a2bBase64_cons (strict : Bool) (s : Base64Scan) {n : ℕ} (h : n < 64) (rest : List Char)
    (hs : s.paddingStarted = false) :
    a2bBase64 strict s (base64Char n :: rest) =
      (a2bBase64 strict (s.push n).1 rest).map fun bytes => (s.push n).2 ++ bytes := by
  obtain ⟨hvalue, hne⟩ := base64Char_spec n h
  rw [a2bBase64, if_neg hne, hvalue]
  simp [hs]

/-! One character of a group of four. -/

section Group

variable (strict : Bool) {n : ℕ} (left : ℕ) (rest : List Char)

theorem a2bBase64_first (h : n < 64) :
    a2bBase64 strict {} (base64Char n :: rest) = a2bBase64 strict ⟨1, n, 0, false⟩ rest := by
  rw [a2bBase64_cons strict {} h rest rfl]
  exact Option.map_id'

theorem a2bBase64_second (h : n < 64) :
    a2bBase64 strict ⟨1, left, 0, false⟩ (base64Char n :: rest) =
      (a2bBase64 strict ⟨2, n % 16, 0, false⟩ rest).map (UInt8.ofNat (left * 4 + n / 16) :: ·) :=
  a2bBase64_cons strict ⟨1, left, 0, false⟩ h rest rfl

theorem a2bBase64_third (h : n < 64) :
    a2bBase64 strict ⟨2, left, 0, false⟩ (base64Char n :: rest) =
      (a2bBase64 strict ⟨3, n % 4, 0, false⟩ rest).map (UInt8.ofNat (left * 16 + n / 4) :: ·) :=
  a2bBase64_cons strict ⟨2, left, 0, false⟩ h rest rfl

theorem a2bBase64_fourth (h : n < 64) :
    a2bBase64 strict ⟨3, left, 0, false⟩ (base64Char n :: rest) =
      (a2bBase64 strict {} rest).map (UInt8.ofNat (left * 64 + n) :: ·) :=
  a2bBase64_cons strict ⟨3, left, 0, false⟩ h rest rfl

end Group

/-! ### Round trips -/

/-- The bits of a byte put together again. -/
theorem ofNat_bits {a : UInt8} {n : ℕ} (h : n = a.toNat) : UInt8.ofNat n = a := by
  rw [h, UInt8.ofNat_toNat]

theorem a2bBase64_b64encode (strict : Bool) (bytes : List UInt8) :
    a2bBase64 strict {} (b64encode bytes) = some bytes := by
  induction bytes using b64encode.induct with
  | case1 => rfl
  | case2 a =>
    have ha : a.toNat < 256 := a.toNat_lt
    have hbyte : UInt8.ofNat (a.toNat / 4 * 4 + a.toNat % 4 * 16 / 16) = a :=
      ofNat_bits (by omega)
    rw [b64encode, a2bBase64_first _ _ (by omega), a2bBase64_second _ _ _ (by omega), hbyte]
    cases strict <;> rfl
  | case3 a b =>
    have ha : a.toNat < 256 := a.toNat_lt
    have hb : b.toNat < 256 := b.toNat_lt
    have hfirst : UInt8.ofNat (a.toNat / 4 * 4 + (a.toNat % 4 * 16 + b.toNat / 16) / 16) = a :=
      ofNat_bits (by omega)
    have hsecond : UInt8.ofNat ((a.toNat % 4 * 16 + b.toNat / 16) % 16 * 16 +
        b.toNat % 16 * 4 / 4) = b := ofNat_bits (by omega)
    rw [b64encode, a2bBase64_first _ _ (by omega), a2bBase64_second _ _ _ (by omega),
      a2bBase64_third _ _ _ (by omega), hfirst, hsecond]
    cases strict <;> rfl
  | case4 a b c rest ih =>
    have ha : a.toNat < 256 := a.toNat_lt
    have hb : b.toNat < 256 := b.toNat_lt
    have hc : c.toNat < 256 := c.toNat_lt
    have hfirst : UInt8.ofNat (a.toNat / 4 * 4 + (a.toNat % 4 * 16 + b.toNat / 16) / 16) = a :=
      ofNat_bits (by omega)
    have hsecond : UInt8.ofNat ((a.toNat % 4 * 16 + b.toNat / 16) % 16 * 16 +
        (b.toNat % 16 * 4 + c.toNat / 64) / 4) = b := ofNat_bits (by omega)
    have hthird : UInt8.ofNat ((b.toNat % 16 * 4 + c.toNat / 64) % 4 * 64 + c.toNat % 64) = c :=
      ofNat_bits (by omega)
    rw [b64encode, a2bBase64_first _ _ (by omega), a2bBase64_second _ _ _ (by omega),
      a2bBase64_third _ _ _ (by omega), a2bBase64_fourth _ _ _ (by omega), ih, hfirst, hsecond,
      hthird]
    rfl

/-- The text is six-bit characters and then at most two of padding, four by four. -/
theorem b64encode_eq (bytes : List UInt8) :
    ∃ body k, b64encode bytes = body ++ List.replicate k '=' ∧ k ≤ 2 ∧
      (body.length + k) % 4 = 0 ∧ '=' ∉ body := by
  have hchar : ∀ n < 64, '=' ≠ base64Char n := fun n hn => (base64Char_spec n hn).2.symm
  induction bytes using b64encode.induct with
  | case1 => exact ⟨[], 0, rfl, by omega, rfl, by simp⟩
  | case2 a =>
    have ha : a.toNat < 256 := a.toNat_lt
    refine ⟨[base64Char (a.toNat / 4), base64Char (a.toNat % 4 * 16)], 2, rfl, le_rfl, by simp, ?_⟩
    simp [hchar (a.toNat / 4) (by omega), hchar (a.toNat % 4 * 16) (by omega)]
  | case3 a b =>
    have ha : a.toNat < 256 := a.toNat_lt
    have hb : b.toNat < 256 := b.toNat_lt
    refine ⟨[base64Char (a.toNat / 4), base64Char (a.toNat % 4 * 16 + b.toNat / 16),
      base64Char (b.toNat % 16 * 4)], 1, rfl, by omega, by simp, ?_⟩
    simp [hchar (a.toNat / 4) (by omega), hchar (a.toNat % 4 * 16 + b.toNat / 16) (by omega),
      hchar (b.toNat % 16 * 4) (by omega)]
  | case4 a b c rest ih =>
    have ha : a.toNat < 256 := a.toNat_lt
    have hb : b.toNat < 256 := b.toNat_lt
    have hc : c.toNat < 256 := c.toNat_lt
    obtain ⟨body, k, h, hk, hlen, hmem⟩ := ih
    refine ⟨base64Char (a.toNat / 4) :: base64Char (a.toNat % 4 * 16 + b.toNat / 16) ::
      base64Char (b.toNat % 16 * 4 + c.toNat / 64) :: base64Char (c.toNat % 64) :: body, k,
      by rw [b64encode, h]; rfl, hk, by simp only [List.length_cons]; omega, ?_⟩
    simp [hchar (a.toNat / 4) (by omega), hchar (a.toNat % 4 * 16 + b.toNat / 16) (by omega),
      hchar (b.toNat % 16 * 4 + c.toNat / 64) (by omega), hchar (c.toNat % 64) (by omega), hmem]

theorem stripPadding_append {body : List Char} (h : '=' ∉ body) (k : ℕ) :
    stripPadding (body ++ List.replicate k '=') = body := by
  unfold stripPadding
  rw [List.reverse_append, List.reverse_replicate]
  induction k with
  | zero =>
    rw [List.replicate_zero, List.nil_append, List.dropWhile_eq_self_iff.mpr, List.reverse_reverse]
    intro hlen
    have hmem : body.reverse[0] ∈ body := List.mem_reverse.mp (List.getElem_mem hlen)
    have hne : body.reverse[0] ≠ '=' := fun e => h (e ▸ hmem)
    simpa using hne
  | succ k ih =>
    rw [List.replicate_succ, List.cons_append, List.dropWhile_cons_of_pos (by simp)]
    exact ih

/-- The padding that was stripped is put back. -/
theorem padded_stripped (bytes : List UInt8) :
    pad (stripPadding (b64encode bytes)) = b64encode bytes := by
  obtain ⟨body, k, h, hk, hlen, hmem⟩ := b64encode_eq bytes
  have hpad : ((-(body.length : ℤ)) % 4).toNat = k := by omega
  rw [h, stripPadding_append hmem, pad, hpad]

/-- **Round trip** through the unpadded text. -/
theorem b64decode_b64encode (strict : Bool) (bytes : List UInt8) :
    b64decode strict (pad (stripPadding (b64encode bytes))) = some bytes := by
  rw [padded_stripped, b64decode, if_neg, a2bBase64_b64encode]
  rintro ⟨-, hhead⟩
  obtain ⟨body, k, h, hk, hlen, hmem⟩ := b64encode_eq bytes
  rw [h] at hhead
  cases body with
  | nil =>
    obtain rfl : k = 0 := by
      rw [List.length_nil] at hlen
      omega
    cases hhead
  | cons c body =>
    obtain rfl : c = '=' := by simpa using hhead
    exact hmem List.mem_cons_self

theorem b64encode_length (bytes : List UInt8) :
    (b64encode bytes).length = 4 * ((bytes.length + 2) / 3) := by
  induction bytes using b64encode.induct with
  | case1 => rfl
  | case2 a => simp [b64encode]
  | case3 a b => simp [b64encode]
  | case4 a b c rest ih =>
    simp only [b64encode, List.length_cons, ih]
    omega

theorem stripPadding_length (bytes : List UInt8) :
    (stripPadding (b64encode bytes)).length ≤ 4 * ((bytes.length + 2) / 3) ∧
      4 * ((bytes.length + 2) / 3) ≤ (stripPadding (b64encode bytes)).length + 2 := by
  obtain ⟨body, k, h, hk, hlen, hmem⟩ := b64encode_eq bytes
  have := b64encode_length bytes
  rw [h, stripPadding_append hmem]
  rw [h, List.length_append, List.length_replicate] at this
  omega

end Lib
