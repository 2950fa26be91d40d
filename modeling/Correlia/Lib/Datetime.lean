import Correlia.Lib.Text

/-!
# Lib.Datetime — aware datetimes with a fixed UTC offset

A `Datetime` is a local time of the years 1–9999 with its UTC offset, both in microseconds.
Comparison and `max` go by the instant; subtracting seconds is arithmetic on the local time and
overflows below `datetime.min`; a `timestamptz` column keeps the instant and gives it back in UTC.
-/

namespace Lib

/-- Microseconds since 0001-01-01T00:00:00Z. -/
abbrev Instant := ℤ

def usPerSecond : ℕ := 1000000

def usPerDay : ℕ := 86400 * usPerSecond

/-- The microseconds of the years 1–9999. -/
def datetimeEnd : ℕ := 3652059 * usPerDay

theorem datetimeEnd_pos : 0 < datetimeEnd := by decide

/-- `n` seconds as a difference of instants. -/
def seconds (n : ℕ) : ℤ := (n * usPerSecond : ℕ)

@[simp] theorem seconds_nonneg (n : ℕ) : 0 ≤ seconds n := Int.natCast_nonneg _

structure Datetime where
  naive : ℕ
  offset : ℤ
  naive_lt : naive < datetimeEnd
  offset_gt : -(usPerDay : ℤ) < offset
  offset_lt : offset < usPerDay
deriving DecidableEq

namespace Datetime

/-- The instant a datetime denotes, which is all that `==` and `<` look at. -/
def instant (d : Datetime) : Instant := d.naive - d.offset

/-- `max(a, b)`: the first of two datetimes of one instant. -/
def later (a b : Datetime) : Datetime := if a.instant < b.instant then b else a

theorem later_instant (a b : Datetime) : (later a b).instant = max a.instant b.instant := by
  unfold later
  split_ifs with h
  · exact (max_eq_right h.le).symm
  · exact (max_eq_left (not_lt.mp h)).symm

/-- `d - timedelta(seconds=n)`; `none` is an `OverflowError`. -/
def subSeconds (d : Datetime) (n : ℕ) : Option Datetime :=
  if n * usPerSecond ≤ d.naive then
    some { d with naive := d.naive - n * usPerSecond, naive_lt := by have := d.naive_lt; omega }
  else none

theorem subSeconds_instant {d e : Datetime} {n : ℕ} (h : d.subSeconds n = some e) :
    e.instant = d.instant - seconds n := by
  unfold subSeconds at h
  split_ifs at h with hn
  simp only [Option.some.injEq] at h
  subst h
  simp only [instant, seconds, Nat.cast_sub hn]
  ring

theorem subSeconds_isSome {d : Datetime} {n : ℕ} :
    (d.subSeconds n).isSome ↔ n * usPerSecond ≤ d.naive := by
  unfold subSeconds
  split_ifs with h <;> simp [h]

end Datetime

/-- A `timestamptz` value that a client reads back as a `datetime`. -/
abbrev Timestamptz := { i : Instant // 0 ≤ i ∧ i < datetimeEnd }

theorem utc_gt : -(usPerDay : ℤ) < 0 := by decide

theorem utc_lt : (0 : ℤ) < usPerDay := by decide

/-- The value read back: in UTC. -/
def Timestamptz.toDatetime (i : Timestamptz) : Datetime where
  naive := i.val.toNat
  offset := 0
  naive_lt := (Int.toNat_lt i.property.1).mpr i.property.2
  offset_gt := utc_gt
  offset_lt := utc_lt

@[simp] theorem Timestamptz.toDatetime_instant (i : Timestamptz) : i.toDatetime.instant = i.val := by
  simp only [toDatetime, Datetime.instant, Int.toNat_of_nonneg i.property.1, sub_zero]

namespace Datetime

/-- The value a `timestamptz` column keeps; `none` where `astimezone(utc)` overflows. -/
def toTimestamptz (d : Datetime) : Option Timestamptz :=
  if h : 0 ≤ d.instant ∧ d.instant < datetimeEnd then some ⟨d.instant, h⟩ else none

theorem toTimestamptz_eq_some {d : Datetime} {i : Timestamptz} :
    d.toTimestamptz = some i ↔ d.instant = i.val := by
  unfold toTimestamptz
  split_ifs with h
  · rw [Option.some.injEq, Subtype.ext_iff]
  · constructor
    · intro e
      cases e
    · intro e
      exact absurd (e ▸ i.property) h

/-! ### `isoformat` -/

/-- Days before each month of a common year. -/
def daysBeforeMonth : ℕ → ℕ
  | 1 => 0 | 2 => 31 | 3 => 59 | 4 => 90 | 5 => 120 | 6 => 151 | 7 => 181 | 8 => 212
  | 9 => 243 | 10 => 273 | 11 => 304 | _ => 334

/-- Year, month and day of day `n` counted from 0001-01-01. -/
def ymd (n : ℕ) : ℕ × ℕ × ℕ :=
  let n400 := n / 146097
  let r400 := n % 146097
  let n100 := r400 / 36524
  let r100 := r400 % 36524
  let n4 := r100 / 1461
  let r4 := r100 % 1461
  let n1 := r4 / 365
  let r := r4 % 365
  let year := n400 * 400 + 1 + n100 * 100 + n4 * 4 + n1
  if n1 = 4 ∨ n100 = 4 then (year - 1, 12, 31)
  else
    let leap := n1 = 3 ∧ (n4 ≠ 24 ∨ n100 = 3)
    let before (m : ℕ) := daysBeforeMonth m + (if 2 < m ∧ leap then 1 else 0)
    let m := (r + 50) / 32
    -- the estimate is exact or one month too large
    let month := if r < before m then m - 1 else m
    (year, month, r - before month + 1)

/-- `HH:MM:SS[.ffffff]` of a time of day. -/
def timeText (us : ℕ) : List Char :=
  let s := us / usPerSecond
  let f := us % usPerSecond
  decimal 2 (s / 3600) ++ ':' :: decimal 2 (s / 60 % 60) ++ ':' :: decimal 2 (s % 60) ++
    (if f = 0 then [] else '.' :: decimal 6 f)

/-- `±HH:MM[:SS[.ffffff]]`. -/
def offsetText (offset : ℤ) : List Char :=
  let us := offset.natAbs
  let s := us / usPerSecond
  let f := us % usPerSecond
  (if offset < 0 then '-' else '+') :: decimal 2 (s / 3600) ++ ':' :: decimal 2 (s / 60 % 60) ++
    (if s % 60 = 0 ∧ f = 0 then []
     else ':' :: decimal 2 (s % 60) ++ (if f = 0 then [] else '.' :: decimal 6 f))

/-- `d.isoformat()`. -/
def isoformat (d : Datetime) : String :=
  let (y, m, day) := ymd (d.naive / usPerDay)
  String.ofList (decimal 4 y ++ '-' :: decimal 2 m ++ '-' :: decimal 2 day ++
    'T' :: timeText (d.naive % usPerDay) ++ offsetText d.offset)

/-- The characters an ISO timestamp is made of. -/
def isoChars : List Char := digitChars ++ ['-', '+', ':', '.', 'T']

theorem decimal_isoChars (w n : ℕ) : ∀ c ∈ decimal w n, c ∈ isoChars :=
  fun c hc => List.mem_append_left _ (decimal_subset w n c hc)

theorem timeText_chars (us : ℕ) : ∀ c ∈ timeText us, c ∈ isoChars := by
  intro c hc
  simp only [timeText, List.append_assoc, List.cons_append, List.mem_append, List.mem_cons] at hc
  rcases hc with h | rfl | h | rfl | h | h
  · exact decimal_isoChars _ _ c h
  · decide
  · exact decimal_isoChars _ _ c h
  · decide
  · exact decimal_isoChars _ _ c h
  · split_ifs at h
    · simp at h
    · rcases List.mem_cons.mp h with rfl | h
      · decide
      · exact decimal_isoChars _ _ c h

theorem offsetText_chars (offset : ℤ) : ∀ c ∈ offsetText offset, c ∈ isoChars := by
  intro c hc
  simp only [offsetText, List.append_assoc, List.cons_append, List.mem_append, List.mem_cons] at hc
  rcases hc with h | h | rfl | h | h
  · split_ifs at h <;> subst h <;> decide
  · exact decimal_isoChars _ _ c h
  · decide
  · exact decimal_isoChars _ _ c h
  · split_ifs at h
    · simp at h
    all_goals
      simp only [List.append_nil, List.mem_append, List.mem_cons] at h
    · rcases h with rfl | h
      · decide
      · exact decimal_isoChars _ _ c h
    · rcases h with rfl | h | rfl | h
      · decide
      · exact decimal_isoChars _ _ c h
      · decide
      · exact decimal_isoChars _ _ c h

theorem isoformat_chars (d : Datetime) : ∀ c ∈ d.isoformat.toList, c ∈ isoChars := by
  intro c hc
  simp only [isoformat, String.toList_ofList, List.append_assoc, List.cons_append,
    List.mem_append, List.mem_cons] at hc
  rcases hc with h | rfl | h | rfl | h | rfl | h | h
  · exact decimal_isoChars _ _ c h
  · decide
  · exact decimal_isoChars _ _ c h
  · decide
  · exact decimal_isoChars _ _ c h
  · decide
  · exact timeText_chars _ c h
  · exact offsetText_chars _ c h

/-- Between 25 characters (whole seconds, whole-minute offset) and 42. -/
theorem isoformat_length (d : Datetime) :
    25 ≤ d.isoformat.length ∧ d.isoformat.length ≤ 42 := by
  simp only [isoformat, timeText, offsetText, String.length_ofList, List.length_append,
    List.length_cons, decimal_length]
  split_ifs <;> simp

example : isoformat (Timestamptz.toDatetime
    ⟨seconds (739616 * 86400 + 43200), by decide⟩) = "2026-01-01T12:00:00+00:00" := by decide

end Datetime

end Lib
