import Correlia.Lib.Datetime

/-!
# Lib.Timestamp — datetimes as JSON text

The text of an aware datetime has its local time to the microsecond and its UTC offset in whole
minutes, `Z` for none: what an offset has below a minute is cut off, and the instant read back is
another one.  A text that is read and written again keeps its instant, and stays as it is unless it
spells out an offset of no minutes.
-/

namespace Lib

def usPerMinute : ℕ := 60 * usPerSecond

/-- The zone of a timestamp's text: `Z`, or a sign and minutes. -/
inductive Zone
  | utc
  | offset (west : Bool) (minutes : Fin 1440)
deriving DecidableEq

/-- The text of an aware datetime: local time and zone. -/
structure Timestamp where
  naive : ℕ
  zone : Zone
  naive_lt : naive < datetimeEnd

theorem Timestamp.eq_iff {t u : Timestamp} : t.naive = u.naive ∧ t.zone = u.zone ↔ t = u := by
  constructor
  · obtain ⟨naive, zone, hlt⟩ := t
    obtain ⟨naive', zone', hlt'⟩ := u
    rintro ⟨rfl, rfl⟩
    rfl
  · rintro rfl
    exact ⟨rfl, rfl⟩

instance : DecidableEq Timestamp := fun _ _ => decidable_of_iff _ Timestamp.eq_iff

/-- The UTC offset a zone denotes. -/
def Zone.toOffset : Zone → ℤ
  | utc => 0
  | offset west minutes => if west then -(minutes * usPerMinute : ℕ) else (minutes * usPerMinute : ℕ)

theorem Zone.natAbs_toOffset (z : Zone) : z.toOffset.natAbs ≤ 1439 * usPerMinute := by
  cases z with
  | utc => exact Nat.zero_le _
  | offset west minutes =>
    have hle : (minutes : ℕ) * usPerMinute ≤ 1439 * usPerMinute :=
      Nat.mul_le_mul_right _ (Nat.le_of_lt_succ minutes.isLt)
    cases west with
    | true => simpa only [toOffset, if_true, Int.natAbs_neg, Int.natAbs_natCast] using hle
    | false =>
      simpa only [toOffset, Bool.false_eq_true, if_false, Int.natAbs_natCast] using hle

namespace Timestamp

/-- `datetime.fromisoformat(text)`. -/
def toDatetime (t : Timestamp) : Datetime where
  naive := t.naive
  offset := t.zone.toOffset
  naive_lt := t.naive_lt
  offset_gt := by
    have := t.zone.natAbs_toOffset
    unfold usPerMinute usPerSecond at this
    unfold usPerDay usPerSecond
    omega
  offset_lt := by
    have := t.zone.natAbs_toOffset
    unfold usPerMinute usPerSecond at this
    unfold usPerDay usPerSecond
    omega

/-- The instant read back. -/
def instant (t : Timestamp) : Instant := t.toDatetime.instant

end Timestamp

namespace Datetime

theorem minutes_lt (d : Datetime) : d.offset.natAbs / usPerMinute < 1440 := by
  have hgt := d.offset_gt
  have hlt := d.offset_lt
  unfold usPerDay usPerSecond at hgt hlt
  unfold usPerMinute usPerSecond
  omega

/-- `model_dump(mode="json")` of a datetime. -/
def dump (d : Datetime) : Timestamp where
  naive := d.naive
  zone := if d.offset = 0 then .utc
    else .offset (decide (d.offset < 0)) ⟨d.offset.natAbs / usPerMinute, d.minutes_lt⟩
  naive_lt := d.naive_lt

/-- Nothing of the offset is cut off. -/
def WholeMinutes (d : Datetime) : Prop := (usPerMinute : ℤ) ∣ d.offset

instance (d : Datetime) : Decidable d.WholeMinutes := inferInstanceAs (Decidable (_ ∣ _))

variable {d : Datetime}

theorem toOffset_dump (h : d.WholeMinutes) : d.dump.zone.toOffset = d.offset := by
  obtain ⟨k, hk⟩ := h
  unfold dump
  dsimp only
  split_ifs with hzero
  · exact hzero.symm
  · have hminutes : d.offset.natAbs / usPerMinute * usPerMinute = d.offset.natAbs := by
      refine Nat.div_mul_cancel ⟨k.natAbs, ?_⟩
      rw [hk, Int.natAbs_mul, Int.natAbs_natCast]
    unfold Zone.toOffset
    dsimp only
    rw [hminutes]
    simp only [decide_eq_true_eq]
    split_ifs with hneg
    · omega
    · omega

theorem toDatetime_dump (h : d.WholeMinutes) : d.dump.toDatetime = d := by
  have hoffset := toOffset_dump h
  cases d
  simp only [Timestamp.toDatetime, hoffset]
  rfl

theorem dump_zone_eq_utc : d.dump.zone = .utc ↔ d.offset = 0 := by
  unfold dump
  dsimp only
  split_ifs with h <;> simp [h]

theorem dump_instant (h : d.WholeMinutes) : d.dump.instant = d.instant := by
  rw [Timestamp.instant, toDatetime_dump h]

theorem wholeMinutes_of_offset {e : Datetime} (h : d.WholeMinutes) (heq : e.offset = d.offset) :
    e.WholeMinutes := by
  unfold WholeMinutes at h ⊢
  rwa [heq]

theorem subSeconds_offset {e : Datetime} {n : ℕ} (h : d.subSeconds n = some e) :
    e.offset = d.offset := by
  unfold subSeconds at h
  split_ifs at h
  cases h
  rfl

/-- Texts of one offset are as far apart as their datetimes. -/
theorem dump_subSeconds {e : Datetime} {n : ℕ} (h : d.subSeconds n = some e) :
    e.dump.instant = d.dump.instant - seconds n := by
  have hnaive : (e.naive : ℤ) = d.naive - seconds n := by
    have hinstant : (e.naive : ℤ) - e.offset = d.naive - d.offset - seconds n :=
      subSeconds_instant h
    rw [subSeconds_offset h] at hinstant
    linarith only [hinstant]
  have hzone : e.dump.zone = d.dump.zone := by
    simp only [dump, subSeconds_offset h]
  show (e.naive : ℤ) - e.dump.zone.toOffset = (d.naive : ℤ) - d.dump.zone.toOffset - seconds n
  rw [hnaive, hzone]
  ring

end Datetime

namespace Timestamp

theorem wholeMinutes_toDatetime (t : Timestamp) : t.toDatetime.WholeMinutes := by
  show (usPerMinute : ℤ) ∣ t.zone.toOffset
  cases t.zone with
  | utc => exact dvd_zero _
  | offset west minutes =>
    unfold Zone.toOffset
    dsimp only
    split_ifs
    · exact (Int.natCast_dvd_natCast.mpr (Nat.dvd_mul_left _ _)).neg_right
    · exact Int.natCast_dvd_natCast.mpr (Nat.dvd_mul_left _ _)

/-- The text written again. -/
def rewritten (t : Timestamp) : Timestamp := t.toDatetime.dump

@[simp] theorem rewritten_instant (t : Timestamp) : t.rewritten.instant = t.instant :=
  Datetime.dump_instant t.wholeMinutes_toDatetime

/-- Written again twice is written again once. -/
@[simp] theorem rewritten_rewritten (t : Timestamp) : t.rewritten.rewritten = t.rewritten := by
  rw [rewritten, rewritten, Datetime.toDatetime_dump t.wholeMinutes_toDatetime]

end Timestamp

/-- A `timestamptz` read back is in UTC. -/
theorem Timestamptz.wholeMinutes (i : Timestamptz) : i.toDatetime.WholeMinutes := dvd_zero _

/-- A datetime in UTC is the `timestamptz` of its instant read back. -/
theorem Datetime.eq_toDatetime {d : Datetime} {i : Timestamptz} (hutc : d.offset = 0)
    (h : d.instant = i.val) : d = i.toDatetime := by
  obtain ⟨naive, offset, _, _, _⟩ := d
  obtain rfl : offset = 0 := hutc
  have hnaive : naive = i.val.toNat := by
    rw [← h, instant, sub_zero, Int.toNat_natCast]
  subst hnaive
  rfl

/-- Its text says so. -/
theorem Datetime.eq_toDatetime_of_dump {d : Datetime} {i : Timestamptz}
    (h : d.dump = i.toDatetime.dump) : d = i.toDatetime := by
  have hutc : d.offset = 0 := by
    rw [← dump_zone_eq_utc, h, dump_zone_eq_utc]
    rfl
  refine eq_toDatetime hutc ?_
  have hnaive : d.naive = i.val.toNat := congrArg Timestamp.naive h
  rw [instant, hutc, hnaive, sub_zero, Int.toNat_of_nonneg i.property.1]

end Lib
