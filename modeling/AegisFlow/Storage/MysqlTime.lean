import AegisFlow.Calendar.Gregorian
import AegisFlow.Risk.Mutation

/-!
# Times of the tables

An expiry is written to a column as the fields of a `MYSQL_TIME`, and read back from them.

* `gmtime`, `timegm` : the conversions of the C library between seconds since the epoch and the
  fields of `struct tm`, for the proleptic Gregorian calendar in UTC;
* `timegm_gmtime` : **the second that its fields name is the second**;
* `toMysqlTime`, `fromMysqlTime` : the conversions of the data access object;
* `fromMysqlTime_eq_some_iff` : the fields that are accepted, and what they are read as;
* `mysql_time_bijection` : expiries and fields correspond, **but for the epoch itself**, which is
  read as zero.
-/

namespace AegisFlow

namespace Mysql

open Gregorian

/-! ### Broken-down times -/

/-- The fields of `struct tm` that are used.  Months count from zero, years from 1900. -/
structure Tm where
  year : ℕ
  mon : ℕ
  mday : ℕ
  hour : ℕ
  min : ℕ
  sec : ℕ
  deriving DecidableEq, Repr

/-- The number of the first of January 1970. -/
def epochDay : ℕ := 719528

/-- The date and time of a second since the epoch. -/
def gmtime (seconds : ℕ) : Tm :=
  let date := dateOfDay (epochDay + seconds / 86400)
  ⟨date.year - 1900, date.month - 1, date.day, seconds % 86400 / 3600, seconds % 3600 / 60,
    seconds % 60⟩

/-- The second since the epoch of a date and time, and the fields that name it. -/
def timegm (tm : Tm) : ℤ × Tm :=
  -- fields out of range count on into the next larger one
  let first : Date := ⟨tm.year + 1900 + tm.mon / 12, tm.mon % 12 + 1, 1⟩
  let days : ℤ := first.dayNumber + tm.mday - 1 - epochDay
  let seconds : ℤ := 86400 * days + 3600 * tm.hour + 60 * tm.min + tm.sec
  (seconds, gmtime seconds.toNat)

namespace Tm

/-- The date of the fields. -/
def date (tm : Tm) : Date := ⟨tm.year + 1900, tm.mon + 1, tm.mday⟩

/-- The fields name a second from the epoch on. -/
structure Valid (tm : Tm) : Prop where
  date : tm.date.Valid
  year : 70 ≤ tm.year
  hour : tm.hour ≤ 23
  min : tm.min ≤ 59
  sec : tm.sec ≤ 59

end Tm

/-- The epoch is in the year 1970. -/
theorem year_of_epoch (days : ℕ) : 1970 ≤ (dateOfDay (epochDay + days)).year := by
  by_contra hlt
  have hmono := daysBeforeYear_mono
    (show (dateOfDay (epochDay + days)).year + 1 ≤ 1970 by omega)
  have hnext := (daysBeforeYear_yearOfDay (epochDay + days)).2
  have hepoch : daysBeforeYear 1970 = epochDay := by decide
  rw [hepoch] at hmono
  exact absurd (hnext.trans_le hmono) (Nat.not_lt.mpr (Nat.le_add_right _ _))

theorem gmtime_date (seconds : ℕ) :
    (gmtime seconds).date = dateOfDay (epochDay + seconds / 86400) := by
  have hyear := year_of_epoch (seconds / 86400)
  have hmonth := (valid_dateOfDay (epochDay + seconds / 86400)).1
  unfold Tm.date gmtime
  dsimp only
  rw [Nat.sub_add_cancel (by omega), Nat.sub_add_cancel hmonth]

theorem gmtime_hour (seconds : ℕ) : (gmtime seconds).hour = seconds % 86400 / 3600 := rfl

theorem gmtime_min (seconds : ℕ) : (gmtime seconds).min = seconds % 3600 / 60 := rfl

theorem gmtime_sec (seconds : ℕ) : (gmtime seconds).sec = seconds % 60 := rfl

theorem valid_gmtime (seconds : ℕ) : (gmtime seconds).Valid where
  date := by
    rw [gmtime_date]
    exact valid_dateOfDay _
  year := by
    have hyear := year_of_epoch (seconds / 86400)
    rw [← gmtime_date] at hyear
    change 1970 ≤ (gmtime seconds).year + 1900 at hyear
    omega
  hour := by
    rw [gmtime_hour]
    omega
  min := by
    rw [gmtime_min]
    omega
  sec := by
    rw [gmtime_sec]
    omega

/-- The days and seconds of fields that name a second. -/
theorem timegm_of_valid {tm : Tm} (h : tm.Valid) : ∃ days,
    tm.date.dayNumber = epochDay + days ∧
      (timegm tm).1 = (86400 * days + 3600 * tm.hour + 60 * tm.min + tm.sec : ℕ) := by
  obtain ⟨hone, htwelve, hday, -⟩ := h.date
  have hmon : tm.mon ≤ 11 := by
    change tm.mon + 1 ≤ 12 at htwelve
    omega
  have hepoch : epochDay ≤ tm.date.dayNumber := by
    have hmono := daysBeforeYear_mono (show 1970 ≤ tm.date.year by
      have := h.year
      simp only [Tm.date]
      omega)
    have hstart : daysBeforeYear 1970 = epochDay := by decide
    simp only [Date.dayNumber]
    omega
  refine ⟨tm.date.dayNumber - epochDay, by omega, ?_⟩
  have hfirst : (⟨tm.year + 1900 + tm.mon / 12, tm.mon % 12 + 1, 1⟩ : Date).dayNumber + tm.mday -
      1 = tm.date.dayNumber := by
    change 1 ≤ tm.mday at hday
    rw [Nat.div_eq_of_lt (by omega), Nat.mod_eq_of_lt (by omega), Nat.add_zero]
    simp only [Date.dayNumber, Tm.date]
    omega
  change 1 ≤ tm.mday at hday
  simp only [timegm]
  omega

/-- **The second that the fields of a second name is that second.** -/
theorem timegm_gmtime (seconds : ℕ) :
    timegm (gmtime seconds) = ((seconds : ℤ), gmtime seconds) := by
  obtain ⟨days, hdays, hseconds⟩ := timegm_of_valid (valid_gmtime seconds)
  rw [gmtime_date, dayNumber_dateOfDay] at hdays
  have hsum : (timegm (gmtime seconds)).1 = seconds := by
    rw [hseconds, gmtime_hour, gmtime_min, gmtime_sec]
    omega
  refine Prod.ext hsum ?_
  change gmtime (timegm (gmtime seconds)).1.toNat = _
  rw [hsum, Int.toNat_natCast]

/-! ### Times of the client library -/

/-- What a `MYSQL_TIME` holds. -/
inductive MysqlTimestampType
  | none
  | error
  | date
  | datetime
  | time
  deriving DecidableEq, Repr

/-- `MYSQL_TIME`. -/
structure MysqlTime where
  year : ℕ
  month : ℕ
  day : ℕ
  hour : ℕ
  minute : ℕ
  second : ℕ
  /-- Microseconds. -/
  secondPart : ℕ
  neg : Bool
  timeType : MysqlTimestampType
  deriving DecidableEq, Repr

/-- The date, the time and the fraction agree. -/
def MysqlTime.SameFields (v v' : MysqlTime) : Prop :=
  v.year = v'.year ∧ v.month = v'.month ∧ v.day = v'.day ∧ v.hour = v'.hour ∧
    v.minute = v'.minute ∧ v.second = v'.second ∧ v.secondPart = v'.secondPart

/-- An expiry as the fields of a column. -/
def toMysqlTime (epochMs : ℕ) : Option MysqlTime :=
  if epochMs = 0 ∨ BlacklistMutation.kMaxExpireAtMs < epochMs ∨ 2 ^ 63 - 1 < epochMs / 1000 then
    none
  else
    let utc := gmtime (epochMs / 1000)
    let yearValue := utc.year + 1900
    if yearValue < 1970 ∨ 9999 < yearValue then none
    else some ⟨yearValue, utc.mon + 1, utc.mday, utc.hour, utc.min, utc.sec, epochMs % 1000 * 1000,
      false, .datetime⟩

/-- The fields of a column in the ranges of their kinds. -/
def MysqlTime.inRange (value : MysqlTime) : Bool :=
  !(value.neg || decide (value.year < 1970) || decide (9999 < value.year) || value.month == 0 ||
    decide (12 < value.month) || value.day == 0 || decide (31 < value.day) ||
    decide (23 < value.hour) || decide (59 < value.minute) || decide (59 < value.second) ||
    decide (999999 < value.secondPart) || value.secondPart % 1000 != 0)

/-- An expiry from the fields of a column. -/
def fromMysqlTime (value : MysqlTime) : Option ℕ :=
  if !value.inRange then none
  else
    let utc : Tm := ⟨value.year - 1900, value.month - 1, value.day, value.hour, value.minute,
      value.second⟩
    let converted := timegm utc
    -- a day that does not exist comes back as another one
    if converted.1 < 0 ∨ converted.2 ≠ utc then none
    else
      let wholeSeconds := converted.1.toNat
      let milliseconds := value.secondPart / 1000
      if (BlacklistMutation.kMaxExpireAtMs - milliseconds) / 1000 < wholeSeconds then none
      else some (wholeSeconds * 1000 + milliseconds)

variable {value : MysqlTime} {epochMs : ℕ}

theorem MysqlTime.inRange_iff : value.inRange = true ↔
    value.neg = false ∧ (1970 ≤ value.year ∧ value.year ≤ 9999) ∧
      (1 ≤ value.month ∧ value.month ≤ 12) ∧ (1 ≤ value.day ∧ value.day ≤ 31) ∧ value.hour ≤ 23 ∧
      value.minute ≤ 59 ∧ value.second ≤ 59 ∧ value.secondPart ≤ 999999 ∧
      value.secondPart % 1000 = 0 := by
  simp only [inRange, Bool.not_eq_true', Bool.or_eq_false_iff, decide_eq_false_iff_not, not_lt,
    beq_eq_false_iff_ne, bne_eq_false_iff_eq]
  constructor
  · rintro ⟨⟨⟨⟨⟨⟨⟨⟨⟨⟨⟨h1, h2⟩, h3⟩, h4⟩, h5⟩, h6⟩, h7⟩, h8⟩, h9⟩, h10⟩, h11⟩, h12⟩
    exact ⟨h1, ⟨h2, h3⟩, ⟨by omega, h5⟩, ⟨by omega, h7⟩, h8, h9, h10, h11, h12⟩
  · rintro ⟨h1, ⟨h2, h3⟩, ⟨h4, h5⟩, ⟨h6, h7⟩, h8, h9, h10, h11, h12⟩
    exact ⟨⟨⟨⟨⟨⟨⟨⟨⟨⟨⟨h1, h2⟩, h3⟩, by omega⟩, h5⟩, by omega⟩, h7⟩, h8⟩, h9⟩, h10⟩, h11⟩, h12⟩

/-- The fields that a column has for an expiry. -/
def fieldsOf (epochMs : ℕ) : MysqlTime :=
  let utc := gmtime (epochMs / 1000)
  ⟨utc.year + 1900, utc.mon + 1, utc.mday, utc.hour, utc.min, utc.sec, epochMs % 1000 * 1000, false,
    .datetime⟩

/-- The last expiry is in the year 9999. -/
theorem year_le (h : epochMs ≤ BlacklistMutation.kMaxExpireAtMs) :
    (gmtime (epochMs / 1000)).year + 1900 ≤ 9999 := by
  have hdays : epochMs / 1000 / 86400 ≤ 2932896 := by
    unfold BlacklistMutation.kMaxExpireAtMs at h
    omega
  have hyear : (gmtime (epochMs / 1000)).date.year = (gmtime (epochMs / 1000)).year + 1900 := rfl
  rw [← hyear, gmtime_date]
  by_contra hlt
  have hmono := daysBeforeYear_mono
    (show 10000 ≤ (dateOfDay (epochDay + epochMs / 1000 / 86400)).year by omega)
  have hstart := (daysBeforeYear_yearOfDay (epochDay + epochMs / 1000 / 86400)).1
  have hend : daysBeforeYear 10000 = epochDay + 2932897 := by decide
  rw [hend] at hmono
  exact absurd (hmono.trans hstart) (by omega)

/-- Every expiry has fields. -/
theorem toMysqlTime_eq (hpos : 1 ≤ epochMs) (hmax : epochMs ≤ BlacklistMutation.kMaxExpireAtMs) :
    toMysqlTime epochMs = some (fieldsOf epochMs) := by
  have hlow := (valid_gmtime (epochMs / 1000)).year
  have hhigh := year_le hmax
  unfold toMysqlTime
  rw [if_neg]
  · dsimp only
    rw [if_neg (by omega)]
    rfl
  · unfold BlacklistMutation.kMaxExpireAtMs at hmax ⊢
    omega

theorem timegm_snd (tm : Tm) : (timegm tm).2 = gmtime (timegm tm).1.toNat := rfl

/-- The fields of an expiry are in their ranges. -/
theorem inRange_of_sameFields (hmax : epochMs ≤ BlacklistMutation.kMaxExpireAtMs)
    (hneg : value.neg = false) (hfields : value.SameFields (fieldsOf epochMs)) :
    value.inRange = true := by
  obtain ⟨hyear, hmonth, hday, hhour, hminute, hsecond, hpart⟩ := hfields
  have hvalid := valid_gmtime (epochMs / 1000)
  obtain ⟨-, htwelve, hone, hdays⟩ := hvalid.date
  have hlow := hvalid.year
  have hhigh := year_le hmax
  have hlong : daysInMonth (isLeap (gmtime (epochMs / 1000)).date.year)
      (gmtime (epochMs / 1000)).date.month ≤ 31 := by
    unfold daysInMonth
    split
    all_goals try split
    all_goals omega
  have hmicro : epochMs % 1000 < 1000 := Nat.mod_lt _ (by omega)
  refine MysqlTime.inRange_iff.mpr ⟨hneg, ?_, ?_, ?_, ?_, ?_, ?_, ?_, ?_⟩
  · rw [hyear]
    exact ⟨by change 1970 ≤ (gmtime (epochMs / 1000)).year + 1900; omega, hhigh⟩
  · rw [hmonth]
    exact ⟨Nat.le_add_left _ _, htwelve⟩
  · rw [hday]
    exact ⟨hone, hdays.trans hlong⟩
  · rw [hhour]
    exact hvalid.hour
  · rw [hminute]
    exact hvalid.min
  · rw [hsecond]
    exact hvalid.sec
  · rw [hpart]
    change epochMs % 1000 * 1000 ≤ 999999
    omega
  · rw [hpart]
    change epochMs % 1000 * 1000 % 1000 = 0
    omega

/-- **The fields that are accepted** are those of a millisecond from the epoch to the year 9999. -/
theorem fromMysqlTime_eq_some_iff :
    fromMysqlTime value = some epochMs ↔
      epochMs ≤ BlacklistMutation.kMaxExpireAtMs ∧ value.neg = false ∧
        value.SameFields (fieldsOf epochMs) := by
  constructor
  · intro h
    unfold fromMysqlTime at h
    dsimp only at h
    split_ifs at h with hrange hconverted hlate
    rw [Bool.not_eq_true', Bool.not_eq_false] at hrange
    obtain ⟨hneg, hyear, hmonth, -, -, -, -, hpart, hmillis⟩ := MysqlTime.inRange_iff.mp hrange
    rw [not_or, not_not, timegm_snd] at hconverted
    cases h
    generalize (timegm ⟨value.year - 1900, value.month - 1, value.day, value.hour, value.minute,
      value.second⟩).1.toNat = seconds at *
    have hsecond : (seconds * 1000 + value.secondPart / 1000) / 1000 = seconds := by omega
    have hmilli : (seconds * 1000 + value.secondPart / 1000) % 1000 = value.secondPart / 1000 := by
      omega
    have hmax : seconds * 1000 + value.secondPart / 1000 ≤ BlacklistMutation.kMaxExpireAtMs := by
      unfold BlacklistMutation.kMaxExpireAtMs at hlate ⊢
      omega
    refine ⟨hmax, hneg, ?_⟩
    unfold fieldsOf
    rw [hsecond, hmilli, hconverted.2]
    refine ⟨?_, ?_, rfl, rfl, rfl, rfl, ?_⟩
    · exact (Nat.sub_add_cancel (by omega)).symm
    · exact (Nat.sub_add_cancel hmonth.1).symm
    · change value.secondPart = value.secondPart / 1000 * 1000
      omega
  · rintro ⟨hmax, hneg, hfields⟩
    have hrange := inRange_of_sameFields hmax hneg hfields
    obtain ⟨hyear, hmonth, hday, hhour, hminute, hsecond, hpart⟩ := hfields
    have htm : (⟨value.year - 1900, value.month - 1, value.day, value.hour, value.minute,
        value.second⟩ : Tm) = gmtime (epochMs / 1000) := by
      rw [hyear, hmonth, hday, hhour, hminute, hsecond]
      unfold fieldsOf
      dsimp only
      rw [Nat.add_sub_cancel, Nat.add_sub_cancel]
    have hmilli : value.secondPart / 1000 = epochMs % 1000 := by
      rw [hpart]
      exact Nat.mul_div_cancel _ (by omega)
    unfold fromMysqlTime
    dsimp only
    rw [hrange, htm, timegm_gmtime, hmilli]
    dsimp only
    have hback : ¬ (((epochMs / 1000 : ℕ) : ℤ) < 0 ∨
        gmtime (epochMs / 1000) ≠ gmtime (epochMs / 1000)) := by
      rintro (hlt | hne)
      · exact absurd hlt (not_lt.mpr (Int.natCast_nonneg _))
      · exact hne rfl
    rw [Bool.not_true, if_neg Bool.false_ne_true, if_neg hback, Int.toNat_natCast, if_neg]
    · rw [Nat.div_add_mod']
    · unfold BlacklistMutation.kMaxExpireAtMs at hmax ⊢
      omega

/-! ### Expiries and fields -/

/-- The first of January 1970 at midnight. -/
def MysqlTime.epoch : MysqlTime := ⟨1970, 1, 1, 0, 0, 0, 0, false, .datetime⟩

theorem fieldsOf_zero : fieldsOf 0 = .epoch := by decide

/-- **The epoch is read as zero**, which stands for no expiry. -/
theorem fromMysqlTime_epoch : fromMysqlTime .epoch = some 0 := by decide

/-- **Expiries and fields correspond.**  Every expiry has fields and is read back from them.  Fields
that are accepted are those of an expiry iff they are not those of the epoch. -/
theorem mysql_time_bijection (value : MysqlTime) :
    (∀ epochMs, 1 ≤ epochMs → epochMs ≤ BlacklistMutation.kMaxExpireAtMs →
      ∃ value', toMysqlTime epochMs = some value' ∧ fromMysqlTime value' = some epochMs) ∧
    ∀ epochMs, fromMysqlTime value = some epochMs →
      ((1 ≤ epochMs ∧ epochMs ≤ BlacklistMutation.kMaxExpireAtMs ∧
        ∃ value', toMysqlTime epochMs = some value' ∧ value'.SameFields value) ↔
      ¬ value.SameFields .epoch) := by
  constructor
  · intro epochMs hpos hmax
    refine ⟨fieldsOf epochMs, toMysqlTime_eq hpos hmax, ?_⟩
    exact fromMysqlTime_eq_some_iff.mpr ⟨hmax, rfl, rfl, rfl, rfl, rfl, rfl, rfl, rfl⟩
  · intro epochMs h
    obtain ⟨hmax, hneg, hfields⟩ := fromMysqlTime_eq_some_iff.mp h
    constructor
    · rintro ⟨hpos, -, -⟩ hepoch
      have hzero : fromMysqlTime value = some 0 := by
        rw [← fieldsOf_zero] at hepoch
        exact fromMysqlTime_eq_some_iff.mpr ⟨Nat.zero_le _, hneg, hepoch⟩
      rw [h, Option.some.injEq] at hzero
      omega
    · intro hepoch
      have hpos : 1 ≤ epochMs := by
        by_contra hzero
        obtain rfl : epochMs = 0 := by omega
        rw [fieldsOf_zero] at hfields
        exact hepoch hfields
      obtain ⟨h1, h2, h3, h4, h5, h6, h7⟩ := hfields
      exact ⟨hpos, hmax, _, toMysqlTime_eq hpos hmax, h1.symm, h2.symm, h3.symm, h4.symm, h5.symm,
        h6.symm, h7.symm⟩

/-- The last millisecond that can be stored; its fields are not those of the epoch. -/
theorem mysql_time_bijection_last :
    ∃ value, toMysqlTime BlacklistMutation.kMaxExpireAtMs = some value ∧
      fromMysqlTime value = some BlacklistMutation.kMaxExpireAtMs ∧ ¬ value.SameFields .epoch := by
  obtain ⟨value, hto, hfrom⟩ := (mysql_time_bijection .epoch).1 _ (by decide) le_rfl
  refine ⟨value, hto, hfrom, ((mysql_time_bijection value).2 _ hfrom).mp
    ⟨by decide, le_rfl, value, ?_⟩⟩
  exact ⟨hto, rfl, rfl, rfl, rfl, rfl, rfl, rfl⟩

end Mysql

end AegisFlow
