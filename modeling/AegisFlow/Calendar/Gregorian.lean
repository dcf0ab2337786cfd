import Mathlib.Order.Monotone.Basic
import Mathlib.Order.Nat
import Mathlib.Tactic.SplitIfs

/-!
# The Gregorian calendar

Days are numbered from the first of January of the year `0` of the proleptic Gregorian calendar,
in which the leap years are the multiples of `4` that are not multiples of `100`, and the multiples
of `400`.

* `Date`, `Date.Valid` : a year, a month and a day, and whether there is such a day;
* `Date.dayNumber` : its number;
* `dateOfDay` : the date with a number.  The year is estimated from the length of four hundred years
  and then corrected by at most one (`daysBeforeYear_yearOfDay`);
* `valid_dateOfDay`, `dayNumber_dateOfDay` : **every day has a date that exists, with its number.**
-/

namespace AegisFlow

namespace Gregorian

/-! ### Years -/

/-- The year has a 29th of February. -/
def isLeap (year : ℕ) : Bool := year % 4 == 0 && (year % 100 != 0 || year % 400 == 0)

/-- The days of the years before `year`. -/
def daysBeforeYear (year : ℕ) : ℕ :=
  365 * year + (year + 3) / 4 + (year + 399) / 400 - (year + 99) / 100

/-- The days of a year, leap or not. -/
def yearLength (leap : Bool) : ℕ := if leap then 366 else 365

theorem daysBeforeYear_succ (year : ℕ) :
    daysBeforeYear (year + 1) = daysBeforeYear year + yearLength (isLeap year) := by
  have hfour : (year + 1 + 3) / 4 = (year + 3) / 4 + if year % 4 = 0 then 1 else 0 := by
    split_ifs <;> omega
  have hcentury : (year + 1 + 99) / 100 = (year + 99) / 100 + if year % 100 = 0 then 1 else 0 := by
    split_ifs <;> omega
  have hperiod : (year + 1 + 399) / 400 = (year + 399) / 400 + if year % 400 = 0 then 1 else 0 := by
    split_ifs <;> omega
  have hle : (year + 99) / 100 ≤ (year + 3) / 4 := by omega
  -- a multiple of 400 is one of 100, and a multiple of 100 is one of 4
  have hdvd : year % 400 = 0 → year % 100 = 0 := by omega
  have hdvd' : year % 100 = 0 → year % 4 = 0 := by omega
  unfold daysBeforeYear yearLength isLeap
  rw [hfour, hcentury, hperiod]
  generalize (year + 3) / 4 = a, (year + 99) / 100 = b, (year + 399) / 400 = c at *
  by_cases h400 : year % 400 = 0
  · simp [h400, hdvd h400, hdvd' (hdvd h400)]
    omega
  · by_cases h100 : year % 100 = 0
    · simp [h400, h100, hdvd' h100]
      omega
    · by_cases h4 : year % 4 = 0
      · simp [h400, h100, h4]
        omega
      · simp [h400, h100, h4]
        omega

theorem daysBeforeYear_mono : Monotone daysBeforeYear :=
  monotone_nat_of_le_succ fun year => by rw [daysBeforeYear_succ]; exact Nat.le_add_right _ _

/-- Four hundred years have 146097 days. -/
theorem daysBeforeYear_period (q r : ℕ) :
    daysBeforeYear (400 * q + r) = 146097 * q + daysBeforeYear r := by
  have hfour : (400 * q + r + 3) / 4 = 100 * q + (r + 3) / 4 := by omega
  have hcentury : (400 * q + r + 99) / 100 = 4 * q + (r + 99) / 100 := by omega
  have hperiod : (400 * q + r + 399) / 400 = q + (r + 399) / 400 := by omega
  have hle : (r + 99) / 100 ≤ (r + 3) / 4 := by omega
  unfold daysBeforeYear
  rw [hfour, hcentury, hperiod]
  omega

/-- The days before a year are close to their average. -/
theorem daysBeforeYear_bounds (year : ℕ) :
    146097 * year ≤ 400 * daysBeforeYear year + 400 ∧
      400 * daysBeforeYear year ≤ 146097 * year + 600 := by
  have hperiod : ∀ r < 400, 146097 * r ≤ 400 * daysBeforeYear r + 400 ∧
      400 * daysBeforeYear r ≤ 146097 * r + 600 := by decide +kernel
  have hrest := hperiod (year % 400) (Nat.mod_lt _ (by omega))
  have hyear := daysBeforeYear_period (year / 400) (year % 400)
  rw [Nat.div_add_mod] at hyear
  omega

/-- The year of a day. -/
def yearOfDay (n : ℕ) : ℕ :=
  -- the estimate is off by at most one
  let year := n * 400 / 146097
  if n < daysBeforeYear year then year - 1
  else if daysBeforeYear (year + 1) ≤ n then year + 1
  else year

/-- **The year of a day begins no later than the day, and the next one after it.** -/
theorem daysBeforeYear_yearOfDay (n : ℕ) :
    daysBeforeYear (yearOfDay n) ≤ n ∧ n < daysBeforeYear (yearOfDay n + 1) := by
  unfold yearOfDay
  simp only
  have hdiv := Nat.div_add_mod (n * 400) 146097
  have hmod := Nat.mod_lt (n * 400) (show 0 < 146097 by omega)
  generalize n * 400 / 146097 = year at *
  have hlength (y : ℕ) : 365 ≤ yearLength (isLeap y) := by
    unfold yearLength
    split_ifs <;> omega
  split_ifs with hlow hhigh
  · have hbounds := daysBeforeYear_bounds year
    cases year with
    | zero => exact absurd hlow (Nat.not_lt_zero n)
    | succ year =>
      have hsucc := daysBeforeYear_succ year
      have := hlength year
      rw [Nat.add_sub_cancel]
      omega
  · have hbounds := daysBeforeYear_bounds (year + 1)
    have hsucc := daysBeforeYear_succ (year + 1)
    have := hlength (year + 1)
    omega
  · omega

/-! ### Months -/

/-- The days of a month; there are twelve. -/
def daysInMonth (leap : Bool) : ℕ → ℕ
  | 1 | 3 | 5 | 7 | 8 | 10 | 12 => 31
  | 4 | 6 | 9 | 11 => 30
  | 2 => if leap then 29 else 28
  | _ => 0

/-- The days of the months of a year before `month`. -/
def daysBeforeMonth (leap : Bool) : ℕ → ℕ
  | 0 => 0
  | month + 1 => daysBeforeMonth leap month + daysInMonth leap month

/-- The month of the day `k` of a year, counted from zero: as many months have begun. -/
def monthOfDay (leap : Bool) (k : ℕ) : ℕ :=
  (List.range' 1 12).countP fun month => decide (daysBeforeMonth leap month ≤ k)

theorem monthOfDay_spec : ∀ leap, ∀ k < yearLength leap, 1 ≤ monthOfDay leap k ∧
    monthOfDay leap k ≤ 12 ∧ daysBeforeMonth leap (monthOfDay leap k) ≤ k ∧
    k < daysBeforeMonth leap (monthOfDay leap k) + daysInMonth leap (monthOfDay leap k) := by
  decide +kernel

/-! ### Dates -/

/-- A date, whether or not there is one. -/
structure Date where
  year : ℕ
  month : ℕ
  day : ℕ
  deriving DecidableEq, Repr

namespace Date

/-- There is such a day. -/
def Valid (date : Date) : Prop :=
  1 ≤ date.month ∧ date.month ≤ 12 ∧ 1 ≤ date.day ∧
    date.day ≤ daysInMonth (isLeap date.year) date.month

instance (date : Date) : Decidable date.Valid := inferInstanceAs (Decidable (_ ∧ _))

/-- The number of a day. -/
def dayNumber (date : Date) : ℕ :=
  daysBeforeYear date.year + daysBeforeMonth (isLeap date.year) date.month + (date.day - 1)

end Date

/-- The date of a day. -/
def dateOfDay (n : ℕ) : Date :=
  let year := yearOfDay n
  let k := n - daysBeforeYear year
  let month := monthOfDay (isLeap year) k
  ⟨year, month, k - daysBeforeMonth (isLeap year) month + 1⟩

/-- The day of the year. -/
theorem sub_daysBeforeYear_lt (n : ℕ) :
    n - daysBeforeYear (yearOfDay n) < yearLength (isLeap (yearOfDay n)) := by
  obtain ⟨hle, hlt⟩ := daysBeforeYear_yearOfDay n
  rw [daysBeforeYear_succ] at hlt
  omega

/-- Every day has a date that exists. -/
theorem valid_dateOfDay (n : ℕ) : (dateOfDay n).Valid := by
  obtain ⟨hone, htwelve, hle, hlt⟩ := monthOfDay_spec _ _ (sub_daysBeforeYear_lt n)
  refine ⟨hone, htwelve, Nat.le_add_left _ _, ?_⟩
  simp only [dateOfDay]
  omega

/-- **The number of the date of a day is the day.** -/
theorem dayNumber_dateOfDay (n : ℕ) : (dateOfDay n).dayNumber = n := by
  obtain ⟨-, -, hle, -⟩ := monthOfDay_spec _ _ (sub_daysBeforeYear_lt n)
  have hyear := (daysBeforeYear_yearOfDay n).1
  simp only [dateOfDay, Date.dayNumber]
  omega

end Gregorian

end AegisFlow
