import Hemlig.Text.Decimal
import Mathlib.Data.Nat.Find

/-!
# Calendar dates

The Gregorian calendar from 1970 on, as ECMAScript computes it from a number of days: the
year is the last one that begins no later, and the month the last one of that year.  A day is
determined by its date, and times of one day are ordered as they are written.
-/

namespace Hemlig.Text

/-! ## Years -/

/-- The day that a year begins with. -/
def dayFromYear (year : ℕ) : ℕ :=
  365 * (year - 1970) + (year - 1969) / 4 + (year - 1601) / 400 - (year - 1901) / 100

/-- The year of a day. -/
def yearFromDay (day : ℕ) : ℕ :=
  Nat.findGreatest (fun year => dayFromYear year ≤ day) (day / 365 + 1970)

theorem dayFromYear_succ_le {year : ℕ} (h : 1970 ≤ year) :
    dayFromYear (year + 1) ≤ dayFromYear year + 366 := by
  unfold dayFromYear
  omega

theorem le_dayFromYear {year : ℕ} (h : 1970 ≤ year) : 365 * (year - 1970) ≤ dayFromYear year := by
  unfold dayFromYear
  omega

theorem le_yearFromDay (day : ℕ) : 1970 ≤ yearFromDay day :=
  Nat.le_findGreatest (Nat.le_add_left _ _) (Nat.zero_le _)

theorem yearFromDay_le (day : ℕ) : yearFromDay day ≤ day / 365 + 1970 := Nat.findGreatest_le _

theorem dayFromYear_yearFromDay_le (day : ℕ) : dayFromYear (yearFromDay day) ≤ day :=
  Nat.findGreatest_spec (P := fun year => dayFromYear year ≤ day) (Nat.le_add_left 1970 (day / 365))
    (Nat.zero_le _)

/-- The next year begins later. -/
theorem lt_dayFromYear_succ (day : ℕ) : day < dayFromYear (yearFromDay day + 1) := by
  by_cases hbound : yearFromDay day + 1 ≤ day / 365 + 1970
  · exact not_le.mp (Nat.findGreatest_is_greatest
      (P := fun year => dayFromYear year ≤ day) (Nat.lt_succ_self _) hbound)
  · have hlater : 1970 ≤ yearFromDay day + 1 := Nat.le_succ_of_le (le_yearFromDay day)
    have hyear := le_dayFromYear hlater
    omega

/-! ## Months -/

def isLeapYear (year : ℕ) : Bool := (year % 4 = 0 ∧ year % 100 ≠ 0) ∨ year % 400 = 0

/-- The days of a year that its months begin with. -/
def monthStarts (leap : Bool) : List ℕ :=
  let shift := leap.toNat
  [0, 31, 59 + shift, 90 + shift, 120 + shift, 151 + shift, 181 + shift, 212 + shift, 243 + shift,
    273 + shift, 304 + shift, 334 + shift]

def daysInMonth (year month : ℕ) : ℕ :=
  if month = 2 then 28 + (isLeapYear year).toNat
  else if month = 4 ∨ month = 6 ∨ month = 9 ∨ month = 11 then 30
  else 31

structure Date where
  year : ℕ
  month : ℕ
  day : ℕ
  deriving DecidableEq, Repr

/-- The month of a day of a year, the first one being 1. -/
def monthFromDay (leap : Bool) (dayWithinYear : ℕ) : ℕ :=
  ((monthStarts leap).takeWhile (· ≤ dayWithinYear)).length

/-- The date of a day. -/
def dateFromDay (day : ℕ) : Date :=
  let year := yearFromDay day
  let dayWithinYear := day - dayFromYear year
  let month := monthFromDay (isLeapYear year) dayWithinYear
  { year := year
    month := month
    day := dayWithinYear - (monthStarts (isLeapYear year)).getD (month - 1) 0 + 1 }

/-- The day of the year that a date's month begins with. -/
def monthStart (leap : Bool) (dayWithinYear : ℕ) : ℕ :=
  (monthStarts leap).getD (monthFromDay leap dayWithinYear - 1) 0

/-- A day lies in its month; the last one of any year counts as one of December. -/
theorem monthStart_spec : ∀ (leap : Bool) (day : Fin 366), monthFromDay leap day ≤ 12 ∧
    monthStart leap day ≤ day ∧ (day : ℕ) < monthStart leap day + 32 := by
  decide +kernel

/-- The day of its year, of any day. -/
theorem dayWithinYear_lt (day : ℕ) : day - dayFromYear (yearFromDay day) < 366 := by
  have hlong := dayFromYear_succ_le (le_yearFromDay day)
  have hlater := lt_dayFromYear_succ day
  have hbegins := dayFromYear_yearFromDay_le day
  omega

/-- What the fields of a date are bounded by. -/
theorem dateFromDay_le (day : ℕ) : (dateFromDay day).year ≤ day / 365 + 1970 ∧
    (dateFromDay day).month ≤ 12 ∧ (dateFromDay day).day ≤ 32 := by
  obtain ⟨hmonth, hle, hlt⟩ :=
    monthStart_spec (isLeapYear (yearFromDay day)) ⟨_, dayWithinYear_lt day⟩
  refine ⟨yearFromDay_le day, hmonth, ?_⟩
  show _ - monthStart _ _ + 1 ≤ 32
  simp only at hle hlt
  omega

/-- **A day is determined by its date.** -/
theorem dateFromDay_inj {day day' : ℕ} (h : dateFromDay day = dateFromDay day') : day = day' := by
  simp only [dateFromDay, Date.mk.injEq] at h
  obtain ⟨hyear, hmonth, hday⟩ := h
  have hle := (monthStart_spec (isLeapYear (yearFromDay day)) ⟨_, dayWithinYear_lt day⟩).2.1
  have hle' := (monthStart_spec (isLeapYear (yearFromDay day')) ⟨_, dayWithinYear_lt day'⟩).2.1
  have hbegins := dayFromYear_yearFromDay_le day
  have hbegins' := dayFromYear_yearFromDay_le day'
  simp only [monthStart] at hle hle'
  rw [hmonth, hyear] at hday hle
  rw [hyear] at hbegins
  omega

/-! ## How they are written -/

/-- `YYYY-MM-DD`. -/
def Date.iso (date : Date) : List Char :=
  fixed 4 date.year ++ '-' :: (fixed 2 date.month ++ '-' :: fixed 2 date.day)

/-- The milliseconds of a day. -/
def millisecondsPerDay : ℕ := 86400000

/-- The date of a time in milliseconds. -/
def utcDate (time : ℕ) : Date := dateFromDay (time / millisecondsPerDay)

/-- `THH:mm:ss.sssZ`, of the milliseconds since midnight. -/
def isoClock (time : ℕ) : List Char :=
  'T' :: (fixed 2 (time / 3600000) ++ ':' :: (fixed 2 (time / 60000 % 60) ++
    ':' :: (fixed 2 (time / 1000 % 60) ++ '.' :: (fixed 3 (time % 1000) ++ ['Z']))))

/-- `toISOString()`, of a time before the year 10000. -/
def isoString (time : ℕ) : List Char :=
  (utcDate time).iso ++ isoClock (time % millisecondsPerDay)

@[simp] theorem Date.length_iso (date : Date) : date.iso.length = 10 := by
  simp [Date.iso]

/-- Dates with fields of the usual width. -/
theorem Date.iso_inj {date date' : Date} (hyear : date.year < 10000) (hyear' : date'.year < 10000)
    (hmonth : date.month < 100) (hmonth' : date'.month < 100) (hday : date.day < 100)
    (hday' : date'.day < 100) : date.iso = date'.iso ↔ date = date' := by
  refine ⟨fun h => ?_, fun h => by rw [h]⟩
  unfold Date.iso at h
  obtain ⟨hy, hrest⟩ := (fixed_append_inj (by omega) (by omega)).mp h
  obtain ⟨hm, hlast⟩ := (fixed_append_inj (by omega) (by omega)).mp (List.cons.inj hrest).2
  have hd := (fixed_inj (by omega) (by omega)).mp (List.cons.inj hlast).2
  cases date
  cases date'
  simp only at hy hm hd
  rw [hy, hm, hd]

/-- Clocks are ordered as the times of day are. -/
theorem isoClock_le {time time' : ℕ} (h : time ≤ time') (hlt : time' < millisecondsPerDay) :
    isoClock time ≤ isoClock time' := by
  by_contra hnot
  have hbefore : isoClock time' < isoClock time := lt_iff_not_le.mpr hnot
  simp only [millisecondsPerDay] at hlt
  unfold isoClock at hbefore
  -- The hours decide, then the minutes, the seconds and the milliseconds.
  rw [List.cons_lt_cons_self, fixed_append_lt_iff (by omega) (by omega), List.cons_lt_cons_self,
    fixed_append_lt_iff (by omega) (by omega), List.cons_lt_cons_self,
    fixed_append_lt_iff (by omega) (by omega), List.cons_lt_cons_self,
    fixed_append_lt_iff (by omega) (by omega)] at hbefore
  have hirrefl : ¬ (['Z'] < ['Z']) := List.lt_irrefl _
  simp only [hirrefl, and_false, or_false] at hbefore
  omega

end Hemlig.Text
