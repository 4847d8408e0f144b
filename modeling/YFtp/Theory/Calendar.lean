import Mathlib.Tactic.Common

/-!
# Calendar — days of the proleptic Gregorian calendar, and back

Days are counted from March 1st of the year 0, so that a leap day is the last day of its year.  An
era of 400 years is four centuries, a century is cycles of four years, and a date is found from the
day of its era by division; the way back is a sum.
-/

namespace YFtp.Theory.Calendar

/-! ## Years -/

/-- The year of a day of an era. -/
def yearOfEra (doe : Nat) : Nat := (doe - doe / 1460 + doe / 36524 - doe / 146096) / 365

/-- The days of an era before a year. -/
def daysBefore (year : Nat) : Nat := 365 * year + year / 4 - year / 100

/-- Centuries, cycles of four years, years and days: only the last year of a cycle has a leap day,
and the last one of a century only if the century is the last one of its era. -/
theorem exists_cycles {doe : Nat} (h : doe < 146097) : ∃ c b r d,
    doe = 36524 * c + 1461 * b + 365 * r + d ∧ c ≤ 3 ∧ b ≤ 24 ∧ r ≤ 3 ∧ d ≤ 365 ∧
      (d = 365 → r = 3 ∧ (b < 24 ∨ c = 3)) := by
  obtain ⟨c, rest, hc, hrest, hlast⟩ : ∃ c rest, doe = 36524 * c + rest ∧ c ≤ 3 ∧
      (rest < 36524 ∨ c = 3 ∧ rest = 36524) := by
    by_cases hlast : doe = 146096
    · exact ⟨3, 36524, by omega, by omega, .inr ⟨rfl, rfl⟩⟩
    · exact ⟨doe / 36524, doe % 36524, by omega, by omega, .inl (by omega)⟩
  obtain ⟨r, d, hr, hd⟩ : ∃ r d, rest % 1461 = 365 * r + d ∧ r ≤ 3 ∧
      (d < 365 ∨ r = 3 ∧ d = 365) := by
    by_cases hleap : rest % 1461 = 1460
    · exact ⟨3, 365, by omega, by omega, .inr ⟨rfl, rfl⟩⟩
    · exact ⟨rest % 1461 / 365, rest % 1461 % 365, by omega, by omega, .inl (by omega)⟩
  exact ⟨c, rest / 1461, r, d, by omega, by omega, by omega, by omega, by omega, by omega⟩

section Cycles

variable {c b r d : Nat}

theorem yearOfEra_cycles (hc : c ≤ 3) (hb : b ≤ 24) (hr : r ≤ 3) (hd : d ≤ 365)
    (hleap : d = 365 → r = 3 ∧ (b < 24 ∨ c = 3)) :
    yearOfEra (36524 * c + 1461 * b + 365 * r + d) = 100 * c + 4 * b + r := by
  unfold yearOfEra
  -- a century is 24 days longer than 25 times 1460 days, and a leap day makes up for the difference
  have hquarter : (36524 * c + 1461 * b + 365 * r + d) / 1460
      = 25 * c + b + (24 * c + b + 365 * r + d) / 1460 := by omega
  have hcentury : (36524 * c + 1461 * b + 365 * r + d) / 36524
      = c + (if c = 3 ∧ b = 24 ∧ r = 3 ∧ d = 365 then 1 else 0) := by
    split <;> omega
  have hera : (36524 * c + 1461 * b + 365 * r + d) / 146096
      = if c = 3 ∧ b = 24 ∧ r = 3 ∧ d = 365 then 1 else 0 := by
    split <;> omega
  rw [hquarter, hcentury, hera]
  split <;> omega

theorem daysBefore_cycles (hb : b ≤ 24) (hr : r ≤ 3) :
    daysBefore (100 * c + 4 * b + r) = 36524 * c + 1461 * b + 365 * r := by
  unfold daysBefore
  omega

end Cycles

/-- What is left of a day of an era after the years before it is a day of its year. -/
theorem yearOfEra_spec {doe : Nat} (h : doe < 146097) : yearOfEra doe < 400 ∧
    daysBefore (yearOfEra doe) ≤ doe ∧ doe - daysBefore (yearOfEra doe) ≤ 365 := by
  obtain ⟨c, b, r, d, rfl, hc, hb, hr, hd, hleap⟩ := exists_cycles h
  rw [yearOfEra_cycles hc hb hr hd hleap, daysBefore_cycles hb hr]
  omega

/-! ## Dates -/

/-- A date; months count from 0. -/
structure Date where
  year : Int
  month : Nat
  day : Nat
deriving DecidableEq, Repr

/-- The month of a day of the year, counted from March. -/
def monthOfYear (doy : Nat) : Nat := (5 * doy + 2) / 153

/-- The days of a year before a month. -/
def daysBeforeMonth (month : Nat) : Nat := (153 * month + 2) / 5

/-- The date of a day. -/
def dateOf (days : Int) : Date :=
  let doe := (days % 146097).toNat
  let yoe := yearOfEra doe
  let doy := doe - daysBefore yoe
  let mp := monthOfYear doy
  let month := if mp < 10 then mp + 3 else mp - 9
  { year := days / 146097 * 400 + yoe + (if month ≤ 2 then 1 else 0)
    month := month - 1
    day := doy - daysBeforeMonth mp + 1 }

/-- The day of a date. -/
def daysOf (date : Date) : Int :=
  -- January and February belong to the year before
  let year := date.year - (if date.month < 2 then 1 else 0)
  let mp := if date.month < 2 then date.month + 10 else date.month - 2
  year / 400 * 146097 + daysBefore (year % 400).toNat + daysBeforeMonth mp + date.day - 1

theorem monthOfYear_spec {doy : Nat} (h : doy ≤ 365) : monthOfYear doy ≤ 11 ∧
    daysBeforeMonth (monthOfYear doy) ≤ doy ∧ doy - daysBeforeMonth (monthOfYear doy) ≤ 30 := by
  unfold daysBeforeMonth monthOfYear
  omega

/-- A date is a date of the calendar. -/
theorem dateOf_spec (days : Int) :
    (dateOf days).month ≤ 11 ∧ 1 ≤ (dateOf days).day ∧ (dateOf days).day ≤ 31 := by
  have hdoe : (days % 146097).toNat < 146097 := by omega
  have hmonth := monthOfYear_spec (yearOfEra_spec hdoe).2.2
  unfold dateOf
  dsimp only
  refine ⟨?_, by omega, by omega⟩
  split <;> omega

theorem daysOf_fields {era : Int} {yoe mp day : Nat} (hyoe : yoe < 400) (hmp : mp ≤ 11) :
    daysOf ⟨era * 400 + yoe + (if (if mp < 10 then mp + 3 else mp - 9) ≤ 2 then 1 else 0),
        (if mp < 10 then mp + 3 else mp - 9) - 1, day⟩
      = era * 146097 + daysBefore yoe + daysBeforeMonth mp + day - 1 := by
  -- the year and the month that a date begins with
  have hyear (winter : Int) : (era * 400 + yoe + winter - winter) / 400 = era ∧
      ((era * 400 + yoe + winter - winter) % 400).toNat = yoe := by omega
  unfold daysOf
  dsimp only
  by_cases hlt : mp < 10
  · have hback : mp + 3 - 1 - 2 = mp := by omega
    rw [if_pos hlt, if_neg (by omega), if_neg (by omega), if_neg (by omega), (hyear 0).1,
      (hyear 0).2, hback]
  · have hback : mp - 9 - 1 + 10 = mp := by omega
    rw [if_neg hlt, if_pos (by omega), if_pos (by omega), if_pos (by omega), (hyear 1).1,
      (hyear 1).2, hback]

/-- No two days have the same date. -/
theorem daysOf_dateOf (days : Int) : daysOf (dateOf days) = days := by
  have hdoe : (days % 146097).toNat < 146097 := by omega
  obtain ⟨hyoe, hbefore, hdoy⟩ := yearOfEra_spec hdoe
  obtain ⟨hmp, hmonth, -⟩ := monthOfYear_spec hdoy
  refine (daysOf_fields hyoe hmp).trans ?_
  omega

end YFtp.Theory.Calendar
