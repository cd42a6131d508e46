/-! # Calendar dates

    Days are numbered from the first of January 1970.  The year is counted from
    March, so that the leap day comes last: four hundred years make an era of
    146097 days, and within an era years and months follow from the day by
    division alone.
-/

namespace Logbook.Time

/-- A date of the Gregorian calendar, also before its introduction. -/
structure Date where
  year : Int
  month : Int
  day : Int
  deriving Repr, DecidableEq

namespace Date

/-- The number of days before the first of March of the given year of an era. -/
def daysBeforeYear (yearOfEra : Int) : Int :=
  365 * yearOfEra + yearOfEra / 4 - yearOfEra / 100

/-- The number of days before a month, counted from March. -/
def daysBeforeMonth (monthFromMarch : Int) : Int := (153 * monthFromMarch + 2) / 5

/-- The day number of a date. -/
def dayNumber (d : Date) : Int :=
  let y := if d.month ≤ 2 then d.year - 1 else d.year
  let m := if d.month ≤ 2 then d.month + 9 else d.month - 3
  let era := y / 400
  era * 146097 + daysBeforeYear (y - era * 400) + daysBeforeMonth m + (d.day - 1) - 719468

/-- The date of a day number. -/
def ofDayNumber (n : Int) : Date :=
  let z := n + 719468
  let era := z / 146097
  let doe := z - era * 146097
  let yoe := (doe - doe / 1460 + doe / 36524 - doe / 146096) / 365
  let doy := doe - daysBeforeYear yoe
  let m := (5 * doy + 2) / 153
  let y := yoe + era * 400
  { year := if m < 10 then y else y + 1
    month := if m < 10 then m + 3 else m - 9
    day := doy - daysBeforeMonth m + 1 }

end Date

/-- The day of the week of a day number, Monday being zero. -/
def weekday (n : Int) : Int := (n + 3) % 7

/-- The number of a day within its year, from one. -/
def dayOfYear (n : Int) : Int :=
  n - Date.dayNumber ⟨(Date.ofDayNumber n).year, 1, 1⟩ + 1

/-- The first day not before `n` that is the given day of the week. -/
def weekdayOnOrAfter (n day : Int) : Int := n + (day - weekday n) % 7

/-- The year and the week of a day by the rule that a week belongs to the year
    of its Thursday. -/
def isoWeek (n : Int) : Int × Int :=
  let thursday := n - weekday n + 3
  ((Date.ofDayNumber thursday).year, (dayOfYear thursday - 1) / 7 + 1)

end Logbook.Time
