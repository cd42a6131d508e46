import Logbook.Time.Date

/-! # Wall clocks

    An instant is a number of seconds since the start of 1970 in UTC and a part
    of a second.  A wall clock shows it with an offset.  The local clock is five
    hours behind UTC, and four hours from the second Sunday of March, two in the
    morning, to the first Sunday of November, two in the morning; the rule holds
    for every year.
-/

namespace Logbook.Time

/-- Seconds of a day. -/
def daySeconds : Int := 86400

/-- A moment in time. -/
structure Instant where
  seconds : Int
  nanos : Nat := 0
  deriving Repr, DecidableEq, Inhabited

/-- Which clock is read. -/
inductive Zone where
  | utc
  | eastern
  deriving Repr, DecidableEq, Inhabited

/-- The instant at which the local clock goes forward in a year. -/
def summerStart (year : Int) : Int :=
  (weekdayOnOrAfter (Date.dayNumber ⟨year, 3, 8⟩) 6) * daySeconds + 7 * 3600

/-- The instant at which the local clock goes back in a year. -/
def summerEnd (year : Int) : Int :=
  (weekdayOnOrAfter (Date.dayNumber ⟨year, 11, 1⟩) 6) * daySeconds + 6 * 3600

/-- The clock is an hour ahead of its standard time. -/
def isSummer (seconds : Int) : Bool :=
  let year := (Date.ofDayNumber (seconds / daySeconds)).year
  summerStart year ≤ seconds && seconds < summerEnd year

/-- What a clock adds to UTC at an instant. -/
def Zone.offset : Zone → Int → Int
  | .utc, _ => 0
  | .eastern, seconds => if isSummer seconds then -4 * 3600 else -5 * 3600

/-- What a clock shows: a day, the seconds of that day, the part of a second, and
    the offset that was added. -/
structure Reading where
  dayNumber : Int
  secondOfDay : Int
  nanos : Nat := 0
  offset : Int := 0
  zone : Zone := .utc
  deriving Repr, DecidableEq

/-- What a clock shows at an instant. -/
def Zone.read (z : Zone) (t : Instant) : Reading :=
  let offset := z.offset t.seconds
  let wall := t.seconds + offset
  { dayNumber := wall / daySeconds, secondOfDay := wall % daySeconds, nanos := t.nanos,
    offset, zone := z }

/-- The seconds of the calendar that have dates: years `-262143` to `262142`. -/
def inCalendar (seconds : Int) : Bool :=
  -8334601228800 ≤ seconds && seconds ≤ 8210266876799

end Logbook.Time
