import Logbook.Error
import Logbook.Time.TimeOfDay
import Logbook.Time.Zone

/-! # Rollover schedules

    A schedule says at which instants a file is to be rolled over: every so many
    seconds, minutes, hours or days, or at a time of day every so many days or
    weeks.  The next instant is computed from the current one.
-/

namespace Logbook.Rotation

open Time

/-- The unit of a schedule.  Days of the week are counted from Monday. -/
inductive Period where
  | seconds
  | minutes
  | hours
  | days
  | midnight
  | weekday (day : Fin 7)
  deriving Repr, DecidableEq

namespace Period

/-- The length of a unit in seconds. -/
def length : Period → Int
  | seconds => 1
  | minutes => 60
  | hours => 3600
  | days | midnight => daySeconds
  | weekday _ => 7 * daySeconds

/-- For a developer. -/
def inspect : Period → String
  | seconds => "Seconds"
  | minutes => "Minutes"
  | hours => "Hours"
  | days => "Days"
  | midnight => "Midnight"
  | weekday day => s!"Weekday({day.val})"

/-- An error of a schedule. -/
def invalid (message : String) : LogError := .config "timed rotation" message

/-- The unit with a name, in any letter case. -/
def parse (s : String) : Except LogError Period :=
  match s.toList.map Char.toUpper with
  | ['S'] => .ok seconds
  | ['M'] => .ok minutes
  | ['H'] => .ok hours
  | ['D'] => .ok days
  | ['M', 'I', 'D', 'N', 'I', 'G', 'H', 'T'] => .ok midnight
  | ['W', d] =>
    if '0' ≤ d ∧ d ≤ '6' then .ok (weekday (Fin.ofNat 7 (d.toNat - '0'.toNat)))
    else if d.utf8Size = 1 then .error (invalid s!"Invalid day specified for weekly rollover: {s}")
    else .error (invalid s!"Invalid rollover interval specified: {s}")
  | _ => .error (invalid s!"Invalid rollover interval specified: {s}")

end Period

/-- When a file is to be rolled over. -/
structure Schedule where
  unit : Period
  /-- The number of units between two rollovers. -/
  count : Nat
  zone : Zone := .eastern
  /-- The time of day of a daily or weekly rollover; midnight without one. -/
  atTime? : Option TimeOfDay := none
  deriving Repr, DecidableEq

namespace Schedule

/-- A schedule needs at least one unit between two rollovers. -/
def make (unit : Period) (count : Nat) : Except LogError Schedule :=
  if count = 0 then .error (Period.invalid "interval must be at least 1")
  else .ok { unit, count }

/-- The seconds between two rollovers. -/
def interval (s : Schedule) : Int := s.unit.length * s.count

/-- What a clock shows at an instant; outside the calendar, at the start of
    1970. -/
def wallClock (zone : Zone) (seconds : Int) : Reading :=
  zone.read ⟨if inCalendar seconds then seconds else 0, 0⟩

/-- What the clock of a schedule adds to UTC at an instant; nothing outside the
    calendar. -/
def offsetAt (s : Schedule) (seconds : Int) : Int :=
  if inCalendar seconds then s.zone.offset seconds else 0

/-- The second of the day at which a daily or weekly rollover is due. -/
def dueSecond (s : Schedule) : Int :=
  match s.atTime? with
  | some t => t.seconds
  | none => daySeconds

/-- An instant moved so that the clock shows the same time as if its offset had
    not changed since `current`. -/
def keepWallClock (s : Schedule) (current result : Int) : Int :=
  match s.zone with
  | .utc => result
  | .eastern => result + (s.offsetAt current - s.offsetAt result)

/-- The instant of the first due second after the current one, and the day of the
    week on which the period that it ends began. -/
def nextDue (s : Schedule) (current : Int) : Int × Int :=
  let now := wallClock s.zone current
  let day := weekday now.dayNumber
  let remaining := s.dueSecond - now.secondOfDay
  if remaining ≤ 0 then (current + remaining + daySeconds, (day + 1) % 7)
  else (current + remaining, day)

/-- The next instant of a rollover. -/
def next (s : Schedule) (current : Int) : Int :=
  match s.unit with
  | .midnight =>
    let (due, _) := s.nextDue current
    s.keepWallClock current (due + (s.interval - daySeconds))
  | .weekday target =>
    let (due, day) := s.nextDue current
    let wait : Int :=
      if day < target.val then target.val - day
      else if day = target.val then 0
      else 6 - day + target.val + 1
    s.keepWallClock current (due + wait * daySeconds + (s.interval - 7 * daySeconds))
  | _ => current + s.interval

end Schedule

end Logbook.Rotation
