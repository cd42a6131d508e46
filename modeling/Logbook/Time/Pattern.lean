import Logbook.Decimal.Power
import Logbook.Text.Blank
import Logbook.Time.Zone

/-! # Patterns of dates and times

    A pattern is a text in which a percent sign and a letter stand for a part
    of a clock reading.  Numbers have a padding of their own, which a sign
    between percent sign and letter replaces; names, and letters that stand for
    several parts, take no such sign.
-/

namespace Logbook.Time

/-- How a number is filled up. -/
inductive Padding where
  | none
  | zero
  | space
  deriving Repr, DecidableEq

/-- The numbers of a reading. -/
inductive NumberField where
  | year | century | yearOfCentury
  | isoYear | isoYearOfCentury | isoWeek
  | quarter | month | day | dayOfYear
  | weekFromSunday | weekFromMonday | weekdayFromSunday | weekdayFromMonday
  | hour | hour12 | minute | second | nanos | timestamp
  deriving Repr, DecidableEq

/-- The other parts of a reading. -/
inductive TextField where
  | weekday | weekdayFull | month | monthFull
  | halfLower | halfUpper
  /-- A point and as many digits as the part of a second needs, or nothing. -/
  | fraction
  /-- The given number of digits of the part of a second, after a point or not. -/
  | digits (count : Nat) (point : Bool)
  | zoneName
  /-- The offset with `colons` colons between hours, minutes and seconds; three
      colons stand for hours alone. -/
  | offset (colons : Nat)
  /-- An offset that can be read in any form and has no written form. -/
  | anyOffset
  | timestamp
  deriving Repr, DecidableEq

/-- One part of a pattern. -/
inductive Item where
  | char (c : Char)
  | number (field : NumberField) (padding : Padding)
  | text (field : TextField)
  deriving Repr, DecidableEq

namespace Pattern

/-! ## Reading a pattern -/

/-- A number that is filled up with zeros. -/
private def zeroed (f : NumberField) : Item := .number f .zero

/-- Hour, minute and second with colons between them. -/
private def clockItems : List Item :=
  [zeroed .hour, .char ':', zeroed .minute, .char ':', zeroed .second]

/-- Month, day and year of the century with strokes between them. -/
private def shortDateItems : List Item :=
  [zeroed .month, .char '/', zeroed .day, .char '/', zeroed .yearOfCentury]

/-- What a letter stands for. -/
def letterItems? : Char → Option (List Item)
  | 'A' => some [.text .weekdayFull]
  | 'B' => some [.text .monthFull]
  | 'C' => some [zeroed .century]
  | 'D' => some shortDateItems
  | 'F' => some [zeroed .year, .char '-', zeroed .month, .char '-', zeroed .day]
  | 'G' => some [zeroed .isoYear]
  | 'H' => some [zeroed .hour]
  | 'I' => some [zeroed .hour12]
  | 'M' => some [zeroed .minute]
  | 'P' => some [.text .halfLower]
  | 'R' => some [zeroed .hour, .char ':', zeroed .minute]
  | 'S' => some [zeroed .second]
  | 'T' => some clockItems
  | 'U' => some [zeroed .weekFromSunday]
  | 'V' => some [zeroed .isoWeek]
  | 'W' => some [zeroed .weekFromMonday]
  | 'X' => some clockItems
  | 'Y' => some [zeroed .year]
  | 'Z' => some [.text .zoneName]
  | 'a' => some [.text .weekday]
  | 'b' => some [.text .month]
  | 'c' => some ([.text .weekday, .char ' ', .text .month, .char ' ', .number .day .space, .char ' '] ++
      clockItems ++ [.char ' ', zeroed .year])
  | 'd' => some [zeroed .day]
  | 'e' => some [.number .day .space]
  | 'f' => some [zeroed .nanos]
  | 'g' => some [zeroed .isoYearOfCentury]
  | 'h' => some [.text .month]
  | 'j' => some [zeroed .dayOfYear]
  | 'k' => some [.number .hour .space]
  | 'l' => some [.number .hour12 .space]
  | 'm' => some [zeroed .month]
  | 'n' => some [.char '\n']
  | 'p' => some [.text .halfUpper]
  | 'q' => some [.number .quarter .none]
  | 'r' => some [zeroed .hour12, .char ':', zeroed .minute, .char ':', zeroed .second, .char ' ',
      .text .halfUpper]
  | 's' => some [.number .timestamp .none]
  | 't' => some [.char '\t']
  | 'u' => some [.number .weekdayFromMonday .none]
  | 'v' => some [.number .day .space, .char '-', .text .month, .char '-', zeroed .year]
  | 'w' => some [.number .weekdayFromSunday .none]
  | 'x' => some shortDateItems
  | 'y' => some [zeroed .yearOfCentury]
  | 'z' => some [.text (.offset 0)]
  | '+' => some [.text .timestamp]
  | '%' => some [.char '%']
  | _ => none

/-- The number of digits that a letter in a fraction asks for. -/
def fractionDigits? : Char → Option Nat
  | '3' => some 3
  | '6' => some 6
  | '9' => some 9
  | _ => none

/-- The padding that a sign asks for. -/
def padding? : Char → Option Padding
  | '-' => some .none
  | '0' => some .zero
  | '_' => some .space
  | _ => none

/-- What the characters after a percent sign stand for, and how many of them they
    are.  Nothing when they stand for nothing. -/
def directive? : List Char → Option (List Item × List Char)
  | ':' :: ':' :: ':' :: 'z' :: rest => some ([.text (.offset 3)], rest)
  | ':' :: ':' :: 'z' :: rest => some ([.text (.offset 2)], rest)
  | ':' :: 'z' :: rest => some ([.text (.offset 1)], rest)
  | '#' :: 'z' :: rest => some ([.text .anyOffset], rest)
  | '.' :: 'f' :: rest => some ([.text .fraction], rest)
  | '.' :: d :: 'f' :: rest => (fractionDigits? d).map fun n => ([.text (.digits n true)], rest)
  | d :: rest =>
    match fractionDigits? d, rest with
    | some n, 'f' :: rest => some ([.text (.digits n false)], rest)
    | some _, _ => none
    | none, _ =>
      match padding? d, rest with
      | some p, c :: rest =>
        match letterItems? c with
        | some [.number f _] => some ([.number f p], rest)
        | _ => none
      | some _, [] => none
      | none, _ => (letterItems? d).map fun items => (items, rest)
  | [] => none

/-- The items of a pattern; nothing when it is not one.  `fuel` bounds the number
    of characters. -/
def itemsWithin? : Nat → List Char → Option (List Item)
  | _, [] => some []
  | 0, _ => none
  | fuel + 1, '%' :: rest =>
    match directive? rest with
    | some (items, rest) => (itemsWithin? fuel rest).map (items ++ ·)
    | none => none
  | fuel + 1, c :: rest => (itemsWithin? fuel rest).map (.char c :: ·)

/-- The items of a pattern; nothing when it is not one. -/
def items? (pattern : String) : Option (List Item) :=
  itemsWithin? pattern.toList.length pattern.toList

/-! ## Writing a reading -/

/-- A number filled up to a width, its sign counting. -/
def filled (p : Padding) (width : Nat) (sign : List Char) (n : Nat) : List Char :=
  let ds := Nat.toDigits 10 n
  let gap := width - (sign.length + ds.length)
  match p with
  | .none => sign ++ ds
  | .zero => sign ++ List.replicate gap '0' ++ ds
  | .space => List.replicate gap ' ' ++ sign ++ ds

/-- A number below one hundred in two digits.  A number up to 255 is written as
    its tens, one character from `0` on, and its ones. -/
def twoDigits (p : Padding) (n : Int) : List Char :=
  let n := (n % 256).toNat
  let ones := Nat.digitChar (n % 10)
  match n / 10, p with
  | 0, .none => [ones]
  | 0, .space => [' ', ones]
  | tens, _ => [Char.ofNat ('0'.toNat + tens), ones]

/-- The sign that a number needs. -/
def minus (n : Int) : List Char := if n < 0 then ['-'] else []

/-- A year in four digits; outside four digits it always has a sign. -/
def yearText (p : Padding) (y : Int) : List Char :=
  if 0 ≤ y ∧ y < 10000 then filled p 4 [] y.natAbs
  else filled p 5 [if y < 0 then '-' else '+'] y.natAbs

/-- The names of the days, Monday first. -/
def weekdayNames : List String :=
  ["Monday", "Tuesday", "Wednesday", "Thursday", "Friday", "Saturday", "Sunday"]

/-- The names of the months. -/
def monthNames : List String :=
  ["January", "February", "March", "April", "May", "June", "July", "August", "September",
    "October", "November", "December"]

end Pattern

namespace Reading

open Pattern

/-- The date that a clock shows. -/
def date (r : Reading) : Date := Date.ofDayNumber r.dayNumber

/-- The hour, from 0 to 23. -/
def hour (r : Reading) : Int := r.secondOfDay / 3600
/-- The minute of the hour. -/
def minute (r : Reading) : Int := r.secondOfDay / 60 % 60
/-- The second of the minute. -/
def second (r : Reading) : Int := r.secondOfDay % 60

/-- The hour on a clock face. -/
def hour12 (r : Reading) : Int := (r.hour + 11) % 12 + 1

/-- The number of the week when weeks start on a day of the week and the days
    before the first such day of the year make week zero. -/
def weekFrom (r : Reading) (start : Int) : Int :=
  (dayOfYear r.dayNumber - (weekday r.dayNumber - start) % 7 + 6) / 7

/-- The seconds since the start of 1970 in UTC. -/
def timestamp (r : Reading) : Int := r.dayNumber * daySeconds + r.secondOfDay - r.offset

/-- A number of a reading. -/
def numberText (r : Reading) (p : Padding) : NumberField → List Char
  | .year => yearText p r.date.year
  | .century => twoDigits p (r.date.year / 100)
  | .yearOfCentury => twoDigits p (r.date.year % 100)
  | .isoYear => yearText p (isoWeek r.dayNumber).1
  | .isoYearOfCentury => twoDigits p ((isoWeek r.dayNumber).1 % 100)
  | .isoWeek => twoDigits p (isoWeek r.dayNumber).2
  | .quarter => Nat.toDigits 10 ((r.date.month - 1) / 3 + 1).toNat
  | .month => twoDigits p r.date.month
  | .day => twoDigits p r.date.day
  | .dayOfYear => filled p 3 [] (dayOfYear r.dayNumber).toNat
  | .weekFromSunday => twoDigits p (r.weekFrom 6)
  | .weekFromMonday => twoDigits p (r.weekFrom 0)
  | .weekdayFromSunday => Nat.toDigits 10 ((weekday r.dayNumber + 1) % 7).toNat
  | .weekdayFromMonday => Nat.toDigits 10 (weekday r.dayNumber + 1).toNat
  | .hour => twoDigits p r.hour
  | .hour12 => twoDigits p r.hour12
  | .minute => twoDigits p r.minute
  | .second => twoDigits p r.second
  | .nanos => filled p 9 [] r.nanos
  | .timestamp => filled p 9 (minus r.timestamp) r.timestamp.natAbs

/-- The first digits of the part of a second. -/
def fractionText (r : Reading) (count : Nat) : List Char :=
  filled .zero count [] (r.nanos / tenTo (9 - count))

/-- The part of a second after a point, in groups of three digits as needed. -/
def fractionGroups (r : Reading) : List Char :=
  if r.nanos = 0 then []
  else if r.nanos % 1000000 = 0 then '.' :: r.fractionText 3
  else if r.nanos % 1000 = 0 then '.' :: r.fractionText 6
  else '.' :: r.fractionText 9

/-- The offset of a reading. -/
def offsetText (r : Reading) (colons : Nat) : List Char :=
  let n := r.offset.natAbs
  let hours := filled .zero 2 [] (n / 3600)
  let minutes := filled .zero 2 [] (n / 60 % 60)
  let seconds := filled .zero 2 [] (n % 60)
  (if r.offset < 0 then '-' else '+') ::
    match colons with
    | 0 => hours ++ minutes
    | 1 => hours ++ ':' :: minutes
    | 2 => hours ++ ':' :: minutes ++ ':' :: seconds
    | _ => hours

/-- A name from a list, by its place. -/
private def nameAt (names : List String) (i : Int) : String := names.getD i.toNat ""

/-- A part of a reading that is not a number. -/
def fieldText? (r : Reading) : TextField → Option (List Char)
  | .weekday => some ((nameAt weekdayNames (weekday r.dayNumber)).toList.take 3)
  | .weekdayFull => some (nameAt weekdayNames (weekday r.dayNumber)).toList
  | .month => some ((nameAt monthNames (r.date.month - 1)).toList.take 3)
  | .monthFull => some (nameAt monthNames (r.date.month - 1)).toList
  | .halfLower => some (if r.hour < 12 then ['a', 'm'] else ['p', 'm'])
  | .halfUpper => some (if r.hour < 12 then ['A', 'M'] else ['P', 'M'])
  | .fraction => some r.fractionGroups
  | .digits count point => some ((if point then ['.'] else []) ++ r.fractionText count)
  | .zoneName =>
    match r.zone with
    | .utc => some ['U', 'T', 'C']
    | .eastern => some (r.offsetText 1)
  | .offset colons => some (r.offsetText colons)
  | .anyOffset => none
  | .timestamp =>
    some (yearText .zero r.date.year ++ '-' :: twoDigits .zero r.date.month ++
      '-' :: twoDigits .zero r.date.day ++ 'T' :: twoDigits .zero r.hour ++
      ':' :: twoDigits .zero r.minute ++ ':' :: twoDigits .zero r.second ++
      r.fractionGroups ++ r.offsetText 1)

/-- The text of one item. -/
def itemText? (r : Reading) : Item → Option (List Char)
  | .char c => some [c]
  | .number field padding => some (r.numberText padding field)
  | .text field => r.fieldText? field

/-- A reading written by items; nothing if one of them has no written form. -/
def render? (r : Reading) (items : List Item) : Option String :=
  (items.mapM r.itemText?).map fun texts => String.ofList texts.flatten

end Reading

end Logbook.Time
