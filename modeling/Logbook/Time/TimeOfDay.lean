import Logbook.Decimal.Fixed
import Logbook.Text.Blank

/-! # Times of day

    A time of day is read from hours and minutes, and optionally seconds and a
    part of a second.  The sixtieth second of a minute is a leap second: it is
    kept as the second before it with a second more in its fraction.
-/

namespace Logbook.Time

/-- A time of day. -/
structure TimeOfDay where
  /-- Whole seconds since midnight. -/
  seconds : Nat
  /-- Billionths of a second, at least a whole second during a leap second. -/
  nanos : Nat := 0
  deriving Repr, DecidableEq

namespace TimeOfDay

/-- Why a text is no time of day. -/
inductive Fault where
  | outOfRange
  | invalid
  | tooShort
  | tooLong
  deriving Repr, DecidableEq

/-- The wording of a fault. -/
def Fault.message : Fault → String
  | outOfRange => "input is out of range"
  | invalid => "input contains invalid characters"
  | tooShort => "premature end of input"
  | tooLong => "trailing input"

/-- The value of digits. -/
private def value (ds : List Char) : Nat :=
  ds.foldl (fun n d => n * 10 + (d.toNat - '0'.toNat)) 0

/-- A number of one digit up to `most` digits, and what follows it. -/
def readNumber (most : Nat) (s : List Char) : Except Fault (Nat × List Char) :=
  let ds := (s.takeWhile Char.isDigit).take most
  match s with
  | [] => .error .tooShort
  | _ => if ds.isEmpty then .error .invalid else .ok (value ds, s.drop ds.length)

/-- A number of one or two digits up to a greatest value, white space in front of
    it ignored. -/
def readPart (greatest : Nat) (s : List Char) : Except Fault (Nat × List Char) := do
  let (n, rest) ← readNumber 2 (s.dropWhile Text.isBlank)
  if n ≤ greatest then return (n, rest) else throw .outOfRange

/-- A colon, white space in front of it ignored. -/
def readColon (s : List Char) : Except Fault (List Char) :=
  match s.dropWhile Text.isBlank with
  | [] => .error .tooShort
  | ':' :: rest => .ok rest
  | _ => .error .invalid

/-- A part of a second after a point, if there is a point: nine digits count. -/
def readFraction (s : List Char) : Except Fault (Nat × List Char) :=
  match s with
  | '.' :: rest => do
    let ds := (rest.takeWhile Char.isDigit).take 9
    let (n, _) ← readNumber 9 rest
    return (n * tenTo (9 - ds.length), rest.dropWhile Char.isDigit)
  | _ => .ok (0, s)

/-- Colon, seconds and a part of a second. -/
def readSeconds (s : List Char) : Except Fault (Nat × Nat × List Char) := do
  let (second, s) ← readPart 60 (← readColon s)
  let (nanos, s) ← readFraction s
  return (second, nanos, s)

/-- Reads a time of day.  If the seconds cannot be read, the text ends before
    them. -/
def parse (text : String) : Except Fault TimeOfDay := do
  let (hour, s) ← readPart 23 text.toList
  let (minute, s) ← readPart 59 (← readColon s)
  let (second, nanos, s) :=
    match readSeconds s with
    | .ok parts => parts
    | .error _ => (0, 0, s)
  if !(s.dropWhile Text.isBlank).isEmpty then throw .tooLong
  let start := hour * 3600 + minute * 60
  if second = 60 then return ⟨start + 59, 1000000000 + nanos⟩
  else return ⟨start + second, nanos⟩

/-- Hours, minutes and seconds, and as many digits of the fraction as are
    needed, in groups of three. -/
def text (t : TimeOfDay) : String :=
  let leap := t.nanos / 1000000000
  let nanos := t.nanos % 1000000000
  let two (n : Nat) : List Char := Decimal.zeroFilled 2 n
  let fraction :=
    if nanos = 0 then []
    else if nanos % 1000000 = 0 then '.' :: Decimal.zeroFilled 3 (nanos / 1000000)
    else if nanos % 1000 = 0 then '.' :: Decimal.zeroFilled 6 (nanos / 1000)
    else '.' :: Decimal.zeroFilled 9 nanos
  String.ofList
    (two (t.seconds / 3600) ++ ':' :: two (t.seconds / 60 % 60) ++
      ':' :: two (t.seconds % 60 + leap) ++ fraction)

end TimeOfDay

end Logbook.Time
