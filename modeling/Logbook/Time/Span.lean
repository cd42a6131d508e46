import Logbook.Decimal.Fixed

/-! # Spans of time

    A span is a count of nanoseconds.  A factor is applied to it in seconds and
    in machine numbers; the product is rounded to whole nanoseconds, half of one
    to the even count.
-/

namespace Logbook.Time

/-- A length of time in nanoseconds. -/
abbrev Span := Nat

namespace Span

open Decimal

/-- Nanoseconds of a second. -/
def second : Span := 1000000000

/-- A span in seconds, as a machine number. -/
def toSeconds (d : Span) : Float :=
  (d / second).toFloat + (d % second).toFloat / second.toFloat

/-- The seconds that a span can count. -/
def secondsLimit : Nat := twoTo 64

/-- Why a number of seconds is no span. -/
inductive Fault where
  | negative
  | tooBig
  deriving Repr, DecidableEq

/-- The wording of a fault. -/
def Fault.message : Fault → String
  | negative => "cannot convert float seconds to Duration: value is negative"
  | tooBig => "cannot convert float seconds to Duration: value is either too big or NaN"

/-- The span of a number of seconds. -/
def ofSeconds (x : Double) : Except Fault Span :=
  match Binary.ofDouble x with
  | .nan => .error .tooBig
  | .infinite negative => .error (if negative then .negative else .tooBig)
  | .finite negative v =>
    if v.mantissa = 0 then .ok 0
    else if negative then .error .negative
    else
      let (num, den) := v.fraction
      if secondsLimit ≤ num / den then .error .tooBig else .ok (roundDiv (num * second) den)

/-- A span times a factor. -/
def scaled (factor : Double) (d : Span) : Except Fault Span :=
  ofSeconds (Double.ofFloat (factor.toFloat * d.toSeconds))

/-- A whole part with the digits behind its point, without zeros at the end. -/
def decimalText (whole fraction places : Nat) : String :=
  let ds := ((zeroFilled places fraction).reverse.dropWhile (· = '0')).reverse
  if fraction = 0 then toString whole else toString whole ++ String.ofList ('.' :: ds)

/-- A span in the greatest unit that fits into it. -/
def inspect (d : Span) : String :=
  if second ≤ d then decimalText (d / second) (d % second) 9 ++ "s"
  else if 1000000 ≤ d then decimalText (d / 1000000) (d % 1000000) 6 ++ "ms"
  else if 1000 ≤ d then decimalText (d / 1000) (d % 1000) 3 ++ "µs"
  else decimalText d 0 0 ++ "ns"

end Span

end Logbook.Time
