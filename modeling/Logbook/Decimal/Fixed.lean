import Logbook.Decimal.Binary

/-! # Fixed places

    A magnitude rounded to a given number of decimal places or of significant
    digits.  The rounding is exact; half a unit goes to the even neighbour.
-/

namespace Logbook.Decimal

/-- The natural number nearest to `num / den`; half a unit goes to the even one. -/
def roundDiv (num den : Nat) : Nat :=
  let q := num / den
  let r := num % den
  if 2 * r < den then q
  else if den < 2 * r then q + 1
  else q + q % 2

/-- The digits of a number, filled with zeros in front up to a least count. -/
def zeroFilled (count n : Nat) : List Char :=
  let ds := Nat.toDigits 10 n
  List.replicate (count - ds.length) '0' ++ ds

/-- Positional text with the given number of places; no point when there are none. -/
def fixedText (v : Magnitude) (places : Nat) : List Char :=
  let (num, den) := v.fraction
  let ds := zeroFilled (places + 1) (roundDiv (num * tenTo places) den)
  let whole := ds.take (ds.length - places)
  if places == 0 then whole else whole ++ '.' :: ds.drop (ds.length - places)

/-- A magnitude as one digit, `places` further ones, and the exponent of ten. -/
def significant (v : Magnitude) (places : Nat) : Nat × Int :=
  if v.mantissa == 0 then (0, 0)
  else
    let (num, den) := v.fraction
    let e := leadingExponent num den
    let (num, den) := scaled num den ((places : Int) - e)
    let c := roundDiv num den
    if c < tenTo (places + 1) then (c, e) else (tenTo places, e + 1)

/-- Text with one digit before the point, `places` digits after it, the mark `e`,
    the sign of the exponent and at least two digits of it. -/
def exponentText (v : Magnitude) (places : Nat) : List Char :=
  let (c, e) := significant v places
  let ds := zeroFilled (places + 1) c
  let mantissa := if places == 0 then ds else ds.take 1 ++ '.' :: ds.drop 1
  mantissa ++ 'e' :: (if e < 0 then '-' else '+') :: zeroFilled 2 e.natAbs

end Logbook.Decimal
