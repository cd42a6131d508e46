import Logbook.Decimal.Shortest

/-! # Shortest text of a double

    Two ways to write the shortest digits of a double: positionally whatever
    the size, and with an exponent outside a middle range.
-/

namespace Logbook.Decimal

/-- Digits with the point `point` places after the first digit's left edge;
    zeros fill the gap on either side. -/
def placePoint (ds : List Char) (point : Int) : List Char :=
  if point ≤ 0 then '0' :: '.' :: List.replicate (-point).toNat '0' ++ ds
  else if (ds.length : Int) ≤ point then
    ds ++ List.replicate (point - ds.length).toNat '0'
  else ds.take point.toNat ++ '.' :: ds.drop point.toNat

/-- The shortest digits, always positional, without a point for whole numbers. -/
def plainText (x : Double) : String :=
  match Binary.ofDouble x with
  | .nan => "NaN"
  | .infinite negative => if negative then "-inf" else "inf"
  | .finite negative v =>
    let body :=
      if v.mantissa == 0 then ['0']
      else
        let d := shortest .greater v
        let ds := Nat.toDigits 10 d.coefficient
        placePoint ds (ds.length + d.exponent)
    String.ofList (if negative then '-' :: body else body)

/-- How the shortest digits of a double are laid out. -/
structure Layout where
  /-- The places of the point, counted from the first digit's left edge, between
      which the digits are written positionally. -/
  least : Int
  greatest : Int
  /-- An exponent that is not negative gets a plus sign. -/
  plus : Bool
  /-- Which of two shortest decimals is taken when they are equally near. -/
  tie : Tie

/-- Document numbers are positional from `0.00001` up to sixteen digits before the
    point, and their exponents always have a sign.  Their last digit is even when two would do. -/
def documentLayout : Layout := ⟨-4, 16, true, .even⟩

/-- Developer texts are positional from `0.0001` up to sixteen digits before the
    point. -/
def inspectLayout : Layout := ⟨-3, 16, false, .greater⟩

/-- The shortest digits of a magnitude: a whole number has one zero after the
    point, and outside the layout's range there is one digit before the point and
    an exponent. -/
def laidOut (l : Layout) (negative : Bool) (v : Magnitude) : String :=
  let body :=
    if v.mantissa == 0 then ['0', '.', '0']
    else
      let d := shortest l.tie v
      let ds := Nat.toDigits 10 d.coefficient
      let point := ds.length + d.exponent
      if l.least ≤ point && point ≤ l.greatest then
        let text := placePoint ds point
        if (ds.length : Int) ≤ point then text ++ ['.', '0'] else text
      else
        let e := point - 1
        let mantissa := if ds.length == 1 then ds else ds.take 1 ++ '.' :: ds.drop 1
        let sign := if e < 0 then ['-'] else if l.plus then ['+'] else []
        mantissa ++ 'e' :: sign ++ Nat.toDigits 10 e.natAbs
  String.ofList (if negative then '-' :: body else body)

/-- A double as a document number; nothing when it has no finite value. -/
def documentText? (x : Double) : Option String :=
  match Binary.ofDouble x with
  | .finite negative v => some (laidOut documentLayout negative v)
  | _ => none

/-- A double for a developer. -/
def inspectText (x : Double) : String :=
  match Binary.ofDouble x with
  | .nan => "NaN"
  | .infinite negative => if negative then "-inf" else "inf"
  | .finite negative v => laidOut inspectLayout negative v

end Logbook.Decimal
