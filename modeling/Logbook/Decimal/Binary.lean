import Logbook.Decimal.Power

/-! # Binary floating point, taken apart

    A double is not a number, infinite, or a sign with a magnitude `m · 2^q`
    for natural `m` and integral `q`.  All number text of this library is made
    from that exact magnitude by integer arithmetic; no floating operation
    takes part in it.
-/

namespace Logbook

/-- A double as its 64 bits, the payload of a value that is not a number
    included. -/
structure Double where
  bits : UInt64
  deriving Repr, DecidableEq, Inhabited

namespace Double

/-- The bits of a machine number. -/
def ofFloat (f : Float) : Double := ⟨f.toBits⟩

/-- The machine number with these bits. -/
def toFloat (x : Double) : Float := Float.ofBits x.bits

/-- The sign bit is set. -/
def isSigned (x : Double) : Bool := x.bits.toNat / twoTo 63 == 1

/-- The bits as sixteen hexadecimal digits; every value that is not a number has
    the same ones. -/
def hex (x : Double) : String :=
  let digits := Nat.toDigits 16 (if x.toFloat.isNaN then 0x7ff8000000000000 else x.bits.toNat)
  String.ofList (List.replicate (16 - digits.length) '0' ++ digits)

/-- The number that hexadecimal digits stand for. -/
def hexValue (digits : String) : Nat :=
  digits.toList.foldl
    (fun n c => n * 16 + (if c.isDigit then c.toNat - 48 else c.toLower.toNat - 87)) 0

/-- The double whose bits are given by hexadecimal digits. -/
def ofHex (digits : String) : Double := ⟨(hexValue digits).toUInt64⟩

end Double

namespace Decimal

/-- The exact value `mantissa · 2^exponent`. -/
structure Magnitude where
  mantissa : Nat
  exponent : Int
  deriving Repr, DecidableEq

/-- What a double stands for. -/
inductive Binary where
  | nan
  | infinite (negative : Bool)
  | finite (negative : Bool) (magnitude : Magnitude)
  deriving Repr, DecidableEq

/-- Reads the 64 bits of the interchange format: sign, eleven exponent bits,
    fifty-two fraction bits. -/
def Binary.ofDouble (x : Double) : Binary :=
  let n := x.bits.toNat
  let negative := n / twoTo 63 == 1
  let e : Nat := n / twoTo 52 % twoTo 11
  let frac : Nat := n % twoTo 52
  if e == 2047 then
    if frac == 0 then .infinite negative else .nan
  else if e == 0 then .finite negative ⟨frac, -1074⟩
  else .finite negative ⟨twoTo 52 + frac, (e : Int) - 1075⟩

namespace Magnitude

/-- The magnitude as a fraction of two natural numbers, the lower one positive. -/
def fraction (v : Magnitude) : Nat × Nat :=
  if 0 ≤ v.exponent then (v.mantissa * twoTo v.exponent.toNat, 1)
  else (v.mantissa, twoTo (-v.exponent).toNat)

/-- The denominator of a magnitude is not zero. -/
theorem fraction_den_pos (v : Magnitude) : 0 < v.fraction.2 := by
  unfold fraction
  split
  · exact Nat.one_pos
  · exact twoTo_pos _

end Magnitude

/-- For a fraction `num / den ≥ 1`: the number of digits before the point, less
    one.  Below one: minus the number of places to the first digit that counts.
    In both cases the greatest `e` with `10^e ≤ num / den`. -/
def leadingExponent (num den : Nat) : Int :=
  if num == 0 then 0
  else if den ≤ num then ((Nat.toDigits 10 (num / den)).length : Int) - 1
  else -((Nat.toDigits 10 ((den - 1) / num)).length : Int)

/-- The fraction times `10^k`. -/
def scaled (num den : Nat) (k : Int) : Nat × Nat :=
  if 0 ≤ k then (num * tenTo k.toNat, den) else (num, den * tenTo (-k).toNat)

/-- The whole part of a magnitude. -/
def Magnitude.whole (v : Magnitude) : Nat := v.fraction.1 / v.fraction.2

end Decimal

namespace Double

open Decimal in
/-- A double cut towards zero and kept within 64 bits with sign; what is not a
    number counts as zero. -/
def toInt64 (x : Double) : Int64 :=
  match Binary.ofDouble x with
  | .nan => 0
  | .infinite negative => if negative then Int64.minValue else Int64.maxValue
  | .finite negative v =>
    if negative then
      if twoTo 63 ≤ v.whole then Int64.minValue else Int64.ofInt (-v.whole)
    else if twoTo 63 ≤ v.whole then Int64.maxValue
    else Int64.ofNat v.whole

open Decimal in
/-- Plus or minus zero. -/
def isZero (x : Double) : Bool :=
  match Binary.ofDouble x with
  | .finite _ v => v.mantissa == 0
  | _ => false

end Double

end Logbook
