import Logbook.Decimal.Power
import Logbook.Json.Cursor

/-! # Numbers of a document

    A number without fraction and exponent is an integer while it fits in
    64 bits.  Any other number is a double: the leading digits that fit in
    64 bits, scaled by a power of ten in one floating operation, or in several
    when the power itself is too small for a double.
-/

namespace Logbook.Json

/-- A number as a document gives it. -/
inductive Number where
  /-- A natural number below `2^64`. -/
  | natural (n : Nat)
  /-- A negative number not below `-2^63`. -/
  | negative (i : Int)
  | double (f : Float)

/-- Leading digits kept, and how many of the later ones were left out. -/
structure Kept where
  value : Nat
  omitted : Nat := 0
  full : Bool := false

namespace Kept

/-- Takes one more digit if the value still fits in 64 bits, and else leaves
    this digit and all later ones out. -/
def push (k : Kept) (d : Nat) : Kept :=
  if k.full || twoTo 64 ≤ k.value * 10 + d then { k with omitted := k.omitted + 1, full := true }
  else { k with value := k.value * 10 + d }

end Kept

/-- The value of a decimal digit. -/
def digitValue (c : Char) : Nat := c.toNat - '0'.toNat

/-- `significand · 10^exponent` as a double, or nothing when it is too large. -/
def scaledDouble : Nat → Float → Int → Option Float
  | 0, f, _ => some f
  | fuel + 1, f, e =>
    if e.natAbs ≤ 308 then
      let power := Float.ofScientific 1 false e.natAbs
      if 0 ≤ e then
        let g := f * power
        if g.isInf then none else some g
      else some (f / power)
    else if f == 0.0 then some f
    else if 0 ≤ e then none
    else scaledDouble fuel (f / Float.ofScientific 1 false 308) (e + 308)

namespace Reader

/-- Consumes the decimal digits that come next. -/
def digits : Reader (List Char) := do
  let ds := (← cursor).rest.takeWhile Char.isDigit
  modifyThe Cursor fun c => ds.foldl (fun c _ => c.next) c
  return ds

/-- The double with the given sign and parts. -/
def finishDouble (positive : Bool) (significand : Nat) (exponent : Int) : Reader Number := do
  match scaledDouble 16 significand.toUInt64.toFloat exponent with
  | none => fail .numberOutOfRange
  | some f => return .double (if positive then f else -f)

/-- Consumes exponent digits until the exponent no longer fits in 32 bits; the
    flag says that it still did. -/
def exponentDigits : Nat → Nat → Reader (Nat × Bool)
  | 0, e => return (e, true)
  | fuel + 1, e => do
    match ← peek with
    | some d =>
      if d.isDigit then
        skip
        if twoTo 31 ≤ e * 10 + digitValue d then return (e, false)
        else exponentDigits fuel (e * 10 + digitValue d)
      else return (e, true)
    | none => return (e, true)

/-- The rest of a number from its exponent mark on. -/
def exponentPart (positive : Bool) (significand : Nat) (start : Int) : Reader Number := do
  skip
  let sign ← peek
  if sign = some '+' || sign = some '-' then skip
  match ← peek with
  | none => fail .endInValue
  | some d =>
    if !d.isDigit then failAhead .badNumber
    else
      skip
      let (e, fits) ← exponentDigits (← cursor).rest.length (digitValue d)
      if !fits then
        if significand != 0 && sign != some '-' then fail .numberOutOfRange
        else
          let _ ← digits
          return .double (if positive then 0.0 else -0.0)
      else finishDouble positive significand (if sign = some '-' then start - e else start + e)

/-- The rest of a number from its point on; `omitted` digits before the point
    were left out. -/
def fractionPart (positive : Bool) (k : Kept) : Reader Number := do
  skip
  let ds ← digits
  if ds.isEmpty then
    if (← peek).isSome then failAhead .badNumber else failAhead .endInValue
  else
    let fraction := ds.foldl (fun k d => k.push (digitValue d)) { value := k.value : Kept }
    let exponent : Int := k.omitted - ((ds.length : Int) - fraction.omitted)
    match ← peek with
    | some 'e' | some 'E' => exponentPart positive fraction.value exponent
    | _ => finishDouble positive fraction.value exponent

/-- A number, its sign already consumed. -/
def number (positive : Bool) : Reader Number := do
  match ← peek with
  | none => fail .endInValue
  | some '0' =>
    skip
    if ((← peek).map Char.isDigit).getD false then failAhead .badNumber
    else tail { value := 0 }
  | some d =>
    if !d.isDigit then failAhead .badNumber
    else
      skip
      let ds ← digits
      tail (ds.foldl (fun k d => k.push (digitValue d)) { value := digitValue d : Kept })
where
  tail (k : Kept) : Reader Number := do
    match ← peek with
    | some '.' => fractionPart positive k
    | some 'e' | some 'E' => exponentPart positive k.value k.omitted
    | _ =>
      if k.full then finishDouble positive k.value k.omitted
      else if positive then return .natural k.value
      else if k.value == 0 || twoTo 63 < k.value then
        return .double (-k.value.toUInt64.toFloat)
      else return .negative (-k.value)

/-- A number, sign included, at a character that may start one. -/
def signedNumber (first : Char) : Reader Number := do
  if first = '-' then
    skip
    number false
  else number true

end Reader

end Logbook.Json
