import Logbook.Decimal.Binary

/-! # Shortest digits

    The decimal with the fewest digits that reads back as a given double, and
    among those the one nearest to it.

    The reals that read back as `m · 2^q` form an interval around it; its ends
    belong to it exactly when `m` is even.  For each digit count the two
    neighbours of the value on that decimal grid are tested in exact integer
    arithmetic, and the first grid with a hit wins.
-/

namespace Logbook.Decimal

/-- A positive decimal `coefficient · 10^exponent`. -/
structure Digits where
  coefficient : Nat
  exponent : Int
  deriving Repr, DecidableEq

/-- Which of two decimals is taken when they are equally near. -/
inductive Tie where
  /-- The greater one. -/
  | greater
  /-- The one with an even last digit. -/
  | even
  deriving Repr, DecidableEq

/-- The interval of reals that read back as a magnitude, its members given as
    `4 · mantissa`-scaled multiples of `2^(exponent - 2)`: lower end, value,
    upper end, and whether the ends belong to it.  Below the least mantissa of
    a binade the neighbour is half as far away. -/
def readingInterval (v : Magnitude) : Nat × Nat × Nat × Bool :=
  let below := if v.mantissa == twoTo 52 && -1074 < v.exponent then 1 else 2
  (4 * v.mantissa - below, 4 * v.mantissa, 4 * v.mantissa + 2, v.mantissa % 2 == 0)

/-- The upper one of two neighbours on a grid is to be taken, given the distances
    of the value from the lower and from the upper one. -/
def Tie.takesUpper (tie : Tie) (lower fromLower fromUpper : Nat) : Bool :=
  if fromUpper = fromLower then
    match tie with
    | .greater => true
    | .even => lower % 2 == 1
  else fromUpper < fromLower

/-- The decimal with `n` digits at most that reads back as the magnitude and is
    nearest to it. -/
def withDigits? (tie : Tie) (v : Magnitude) (n : Nat) : Option Digits :=
  let (lo, mid, hi, ends) := readingInterval v
  let quarter : Magnitude := ⟨1, v.exponent - 2⟩
  let (unit, den) := quarter.fraction
  let step : Int := leadingExponent (mid * unit) den + 1 - n
  let (unit, den) := scaled unit den (-step)
  -- the value is `mid * unit / den` steps
  let floor := mid * unit / den
  let inside (c : Nat) : Bool :=
    if ends then lo * unit ≤ c * den && c * den ≤ hi * unit
    else lo * unit < c * den && c * den < hi * unit
  let lower := floor
  let upper := floor + 1
  let takesUpper := tie.takesUpper lower (mid * unit - lower * den) (upper * den - mid * unit)
  if inside lower && (lower * den == mid * unit || !(inside upper && takesUpper)) then
    some ⟨lower, step⟩
  else if inside upper then some ⟨upper, step⟩
  else none

/-- The same decimal without zeros at the end of its coefficient. -/
def Digits.strip : Nat → Digits → Digits
  | 0, d => d
  | fuel + 1, d =>
    if d.coefficient != 0 && d.coefficient % 10 == 0 then
      Digits.strip fuel ⟨d.coefficient / 10, d.exponent + 1⟩
    else d

/-- The shortest decimal that reads back as a positive magnitude.  Seventeen
    digits always suffice for a double. -/
def shortest (tie : Tie) (v : Magnitude) : Digits :=
  match (List.range 17).findSome? fun k => withDigits? tie v (k + 1) with
  | some d => d.strip 20
  | none => ⟨v.mantissa, 0⟩

end Logbook.Decimal
