import Logbook.Decimal.Fixed
import Logbook.Template.Conversion
import Logbook.Error
import Logbook.Value

/-! # Values written by conversions

    A conversion first writes a value as sign, radix mark and body, and then
    pads the three to its width: behind them, between mark and body with zeros,
    or in front of them.
-/

namespace Logbook.Template

/-- A value written, not yet padded. -/
structure Written where
  sign : List Char := []
  mark : List Char := []
  body : List Char
  numeric : Bool
  deriving Repr, DecidableEq

/-- The number of characters without padding. -/
def Written.length (w : Written) : Nat := w.sign.length + w.mark.length + w.body.length

/-- Pads to a width.  Left alignment wins over zeros, and only numbers take
    zeros. -/
def Written.pad (w : Written) (flags : Flags) (width : Nat) : List Char :=
  let gap := width - w.length
  if flags.left then w.sign ++ w.mark ++ w.body ++ List.replicate gap ' '
  else if flags.zero && w.numeric then w.sign ++ w.mark ++ List.replicate gap '0' ++ w.body
  else List.replicate gap ' ' ++ w.sign ++ w.mark ++ w.body

/-- The sign that is shown: always for a negative number, and for others what
    the flags ask for. -/
def signText (negative : Bool) (flags : Flags) : List Char :=
  if negative then ['-'] else if flags.plus then ['+'] else if flags.space then [' '] else []

/-- The first characters of a text, all of them without a precision. -/
def cut (precision? : Option Nat) (s : List Char) : List Char :=
  match precision? with
  | some p => s.take p
  | none => s

/-! ## Doubles -/

/-- A text without zeros at the end of its fraction, and without a point that
    nothing follows.  An exponent stays. -/
def stripFraction (s : List Char) : List Char :=
  let number := s.takeWhile (· ≠ 'e')
  let exponent := s.dropWhile (· ≠ 'e')
  if number.contains '.' then
    Text.trimEnd (· = '.') (Text.trimEnd (· = '0') number) ++ exponent
  else number ++ exponent

/-- The exponent of ten of a positive double as its logarithm shows it, which
    just below a power of ten may be the power itself. -/
def shownExponent (x : Double) : Int := x.toFloat.log10.floor.toInt64.toInt

/-- A magnitude in the shorter of the two forms, `precision` digits counting;
    zeros at the end are kept if asked for. -/
def generalText (x : Double) (v : Decimal.Magnitude) (precision : Nat) (keepZeros : Bool) :
    List Char :=
  let p := max precision 1
  let e : Int := if v.mantissa == 0 then 0 else shownExponent x
  let text :=
    if -4 ≤ e && e < p then Decimal.fixedText v (p - 1 - e).toNat
    else Decimal.exponentText v (p - 1)
  if keepZeros then text else stripFraction text

/-- The letter is a capital. -/
def Kind.isCapital (k : Kind) : Bool := k.letter.isUpper

/-- A double without its sign; infinities and what is not a number have words. -/
def doubleBody (kind : Kind) (x : Double) (precision : Nat) (alt : Bool) : List Char :=
  let positive : Double := ⟨(x.bits.toNat % twoTo 63).toUInt64⟩
  let text :=
    match Decimal.Binary.ofDouble x with
    | .nan => ['n', 'a', 'n']
    | .infinite _ => ['i', 'n', 'f']
    | .finite _ v =>
      match kind with
      | .f | .F => Decimal.fixedText v precision
      | .e | .E => Decimal.exponentText v precision
      | _ => generalText positive v precision alt
  if kind.isCapital then text.map Char.toUpper else text

/-! ## Values -/

/-- A value that should have been a number. -/
def notReal (kind : Kind) (v : Value) : LogError :=
  .format ("%" ++ kind.letter.toString ++ " format: a real number is required, not " ++ v.kind)

/-- A whole number in a radix, `capital` digits or not. -/
def integerText (radix : Nat) (capital : Bool) (n : Nat) : List Char :=
  let ds := Nat.toDigits radix n
  if capital then ds.map Char.toUpper else ds

/-- The radix, the mark under the flag `#` and the letter case of a whole-number
    kind. -/
def Kind.radix : Kind → Nat × List Char × Bool
  | .o => (8, ['0', 'o'], false)
  | .x => (16, ['0', 'x'], false)
  | .X => (16, ['0', 'X'], true)
  | _ => (10, [], false)

/-- A value as a single character. -/
def characterText : Value → Except LogError (List Char)
  | .int i =>
    let n := i.toInt
    if 0 ≤ n && n < 0x110000 && !(0xD800 ≤ n && n ≤ 0xDFFF) then .ok [Char.ofNat n.toNat]
    else .error (.format "%c arg not in range")
  | .str s =>
    if s.toList.length = 1 then .ok s.toList
    else .error (.format ("%c requires int or char, not " ++ (Value.str s).kind))
  | v => .error (.format ("%c requires int or char, not " ++ v.kind))

/-- A value as a whole number in the radix of a kind. -/
def writeInteger (kind : Kind) (flags : Flags) (v : Value) : Except LogError Written :=
  match v.toInt? with
  | none => .error (notReal kind v)
  | some i =>
    let (radix, mark, capital) := kind.radix
    .ok { sign := signText (i.toInt < 0) flags, mark := if flags.alt then mark else [],
          body := integerText radix capital i.toInt.natAbs, numeric := true }

/-- A value as a double in the notation of a kind; six places by default. -/
def writeDouble (kind : Kind) (flags : Flags) (precision? : Option Nat) (v : Value) :
    Except LogError Written :=
  match v.toDouble? with
  | none => .error (notReal kind v)
  | some x =>
    .ok { sign := signText (x.isSigned && !x.isZero) flags,
          body := doubleBody kind x (precision?.getD 6) flags.alt, numeric := true }

/-- A value written by a conversion, not yet padded. -/
def Conversion.write (c : Conversion) (v : Value) : Except LogError Written :=
  match c.kind with
  | .s => .ok { body := cut c.precision? v.text.toList, numeric := false }
  | .r | .a => .ok { body := cut c.precision? v.repr.toList, numeric := false }
  | .c => (characterText v).map fun body => { body, numeric := false }
  | .d | .i | .u | .o | .x | .X => writeInteger c.kind c.flags v
  | _ => writeDouble c.kind c.flags c.precision? v

/-- A value written by a conversion. -/
def Conversion.render (c : Conversion) (v : Value) : Except LogError (List Char) :=
  (c.write v).map fun w => w.pad c.flags (c.width?.getD 0)

end Logbook.Template
