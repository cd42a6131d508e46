import Logbook.Template.BraceField
import Logbook.Template.Written

/-! # Values written by brace fields

    A field without a kind, and the kind `s`, show the text of a value.  The
    other kinds show it as a number, most of them as the conversion with the
    same letter does.  The result is then padded to the width: zeros go between
    sign and digits, numbers otherwise to the right and texts to the left.
-/

namespace Logbook.Template

/-- The conversion with the letter of a number kind. -/
def FieldKind.conversion? : FieldKind → Option Kind
  | .d => some .d | .x => some .x | .X => some .X | .o => some .o | .e => some .e
  | .E => some .E | .f => some .f | .F => some .F | .g => some .g | .G => some .G
  | .s | .b | .percent => none

/-- A value that a field cannot show as a number. -/
def notNumber (letter : Char) (v : Value) : LogError :=
  .format ("unknown format code '" ++ letter.toString ++ "' for value of type " ++ v.kind)

/-- One hundred times a double. -/
def hundredfold (x : Double) : Double :=
  if Decimal.Binary.ofDouble x = .nan then x else Double.ofFloat (x.toFloat * 100.0)

namespace FieldSpec

/-- The flags of the conversion that writes a field's number. -/
def flags (spec : FieldSpec) : Flags :=
  { plus := spec.sign? = some .plus, space := spec.sign? = some .space }

/-- The text of a value; the precision cuts it when it is a string or when the
    kind `s` is given. -/
def textBody (spec : FieldSpec) (v : Value) : List Char :=
  let text := (if spec.repr then v.repr else v.text).toList
  let isText := match v with
    | .str _ => true
    | _ => false
  if isText || spec.kind? = some .s then cut spec.precision? text else text

/-- A value that counts as a number without a kind. -/
def isNumber : Value → Bool
  | .int _ | .float _ => true
  | _ => false

/-- A value as written by a field, not yet padded, and whether it is a number. -/
def body (spec : FieldSpec) (v : Value) : Except LogError (List Char × Bool) :=
  match spec.kind? with
  | none => .ok (spec.textBody v, isNumber v)
  | some .s => .ok (spec.textBody v, false)
  | some .b =>
    match v.toInt? with
    | none => .error (notNumber 'b' v)
    | some i => .ok ((if i.toInt < 0 then ['-'] else []) ++ Nat.toDigits 2 i.toInt.natAbs, true)
  | some .percent =>
    match v.toDouble? with
    | none => .error (notNumber '%' v)
    | some x =>
      let c : Conversion :=
        { flags := spec.flags, precision? := some (spec.precision?.getD 6), kind := .f }
      (c.render (.float (hundredfold x))).map fun text => (text ++ ['%'], true)
  | some kind =>
    match kind.conversion? with
    | none => .ok (spec.textBody v, false)
    | some k =>
      let c : Conversion :=
        { flags := spec.flags, precision? := if k = .d then none else spec.precision?, kind := k }
      (c.render v).map fun text => (text, true)

/-- The fill and the alignment that hold for a value. -/
def layout (spec : FieldSpec) (numeric : Bool) : Char × Align :=
  match spec.align? with
  | some a => (spec.fill, a)
  | none =>
    if spec.zero && numeric then ('0', .inside)
    else if numeric then (spec.fill, .right)
    else (spec.fill, .left)

/-- A text padded to the width of a field. -/
def pad (spec : FieldSpec) (numeric : Bool) (text : List Char) : List Char :=
  let gap := spec.width?.getD 0 - text.length
  let (fill, align) := spec.layout numeric
  match align with
  | .left => text ++ List.replicate gap fill
  | .right => List.replicate gap fill ++ text
  | .center => List.replicate (gap / 2) fill ++ text ++ List.replicate (gap - gap / 2) fill
  | .inside =>
    let isSign (c : Char) : Bool := c = '+' || c = '-' || c = ' '
    text.takeWhile isSign ++ List.replicate gap fill ++ text.dropWhile isSign

/-- A value written by a field. -/
def render (spec : FieldSpec) (v : Value) : Except LogError (List Char) :=
  (spec.body v).map fun (text, numeric) => spec.pad numeric text

end FieldSpec

end Logbook.Template
