import Logbook.Decimal.Notation
import Logbook.Json.Tree
import Logbook.Text.Quoted

/-! # Values

    The values that records carry: arguments of messages, extra attributes and
    defaults of formatters.  A value has a plain text, a visible text, a view
    as a whole number and one as a double, and a form in documents.
-/

namespace Logbook

/-- A value carried by a record. -/
inductive Value where
  | str (s : String)
  | int (i : Int64)
  | float (x : Double)
  | bool (b : Bool)
  | none
  deriving Repr, DecidableEq, Inhabited

namespace Value

/-- The plain text of a value. -/
def text : Value → String
  | str s => s
  | int i => toString i.toInt
  | float x => Decimal.plainText x
  | bool b => if b then "true" else "false"
  | none => "None"

/-- The visible text of a value: strings are quoted. -/
def repr : Value → String
  | str s => Text.quoted s
  | v => v.text

/-- A value with the name of its kind, for a developer. -/
def inspect : Value → String
  | str s => "Str(" ++ Text.quoted s ++ ")"
  | int i => s!"Int({i.toInt})"
  | float x => "Float(" ++ Decimal.inspectText x ++ ")"
  | bool b => "Bool(" ++ (if b then "true" else "false") ++ ")"
  | none => "None"

/-- The name of the kind of a value. -/
def kind : Value → String
  | str _ => "str"
  | int _ => "int"
  | float _ => "float"
  | bool _ => "bool"
  | none => "None"

/-- A value as a whole number.  A double is cut towards zero and kept within 64
    bits; what is not a number counts as zero. -/
def toInt? : Value → Option Int64
  | int i => some i
  | float x => some x.toInt64
  | bool b => some (if b then 1 else 0)
  | str _ | none => Option.none

/-- A value as a double. -/
def toDouble? : Value → Option Double
  | int i => some (Double.ofFloat i.toFloat)
  | float x => some x
  | bool b => some (Double.ofFloat (if b then 1.0 else 0.0))
  | str _ | none => Option.none

/-- A natural number as a value; a double from `2^63` on. -/
def ofNat64 (n : UInt64) : Value :=
  if n.toNat < twoTo 63 then int (Int64.ofNat n.toNat) else float (Double.ofFloat n.toFloat)

/-- A text, or nothing. -/
def ofText? : Option String → Value
  | some s => str s
  | Option.none => none

/-! ## Documents -/

/-- One character of a document string. -/
def documentChar (c : Char) : List Char :=
  if c = '"' then ['\\', '"']
  else if c = '\\' then ['\\', '\\']
  else if c = '\x08' then ['\\', 'b']
  else if c = '\t' then ['\\', 't']
  else if c = '\n' then ['\\', 'n']
  else if c = '\x0c' then ['\\', 'f']
  else if c = '\r' then ['\\', 'r']
  else if c.toNat < 0x20 then
    ['\\', 'u', '0', '0', Nat.digitChar (c.toNat / 16), Nat.digitChar (c.toNat % 16)]
  else [c]

/-- A value as the text of a document.  A double without a finite value has none
    and becomes null. -/
def documentText : Value → String
  | str s => String.ofList (['"'] ++ s.toList.flatMap documentChar ++ ['"'])
  | float x => (Decimal.documentText? x).getD "null"
  | none => "null"
  | v => v.text

/-- A scalar of a document as a value; lists and objects are none.  Numbers that
    do not fit in 64 bits with sign become doubles. -/
def ofTree : Json.Tree → Except Json.Fault Value
  | .string s => .ok (str s)
  | .number (.natural n) => .ok (ofNat64 n.toUInt64)
  | .number (.negative i) => .ok (int (Int64.ofInt i))
  | .number (.double f) => .ok (float (Double.ofFloat f))
  | .bool b => .ok (bool b)
  | .null => .ok none
  | .list _ | .object _ =>
    .error (.misshapen "data did not match any variant of untagged enum Value")

/-- Reads the value that comes next in a document. -/
def reader (depth : Nat) : Json.Reader Value := do
  match ofTree (← Json.Reader.tree depth) with
  | .ok v => return v
  | .error f => throw f

/-- A document that consists of a value. -/
def ofText (text : String) : Except Json.Fault Value := Json.Reader.whole reader text

end Value

end Logbook
