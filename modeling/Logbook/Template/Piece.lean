import Logbook.Decimal.Power

/-! # Segments and pieces

    A template is read character by character into segments: a character that
    stands for itself, or a field.  Neighbouring characters are then merged, so
    that a template is a list of literal texts and fields in which no two
    literals meet and none is empty.
-/

namespace Logbook.Template

/-- One step of reading a template with fields of type `α`. -/
inductive Segment (α : Type) where
  | char (c : Char)
  | field (a : α)
  deriving Repr, DecidableEq

/-- A part of a template that has been read. -/
inductive Piece (α : Type) where
  | literal (text : List Char)
  | field (a : α)
  deriving Repr, DecidableEq

/-- Puts a character in front of pieces. -/
def consChar {α : Type} (c : Char) : List (Piece α) → List (Piece α)
  | .literal text :: ps => .literal (c :: text) :: ps
  | ps => .literal [c] :: ps

/-- Merges neighbouring characters into literals. -/
def merge {α : Type} : List (Segment α) → List (Piece α)
  | [] => []
  | .char c :: rest => consChar c (merge rest)
  | .field a :: rest => .field a :: merge rest

/-- What goes wrong while a template is read. -/
inductive Fault where
  | openKey
  | starWidth
  | unsupported (kind : Char) (index : Nat)
  | incomplete
  | missingKey
  | nestedBrace
  | openField
  | badName (name : String)
  | badConversion (text : String)
  | missingPrecision
  | badSpecifier (text : String)
  | loneBrace
  | openPlaceholder
  | bareMark
  | badPlaceholder (name : String)
  deriving Repr, DecidableEq

/-- The wording of a fault. -/
def Fault.message : Fault → String
  | openKey => "incomplete format key"
  | starWidth => "'*' width is not supported"
  | unsupported kind index => s!"unsupported format character '{kind}' at index {index}"
  | incomplete => "incomplete format"
  | missingKey => "format requires a mapping"
  | nestedBrace => "unexpected '\x7b' in field name"
  | openField => "expected '\x7d' before end of string"
  | badName name => s!"invalid field name '{name}'"
  | badConversion text => s!"invalid conversion '{text}'"
  | missingPrecision => "format specifier missing precision"
  | badSpecifier text => s!"invalid format specifier '{text}'"
  | loneBrace => "single '\x7d' encountered in format string"
  | openPlaceholder => "unterminated '$\x7b' placeholder"
  | bareMark => "invalid placeholder: bare '$'"
  | badPlaceholder name => "invalid placeholder '$\x7b" ++ name ++ "\x7d'"

/-- Decimal digits as a number that fits in 64 bits; none for no digits and for
    too large a number. -/
def digits64? (ds : List Char) : Option Nat :=
  if ds.isEmpty then none
  else
    let n := ds.foldl (fun n d => n * 10 + (d.toNat - '0'.toNat)) 0
    if n < twoTo 64 then some n else none

end Logbook.Template
