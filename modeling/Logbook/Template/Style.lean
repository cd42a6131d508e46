import Logbook.Template.FieldText
import Logbook.Template.Placeholder

/-! # Template styles

    A template is written in one of three styles.  Whatever the style, reading it
    gives literals and fields, and a field is a name with a rule by which the
    value under that name is written.
-/

namespace Logbook

/-- The way fields are written in a template. -/
inductive Style where
  | percent
  | brace
  | dollar
  deriving Repr, DecidableEq, Inhabited

namespace Template

/-- The rule by which the value of a field is written. -/
inductive Rule where
  | conversion (c : Conversion)
  | field (spec : FieldSpec)
  | plain
  deriving Repr, DecidableEq

/-- A field of a template in any style. -/
structure Field where
  name : String
  rule : Rule
  deriving Repr, DecidableEq

/-- A template that has been read. -/
abbrev Fragments := List (Piece Field)

/-- A value written by a rule. -/
def Rule.render (rule : Rule) (v : Value) : Except LogError (List Char) :=
  match rule with
  | .conversion c => c.render v
  | .field spec => spec.render v
  | .plain => .ok v.text.toList

/-- The pieces with their fields mapped. -/
def mapFields {α β : Type} (f : α → Except Fault β) : List (Piece α) → Except Fault (List (Piece β))
  | [] => .ok []
  | .literal text :: ps => (mapFields f ps).map (.literal text :: ·)
  | .field a :: ps =>
    match f a with
    | .error e => .error e
    | .ok b => (mapFields f ps).map (.field b :: ·)

/-- A conversion in a template must name its value. -/
def ofConversion (c : Conversion) : Except Fault Field :=
  match c.key? with
  | some key => .ok ⟨key, .conversion c⟩
  | none => .error .missingKey

end Template

namespace Style

open Template

/-- The template that shows the message alone. -/
def defaultFormat : Style → String
  | percent => "%(message)s"
  | brace => "\x7bmessage\x7d"
  | dollar => "$\x7bmessage\x7d"

/-- The template that shows level, logger and message. -/
def basicFormat : Style → String
  | percent => "%(levelname)s:%(name)s:%(message)s"
  | brace => "\x7blevelname\x7d:\x7bname\x7d:\x7bmessage\x7d"
  | dollar => "$\x7blevelname\x7d:$\x7bname\x7d:$\x7bmessage\x7d"

/-- The character by which a style is chosen. -/
def mark : Style → Char
  | percent => '%'
  | brace => '\x7b'
  | dollar => '$'

/-- For a developer. -/
def inspect : Style → String
  | percent => "Percent"
  | brace => "Brace"
  | dollar => "Template"

/-- The style with a mark. -/
def parse (s : String) : Except LogError Style :=
  if s = "%" then .ok percent
  else if s = "\x7b" then .ok brace
  else if s = "$" then .ok dollar
  else
    .error (.config "formatter" ("Style must be one of: %,\x7b,$ (got '" ++ s ++ "')"))

/-- One text begins another. -/
def startsWith : List Char → List Char → Bool
  | [], _ => true
  | _ :: _, [] => false
  | c :: cs, d :: ds => c = d && startsWith cs ds

/-- One text occurs in another. -/
def occurs (part : List Char) : List Char → Bool
  | [] => part.isEmpty
  | c :: rest => startsWith part (c :: rest) || occurs part rest

/-- The template shows the readable time, as far as its text tells. -/
def usesTime (style : Style) (format : String) : Bool :=
  let occursIn (part : String) : Bool := occurs part.toList format.toList
  match style with
  | percent => occursIn "%(asctime)"
  | brace => occursIn "\x7basctime"
  | dollar => occursIn "$asctime" || occursIn "$\x7basctime\x7d"

/-- Reads a template. -/
def fragments (style : Style) (format : String) : Except Fault Fragments :=
  match style with
  | percent =>
    match percentPieces format with
    | .error f => .error f
    | .ok ps => mapFields ofConversion ps
  | brace => (bracePieces format).bind (mapFields fun f => .ok ⟨f.name, .field f.spec⟩)
  | dollar => (dollarPieces format).bind (mapFields fun name => .ok ⟨name, .plain⟩)

end Style

end Logbook
