import Logbook.Proofs.Template.Grammar
import Logbook.Template.BraceField

/-! # The grammar of brace templates

    A brace template is a sequence of tokens: a character other than a brace, two opening
    or two closing braces, or a field

        { name [ ! r|a|s ] [ : [[fill] align] [sign] [0] [width] [. precision] [kind] ] }

    whose name is an identifier.  The grammar is stated here without reference to how a
    template is read.

    The one choice the grammar leaves open is whether a zero in front of the width is the
    zero flag or a digit.  It is the flag.  That an alignment character in second place
    makes the first one the fill is no choice: no other form puts one there.
-/

namespace Logbook.Template

/-! ## Characters with a meaning -/

/-- The sign of an alignment. -/
def Align.char : Align → Char
  | left => '<'
  | right => '>'
  | center => '^'
  | inside => '='

/-- The sign of a sign option. -/
def SignOption.char : SignOption → Char
  | plus => '+'
  | minus => '-'
  | space => ' '

/-- The letter of a field's kind. -/
def FieldKind.letter : FieldKind → Char
  | s => 's' | d => 'd' | b => 'b' | x => 'x' | X => 'X' | o => 'o' | e => 'e' | E => 'E'
  | f => 'f' | F => 'F' | g => 'g' | G => 'G' | percent => '%'

theorem Align.ofChar?_eq_some_iff {c : Char} {a : Align} : ofChar? c = some a ↔ a.char = c := by
  constructor
  · fun_cases ofChar? c <;> rintro ⟨⟩ <;> rfl
  · rintro rfl
    cases a <;> rfl

theorem SignOption.ofChar?_eq_some_iff {c : Char} {o : SignOption} :
    ofChar? c = some o ↔ o.char = c := by
  constructor
  · fun_cases ofChar? c <;> rintro ⟨⟩ <;> rfl
  · rintro rfl
    cases o <;> rfl

theorem FieldKind.ofChar?_eq_some_iff {c : Char} {k : FieldKind} :
    ofChar? c = some k ↔ k.letter = c := by
  constructor
  · fun_cases ofChar? c <;> rintro ⟨⟩ <;> rfl
  · rintro rfl
    cases k <;> rfl

/-! ## The text of a specifier -/

/-- A fill and an alignment, as they are written. -/
inductive AlignText where
  | absent
  | bare (a : Align)
  | filled (fill : Char) (a : Align) (h : fill ≠ '\x7b' ∧ fill ≠ '\x7d')

namespace AlignText

/-- The characters of fill and alignment. -/
def text : AlignText → List Char
  | absent => []
  | bare a => [a.char]
  | filled fill a _ => [fill, a.char]

/-- The fill is a blank where none is written. -/
def fill : AlignText → Char
  | filled fill _ _ => fill
  | _ => ' '

/-- The alignment that is written. -/
def align? : AlignText → Option Align
  | absent => none
  | bare a => some a
  | filled _ a _ => some a

end AlignText

/-- A specifier, as it is written. -/
structure SpecifierText where
  align : AlignText := .absent
  sign? : Option SignOption := none
  zero : Bool := false
  width : List Char := []
  precision? : Option (List Char) := none
  kind? : Option FieldKind := none
  width_digit : ∀ c ∈ width, c.isDigit
  precision_digit : ∀ ds ∈ precision?, ds ≠ [] ∧ ∀ c ∈ ds, c.isDigit

namespace SpecifierText

/-- The precision and the kind. -/
def tail (x : SpecifierText) : List Char :=
  precisionText x.precision? ++ x.kind?.elim [] fun k => [k.letter]

/-- What follows the sign option. -/
def measures (x : SpecifierText) : List Char :=
  (if x.zero then ['0'] else []) ++ (x.width ++ x.tail)

/-- What follows the alignment. -/
def unaligned (x : SpecifierText) : List Char :=
  (x.sign?.elim [] fun o => [o.char]) ++ x.measures

/-- The characters of a specifier. -/
def text (x : SpecifierText) : List Char := x.align.text ++ x.unaligned

/-- What a specifier says.  Its numbers are decimal, and one that is too large says
    nothing. -/
def decode (x : SpecifierText) : FieldSpec where
  fill := x.align.fill
  align? := x.align.align?
  sign? := x.sign?
  zero := x.zero
  width? := number? x.width
  precision? := x.precision?.bind number?
  kind? := x.kind?

/-- A zero in front of the width is the zero flag. -/
def ZeroIsFlag (x : SpecifierText) : Prop := x.zero = false → x.width.head? ≠ some '0'

end SpecifierText

/-! ## Fields and tokens -/

/-- A letter of the basic Latin alphabet or an underscore, followed by letters, digits and
    underscores. -/
def Identifier (name : List Char) : Prop :=
  ∃ c rest, name = c :: rest ∧ (c = '_' ∨ c.isAlpha) ∧ ∀ d ∈ rest, d = '_' ∨ d.isAlphanum

/-- The way in which a field asks for its value. -/
inductive Shown where
  | r
  | a
  | s

/-- The letter of a way to show a value. -/
def Shown.letter : Shown → Char
  | r => 'r'
  | a => 'a'
  | s => 's'

/-- The visible text is asked for, and not the plain one. -/
def Shown.isVisible : Shown → Bool
  | r | a => true
  | s => false

/-- A field, as it is written. -/
structure BraceFieldText where
  name : List Char
  shown? : Option Shown := none
  spec? : Option SpecifierText := none
  name_identifier : Identifier name

namespace BraceFieldText

/-- The name of a field and the way its value is shown. -/
def head (x : BraceFieldText) : List Char := x.name ++ x.shown?.elim [] fun m => ['!', m.letter]

/-- The characters between the braces of a field. -/
def body (x : BraceFieldText) : List Char := x.head ++ x.spec?.elim [] fun y => ':' :: y.text

/-- The characters of a field. -/
def text (x : BraceFieldText) : List Char := '\x7b' :: (x.body ++ ['\x7d'])

/-- What a field says. -/
def decode (x : BraceFieldText) : BraceField where
  name := String.ofList x.name
  spec := { x.spec?.elim {} SpecifierText.decode with repr := x.shown?.elim false Shown.isVisible }

/-- A zero in front of the width is the zero flag. -/
def ZeroIsFlag (x : BraceFieldText) : Prop := ∀ y ∈ x.spec?, y.ZeroIsFlag

end BraceFieldText

/-- One step of a brace template, as it is written. -/
inductive BraceToken where
  | plain (c : Char) (h : c ≠ '\x7b' ∧ c ≠ '\x7d')
  | opening
  | closing
  | field (x : BraceFieldText)

namespace BraceToken

/-- The characters of a token. -/
def text : BraceToken → List Char
  | plain c _ => [c]
  | opening => ['\x7b', '\x7b']
  | closing => ['\x7d', '\x7d']
  | field x => x.text

/-- What a token stands for. -/
def segment : BraceToken → Segment BraceField
  | plain c _ => .char c
  | opening => .char '\x7b'
  | closing => .char '\x7d'
  | field x => .field x.decode

end BraceToken

/-- In every field a zero in front of the width is the zero flag. -/
def ZerosAreFlags (tokens : List BraceToken) : Prop := ∀ x, .field x ∈ tokens → x.ZeroIsFlag

end Logbook.Template
