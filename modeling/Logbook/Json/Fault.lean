/-! # Faults of a document

    Why a JSON document could not be read, and where.  A fault found while
    scanning carries its place at once; one found while giving a value its
    shape has only a text, and gets its place from the reader around it.
-/

namespace Logbook.Json

/-- A line, counted from one, and the number of bytes before the place in it. -/
structure Position where
  line : Nat
  column : Nat
  deriving Repr, DecidableEq

/-- What is wrong with a document. -/
inductive Reason where
  | endInList
  | endInObject
  | endInString
  | endInValue
  | expectedColon
  | expectedListEnd
  | expectedObjectEnd
  | expectedWord
  | expectedValue
  | badEscape
  | badNumber
  | numberOutOfRange
  | controlCharacter
  | keyNotString
  | loneSurrogate
  | brokenEscapePair
  | trailingComma
  | trailingCharacters
  | tooDeep
  /-- The document is well formed but a value has the wrong shape. -/
  | shape (text : String)
  deriving Repr, DecidableEq

/-- The coarse kind of a fault. -/
inductive FaultClass where
  /-- The text ends early. -/
  | truncated
  /-- The text is not a document. -/
  | malformed
  /-- The text is a document of another shape. -/
  | misshapen
  deriving Repr, DecidableEq

namespace Reason

/-- The wording of a reason. -/
def text : Reason → String
  | endInList => "EOF while parsing a list"
  | endInObject => "EOF while parsing an object"
  | endInString => "EOF while parsing a string"
  | endInValue => "EOF while parsing a value"
  | expectedColon => "expected \x60:\x60"
  | expectedListEnd => "expected \x60,\x60 or \x60]\x60"
  | expectedObjectEnd => "expected \x60,\x60 or \x60\x7d\x60"
  | expectedWord => "expected ident"
  | expectedValue => "expected value"
  | badEscape => "invalid escape"
  | badNumber => "invalid number"
  | numberOutOfRange => "number out of range"
  | controlCharacter =>
    "control character (\\u0000-\\u001F) found while parsing a string"
  | keyNotString => "key must be a string"
  | loneSurrogate => "lone leading surrogate in hex escape"
  | brokenEscapePair => "unexpected end of hex escape"
  | trailingComma => "trailing comma"
  | trailingCharacters => "trailing characters"
  | tooDeep => "recursion limit exceeded"
  | shape text => text

/-- The coarse kind of a reason. -/
def classify : Reason → FaultClass
  | endInList | endInObject | endInString | endInValue => .truncated
  | shape _ => .misshapen
  | _ => .malformed

end Reason

/-- A reason, and its place once that is known. -/
structure Fault where
  reason : Reason
  position : Option Position := none
  deriving Repr, DecidableEq

namespace Fault

/-- The text of a fault, with its place when it has one. -/
def text (f : Fault) : String :=
  match f.position with
  | none => f.reason.text
  | some p => s!"{f.reason.text} at line {p.line} column {p.column}"

/-- A fault keeps the place it has; one without gets the given place. -/
def placedAt (f : Fault) (p : Position) : Fault :=
  { f with position := f.position.orElse fun _ => some p }

/-- A value of the wrong shape. -/
def misshapen (text : String) : Fault := { reason := .shape text }

end Fault

end Logbook.Json
