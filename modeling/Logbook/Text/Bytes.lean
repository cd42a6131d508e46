/-! # Bytes of a text

    A text is kept in UTF-8.  A part of it can be taken from any byte on at which a
    character begins, and at its end; a part of its bytes from any place in it.
-/

namespace Logbook.Text

/-- The bytes of a text. -/
def bytes (s : List Char) : List UInt8 := s.flatMap String.utf8EncodeChar

/-- Why a part cannot be taken. -/
inductive SliceFault where
  | outOfRange
  | insideCharacter
  deriving Repr, DecidableEq

/-- The wording of a fault. -/
def SliceFault.message : SliceFault → String
  | outOfRange => "byte index is out of bounds"
  | insideCharacter => "byte index is not a char boundary"

/-- The bytes from a place on. -/
def bytesFrom (bytes : List UInt8) (start : Nat) : Except SliceFault (List UInt8) :=
  if start ≤ bytes.length then .ok (bytes.drop start) else .error .outOfRange

/-- The bytes from one place up to another. -/
def bytesWithin (bytes : List UInt8) (start stop : Nat) : Except SliceFault (List UInt8) :=
  if start ≤ stop ∧ stop ≤ bytes.length then .ok ((bytes.drop start).take (stop - start))
  else .error .outOfRange

/-- The characters from a byte on. -/
def textFrom : List Char → Nat → Except SliceFault (List Char)
  | s, 0 => .ok s
  | [], _ + 1 => .error .outOfRange
  | c :: s, n + 1 =>
    if n + 1 < c.utf8Size then .error .insideCharacter else textFrom s (n + 1 - c.utf8Size)

/-- The byte is that of a digit. -/
def isDigitByte (b : UInt8) : Bool := decide (48 ≤ b ∧ b ≤ 57)

end Logbook.Text
