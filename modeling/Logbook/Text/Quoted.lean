import Logbook.Text.Hidden
import Logbook.Text.Combining

/-! # Quoted text

    A text between double quotes in which every character can be seen: quote
    and backslash are escaped, the common controls have letters, and any other
    character without a shape of its own is given by its code point.
-/

namespace Logbook.Text

/-- A number in hexadecimal with lower-case digits. -/
def hex (n : Nat) : List Char := Nat.toDigits 16 n

/-- The visible form of one character inside a quoted text. -/
def escaped (c : Char) : List Char :=
  if c = '"' then ['\\', '"']
  else if c = '\\' then ['\\', '\\']
  else if c = '\n' then ['\\', 'n']
  else if c = '\r' then ['\\', 'r']
  else if c = '\t' then ['\\', 't']
  else if c = Char.ofNat 0 then ['\\', '0']
  else if isCombining c || isHidden c then ['\\', 'u', '\x7b'] ++ hex c.toNat ++ ['\x7d']
  else [c]

/-- A text between double quotes, every character in its visible form. -/
def quoted (s : String) : String :=
  String.ofList (['"'] ++ s.toList.flatMap escaped ++ ['"'])

end Logbook.Text
