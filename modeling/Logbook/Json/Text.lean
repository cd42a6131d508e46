import Logbook.Json.Cursor
import Logbook.Text.Blank

/-! # Strings of a document

    The characters between two quotes, escapes resolved.  A character beyond
    the basic plane may be escaped as a pair of surrogates; a surrogate alone
    is a fault.
-/

namespace Logbook.Json

/-- The value of a hexadecimal digit. -/
def hexValue? (c : Char) : Option Nat :=
  if c.isDigit then some (c.toNat - '0'.toNat)
  else if 'a' ≤ c ∧ c ≤ 'f' then some (c.toNat - 'a'.toNat + 10)
  else if 'A' ≤ c ∧ c ≤ 'F' then some (c.toNat - 'A'.toNat + 10)
  else none

/-- What an escape of one letter stands for. -/
def simpleEscape? : Char → Option Char
  | '"' => some '"'
  | '\\' => some '\\'
  | '/' => some '/'
  | 'b' => some '\x08'
  | 'f' => some '\x0c'
  | 'n' => some '\n'
  | 'r' => some '\r'
  | 't' => some '\t'
  | _ => none

namespace Reader

/-- Consumes the next character inside a string if it is the given one. -/
def expectInString (c : Char) : Reader Bool := do
  match ← peek with
  | none => fail .endInString
  | some x =>
    if x = c then
      skip
      return true
    else return false

/-- Consumes so many characters. -/
def skipMany : Nat → Reader Unit
  | 0 => return ()
  | n + 1 => do
    skip
    skipMany n

/-- Four hexadecimal digits.  What is not four digits is taken as four bytes, of
    which the last may be inside a character. -/
def hexEscape : Reader Nat := do
  let four := (← cursor).rest.take 4
  if Text.byteLength four < 4 then
    skipMany four.length
    fail .endInString
  else
    match four.mapM hexValue? with
    | some ds =>
      skipMany 4
      return ds.foldl (fun n d => n * 16 + d) 0
    | none => failWithin 4 .badEscape

/-- The character of a `u` escape, its mark already consumed. -/
def unicodeEscape : Reader Char := do
  let high ← hexEscape
  if 0xDC00 ≤ high && high ≤ 0xDFFF then fail .loneSurrogate
  else if high < 0xD800 || 0xDBFF < high then return Char.ofNat high
  else
    let backslash ← expectInString '\\'
    if !backslash then failAhead .brokenEscapePair
    else
      let mark ← expectInString 'u'
      if !mark then failAhead .brokenEscapePair
      else
        let low ← hexEscape
        if low < 0xDC00 || 0xDFFF < low then fail .loneSurrogate
        else return Char.ofNat ((high - 0xD800) * 1024 + (low - 0xDC00) + 0x10000)

/-- The character of an escape, its backslash already consumed. -/
def escape : Reader Char := do
  match ← peek with
  | none => fail .endInString
  | some 'u' =>
    skip
    unicodeEscape
  | some mark =>
    match simpleEscape? mark with
    | some c =>
      skip
      return c
    | none => failAhead .badEscape

/-- The characters up to the closing quote, last one first. -/
def stringBody : Nat → List Char → Reader (List Char)
  | 0, _ => fail .endInString
  | fuel + 1, acc => do
    match ← peek with
    | none => fail .endInString
    | some '"' =>
      skip
      return acc
    | some '\\' =>
      skip
      let c ← escape
      stringBody fuel (c :: acc)
    | some c =>
      skip
      if c.toNat < 0x20 then fail .controlCharacter
      else stringBody fuel (c :: acc)

/-- A string, its opening quote already consumed. -/
def string : Reader String := do
  let acc ← stringBody ((← cursor).rest.length + 1) []
  return String.ofList acc.reverse

/-- The rest of a word such as the last three letters of null. -/
def word : List Char → Reader Unit
  | [] => return ()
  | expected :: rest => do
    match ← peek with
    | none => fail .endInValue
    | some c =>
      if c = expected then
        skip
        word rest
      else failAhead .expectedWord

/-- Passes over an escape, its backslash already consumed; only its form counts. -/
def skipEscape : Reader Unit := do
  match ← peek with
  | none => fail .endInString
  | some 'u' =>
    skip
    let _ ← hexEscape
  | some mark => if (simpleEscape? mark).isSome then skip else failAhead .badEscape

/-- Passes over a string of no interest; only the form of its escapes counts. -/
def skipStringBody : Nat → Reader Unit
  | 0 => fail .endInString
  | fuel + 1 => do
    match ← peek with
    | none => fail .endInString
    | some '"' => skip
    | some '\\' =>
      skip
      skipEscape
      skipStringBody fuel
    | some c =>
      if c.toNat < 0x20 then fail .controlCharacter
      else
        skip
        skipStringBody fuel

/-- Passes over a string, its opening quote already consumed. -/
def skipString : Reader Unit := do
  skipStringBody ((← cursor).rest.length + 1)

end Reader

end Logbook.Json
