import Logbook.Json.Fault

/-! # A place in a text

    The unread rest of a text, with the line and column where it starts.
    Readers are functions on cursors; a failed reader still leaves a cursor,
    because the place that it had reached is part of the fault's text.
-/

namespace Logbook.Json

/-- The unread rest of a text and its place.  Columns count bytes. -/
structure Cursor where
  rest : List Char
  line : Nat := 1
  column : Nat := 0
  deriving Repr

namespace Cursor

/-- The start of a text. -/
def ofString (s : String) : Cursor := { rest := s.toList }

/-- The place before the next character. -/
def position (c : Cursor) : Position := ⟨c.line, c.column⟩

/-- The cursor after the next character. -/
def next (c : Cursor) : Cursor :=
  match c.rest with
  | [] => c
  | '\n' :: r => ⟨r, c.line + 1, 0⟩
  | x :: r => ⟨r, c.line, c.column + x.utf8Size⟩

/-- The place some bytes into a text, which may be inside a character, for a text
    that starts at a given line and column. -/
def bytesInto : List Char → Nat → Nat → Nat → Position
  | [], line, column, _ => ⟨line, column⟩
  | x :: r, line, column, bytes =>
    if bytes = 0 then ⟨line, column⟩
    else if x = '\n' then bytesInto r (line + 1) 0 (bytes - 1)
    else if bytes < x.utf8Size then ⟨line, column + bytes⟩
    else bytesInto r line (column + x.utf8Size) (bytes - x.utf8Size)

/-- The place some bytes on. -/
def bytesOn (c : Cursor) (bytes : Nat) : Position := bytesInto c.rest c.line c.column bytes

/-- Skips the blanks that may stand between tokens. -/
def skipBlanks (c : Cursor) : Cursor :=
  (c.rest.takeWhile fun x => x = ' ' || x = '\n' || x = '\t' || x = '\r').foldl
    (fun c _ => c.next) c

end Cursor

/-- Reads a value from the front of a text. -/
abbrev Reader := ExceptT Fault (StateM Cursor)

namespace Reader

/-- The cursor as it stands. -/
def cursor : Reader Cursor := getThe Cursor

/-- The next character, not consumed. -/
def peek : Reader (Option Char) := return (← cursor).rest.head?

/-- Consumes one character. -/
def skip : Reader Unit := modifyThe Cursor Cursor.next

/-- The next character, consumed. -/
def take : Reader (Option Char) := do
  let c ← peek
  skip
  return c

/-- Fails at the place before the next character. -/
def fail {α : Type} (r : Reason) : Reader α := do
  throw { reason := r, position := some (← cursor).position }

/-- Fails some bytes on, which may be inside a character. -/
def failWithin {α : Type} (bytes : Nat) (r : Reason) : Reader α := do
  throw { reason := r, position := some ((← cursor).bytesOn bytes) }

/-- Fails at the next character. -/
def failAhead {α : Type} (r : Reason) : Reader α := failWithin 1 r

/-- Fails without a place. -/
def misshapen {α : Type} (text : String) : Reader α := throw (Fault.misshapen text)

/-- Skips blanks and looks at the next character. -/
def token : Reader (Option Char) := do
  modifyThe Cursor Cursor.skipBlanks
  peek

/-- A fault without a place gets the place that the reader had reached. -/
def located {α : Type} (r : Reader α) : Reader α :=
  tryCatch r fun f => do throw (f.placedAt (← cursor).position)

/-- Runs a reader and then a closing reader, also after a failure, so that the
    place reached includes the closing; the first fault wins. -/
def closedBy {α : Type} (r : Reader α) (close : Reader Unit) : Reader α := do
  let outcome : Except Fault α ← tryCatch (Except.ok <$> r) fun f => pure (.error f)
  let closing : Except Fault Unit ← tryCatch (Except.ok <$> close) fun f => pure (.error f)
  match outcome, closing with
  | .ok a, .ok () => return a
  | .error f, _ => throw f
  | .ok _, .error f => throw f

/-- Runs a reader from the start of a text. -/
def run {α : Type} (r : Reader α) (text : String) : Except Fault α :=
  (ExceptT.run r |>.run (Cursor.ofString text)).1

end Reader

end Logbook.Json
