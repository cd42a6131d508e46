import Logbook.LogFile
import Logbook.Rotation.Schedule
import Logbook.Text.Alphanumeric
import Logbook.Text.Bytes
import Logbook.Time.Pattern

/-! # Names of archives

    A file that is put aside at set times gets the time as a suffix, in the
    pattern of the unit of its schedule.  The shape of that pattern, digits and
    punctuation, tells archives from other files in the directory; a further
    extension behind the time is allowed.
-/

namespace Logbook.Rotation

open Time Text

namespace Period

/-- The pattern of the time in the name of an archive. -/
def pattern : Period → String
  | seconds => "%Y-%m-%d_%H-%M-%S"
  | minutes => "%Y-%m-%d_%H-%M"
  | hours => "%Y-%m-%d_%H"
  | days | midnight | weekday _ => "%Y-%m-%d"

end Period

/-- One element of the shape of a suffix. -/
inductive ShapePart where
  | digits (count : Nat)
  | literal (c : Char)
  deriving Repr, DecidableEq

/-- The shape of the texts that a pattern writes: four digits for a year and two
    for any other number. -/
def shapeOf : List Char → List ShapePart
  | [] => []
  | '%' :: 'Y' :: rest => .digits 4 :: shapeOf rest
  | '%' :: _ :: rest => .digits 2 :: shapeOf rest
  | c :: rest => .literal c :: shapeOf rest

/-- The shape of the time in the name of an archive. -/
def Period.shape (p : Period) : List ShapePart := shapeOf p.pattern.toList

/-- The byte behind a shape, if a text has the shape from a byte on. -/
def behindShape (bytes : List UInt8) : List ShapePart → Nat → Except SliceFault (Option Nat)
  | [], pos => .ok (some pos)
  | .digits n :: shape, pos =>
    if bytes.length < pos + n then .ok none
    else
      match bytesWithin bytes pos (pos + n) with
      | .error e => .error e
      | .ok part => if part.all isDigitByte then behindShape bytes shape (pos + n) else .ok none
  | .literal c :: shape, pos =>
    let literal := String.utf8EncodeChar c
    match bytesFrom bytes pos with
    | .error e => .error e
    | .ok rest =>
      if literal.isPrefixOf rest then behindShape bytes shape (pos + literal.length) else .ok none

/-- A character of an extension. -/
def isExtensionChar (c : Char) : Bool := c = '_' || Text.isAlphanumeric c

/-- Nothing, or a dot and an extension of letters, digits and underscores. -/
def isExtension : List Char → Bool
  | [] => true
  | '.' :: ext => !ext.isEmpty && ext.all isExtensionChar
  | _ :: _ => false

/-- A text has a shape, with or without an extension behind it. -/
def hasShape (shape : List ShapePart) (s : List Char) : Except SliceFault Bool :=
  match behindShape (bytes s) shape 0 with
  | .error e => .error e
  | .ok none => .ok false
  | .ok (some pos) => (textFrom s pos).map isExtension

/-- The time of an instant as a suffix. -/
def Schedule.archiveSuffix (s : Schedule) (seconds : Int) : String :=
  let text? := (Time.Pattern.items? s.unit.pattern).bind (Schedule.wallClock s.zone seconds).render?
  text?.getD ""

/-- What follows the live file's name and a dot in the name of an archive. -/
def suffixOf? (base name : String) : Option (List Char) :=
  let front := base.toList ++ ['.']
  if front.isPrefixOf name.toList then some (name.toList.drop front.length) else none

/-- The name is that of an archive of a file by a schedule. -/
def namesArchive (p : Period) (base name : String) : Except SliceFault Bool :=
  match suffixOf? base name with
  | some suffix => hasShape p.shape suffix
  | none => .ok false

/-- The names of archives among those of a directory. -/
def archivesIn (p : Period) (base : String) : List String → Except SliceFault (List String)
  | [] => .ok []
  | name :: names =>
    match namesArchive p base name with
    | .error e => .error e
    | .ok found => (archivesIn p base names).map fun rest => if found then name :: rest else rest

/-- The directory in which the archives of a file are. -/
def archiveDirectory (path : Path) : Path :=
  match path.parent? with
  | some dir => if dir.text.isEmpty then ⟨"."⟩ else dir
  | none => ⟨"."⟩

/-- All but the last so many members of a list. -/
def allButLast {α : Type} (keep : Nat) (xs : List α) : List α := xs.take (xs.length - keep)

/-- The archives of a file beyond the number to keep, the oldest first. -/
def surplusArchives (p : Period) (keep : Nat) (path : Path) (fs : FileSystem) :
    Except LogError (List Path) :=
  let dir := archiveDirectory path
  match fs.list dir with
  | .error e => .error (.system e)
  | .ok names =>
    match archivesIn p (path.fileName?.getD "") names with
    | .error fault => .error (.panicked fault.message)
    | .ok found =>
      let archives := found.mergeSort fun a b => decide (a ≤ b)
      .ok ((allButLast keep archives).map fun name => dir.join ⟨name⟩)

end Logbook.Rotation
