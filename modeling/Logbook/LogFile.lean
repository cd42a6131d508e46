import Logbook.Text.Quoted
import Logbook.World

/-! # Live files

    A log file is opened when it is made or when it is first written to, and is
    opened again by the first line after it has been closed.  The number of bytes
    in it is counted along while it is open.
-/

namespace Logbook

/-- The name that a file gets when it is put aside, made of the one proposed. -/
abbrev Namer := Path → Path

/-- Moves a file to the name under which it is put aside. -/
abbrev Rotator := Path → Path → World → Except LogError Unit × World

/-- A file held open. -/
structure Handle where
  id : FileId
  /-- Where the next byte goes; none for the end of the file. -/
  place? : Option Nat
  deriving Repr, DecidableEq

/-- The live file behind a file sink. -/
structure LogFile where
  path : Path
  mode : FileMode := .append
  /-- The file is opened when it is first written to. -/
  delay : Bool := false
  handle? : Option Handle := none
  /-- The number of bytes counted while the file is open. -/
  counted : Nat := 0
  namer? : Option Namer := none
  rotator? : Option Rotator := none

namespace LogFile

/-- The file is open. -/
def isOpen (f : LogFile) : Bool := f.handle?.isSome

/-- The bytes in the open file, or of what there is to append to. -/
def position (f : LogFile) (fs : FileSystem) : Nat :=
  if f.isOpen then f.counted
  else
    match f.mode with
    | .append => (fs.size? f.path).getD 0
    | .truncate => 0

/-- Makes the directory that a file is to be in. -/
def prepareDirectory (path : Path) (fs : FileSystem) : Except LogError Unit × FileSystem :=
  match path.parent? with
  | none => (.ok (), fs)
  | some parent =>
    if parent.text.isEmpty then (.ok (), fs)
    else
      match fs.makeDirectories parent with
      | (.ok (), fs) => (.ok (), fs)
      | (.error e, fs) =>
        (.error (.operation "create log directory" s!"Failed to create directory '{parent.text}'" e),
          fs)

/-- Opens the file, unless it is open. -/
def reopen (f : LogFile) (fs : FileSystem) : Except LogError LogFile × FileSystem :=
  if f.isOpen then (.ok f, fs)
  else
    match prepareDirectory f.path fs with
    | (.error e, fs) => (.error e, fs)
    | (.ok (), fs) =>
      match fs.openFile f.path f.mode with
      | .error e => (.error (.operation "open log file" s!"Failed to open '{f.path.text}'" e), fs)
      | .ok (fs, id) =>
        let place? :=
          match f.mode with
          | .append => none
          | .truncate => some 0
        (.ok { f with handle? := some { id, place? }, counted := (fs.contentOf id).length }, fs)

/-- Makes a live file, and opens it unless that is to wait. -/
def make (path : Path) (mode : FileMode) (delay : Bool) (fs : FileSystem) :
    Except LogError LogFile × FileSystem :=
  let f : LogFile := { path, mode, delay }
  if delay then (.ok f, fs) else f.reopen fs

/-- Writes bytes through a handle. -/
def send (h : Handle) (bytes : List UInt8) (fs : FileSystem) : Handle × FileSystem :=
  match h.place? with
  | none => (h, fs.append h.id bytes)
  | some place => ({ h with place? := some (place + bytes.length) }, fs.writeAt h.id place bytes)

/-- The bytes of a line with its end. -/
def lineBytes (text terminator : String) : List UInt8 :=
  text.toUTF8.toList ++ terminator.toUTF8.toList

/-- Writes a line, opening the file first if need be. -/
def writeLine (f : LogFile) (text terminator : String) (fs : FileSystem) :
    Except LogError LogFile × FileSystem :=
  match f.reopen fs with
  | (.error e, fs) => (.error e, fs)
  | (.ok f, fs) =>
    match f.handle? with
    | none => (.ok f, fs)
    | some h =>
      let bytes := lineBytes text terminator
      let (h, fs) := send h bytes fs
      (.ok { f with handle? := some h, counted := f.counted + bytes.length }, fs)

/-- Closes the file. -/
def close (f : LogFile) : LogFile := { f with handle? := none, counted := 0 }

/-- The path that the file has with a suffix behind a dot. -/
def sibling (f : LogFile) (suffix : String) : Path := ⟨f.path.text ++ "." ++ suffix⟩

/-- The name that a file gets when it is put aside. -/
def archiveName (f : LogFile) (proposed : Path) : Path :=
  match f.namer? with
  | some namer => namer proposed
  | none => proposed

/-- Moves a file to the name under which it is put aside.  A file that is not
    there need not be moved. -/
def putAside (f : LogFile) (source target : Path) (w : World) : Except LogError Unit × World :=
  match f.rotator? with
  | some rotator => rotator source target w
  | none =>
    if w.files.exists? source then
      let (r, fs) := w.files.renameReplacing source target
      (r, { w with files := fs })
    else (.ok (), w)

/-- The file with the bytes counted, for a developer. -/
def inspect (f : LogFile) : String :=
  "LogFile \x7b path: " ++ Text.quoted f.path.text ++ s!", mode: {f.mode.inspect}, delay: {f.delay}" ++
    s!", open: {f.isOpen}, position: {f.counted}, .. \x7d"

end LogFile

end Logbook
