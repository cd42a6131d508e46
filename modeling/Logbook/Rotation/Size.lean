import Logbook.LogFile

/-! # Rollover by size

    Before a line that would bring the live file to its limit, the file is put
    aside as number one, after number one has become number two, and so on; what
    would get a number above the greatest one is overwritten.  Without numbers
    the file is opened anew and grows.  A limit of zero stands for no limit, and
    what is not a plain file is left alone.
-/

namespace Logbook.Rotation

/-- Limits of a live file. -/
structure SizeRotation where
  maxBytes : Nat
  backups : Nat
  deriving Repr, DecidableEq

namespace SizeRotation

/-- A line of the given length is one too many.  The file is opened to find out. -/
def isDue (p : SizeRotation) (f : LogFile) (length : Nat) (fs : FileSystem) :
    Except LogError (Bool × LogFile) × FileSystem :=
  if p.maxBytes = 0 || fs.isSpecial f.path then (.ok (false, f), fs)
  else
    match f.reopen fs with
    | (.error e, fs) => (.error e, fs)
    | (.ok f, fs) => (.ok (p.maxBytes ≤ f.position fs + length, f), fs)

/-- The name of the backup with a number. -/
def backupName (f : LogFile) (number : Nat) : Path :=
  f.archiveName (f.sibling (toString number))

/-- Makes room at a name. -/
def clear (path : Path) (fs : FileSystem) : Except LogError Unit × FileSystem :=
  if fs.exists? path then
    match fs.removeFile path with
    | .ok fs => (.ok (), fs)
    | .error e => (.error (.system e), fs)
  else (.ok (), fs)

/-- Gives the backup with a number the next number, if there is one. -/
def shiftOne (f : LogFile) (number : Nat) (fs : FileSystem) : Except LogError Unit × FileSystem :=
  let source := backupName f number
  let target := backupName f (number + 1)
  if fs.exists? source then
    match clear target fs with
    | (.error e, fs) => (.error e, fs)
    | (.ok (), fs) => fs.renameReplacing source target
  else (.ok (), fs)

/-- Gives the backups up to a number the next numbers, the last one first. -/
def shift (f : LogFile) : Nat → FileSystem → Except LogError Unit × FileSystem
  | 0, fs => (.ok (), fs)
  | number + 1, fs =>
    match shiftOne f (number + 1) fs with
    | (.error e, fs) => (.error e, fs)
    | (.ok (), fs) => shift f number fs

/-- Moves the closed live file and its backups one number on. -/
def moveAll (p : SizeRotation) (f : LogFile) (w : World) : Except LogError Unit × World :=
  if p.backups = 0 then (.ok (), w)
  else
    match shift f (p.backups - 1) w.files with
    | (.error e, fs) => (.error e, { w with files := fs })
    | (.ok (), fs) =>
      match clear (backupName f 1) fs with
      | (.error e, fs) => (.error e, { w with files := fs })
      | (.ok (), fs) => f.putAside f.path (backupName f 1) { w with files := fs }

/-- Puts the live file aside and opens a new one. -/
def rollOver (p : SizeRotation) (f : LogFile) (w : World) :
    Except LogError Unit × LogFile × World :=
  let f := f.close
  match p.moveAll f w with
  | (.error e, w) => (.error e, f, w)
  | (.ok (), w) =>
    if f.delay then (.ok (), f, w)
    else
      match f.reopen w.files with
      | (.ok f, fs) => (.ok (), f, { w with files := fs })
      | (.error e, fs) => (.error e, f, { w with files := fs })

/-- For a developer. -/
def inspect (p : SizeRotation) : String :=
  "SizeRotation \x7b max_bytes: " ++ s!"{p.maxBytes}, backup_count: {p.backups} \x7d"

end SizeRotation

end Logbook.Rotation
