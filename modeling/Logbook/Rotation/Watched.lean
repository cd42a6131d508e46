import Logbook.LogFile

/-! # A watched path

    Somebody else may move the live file away or put another file in its place.
    The file is opened anew when its path no longer leads to the file that was
    opened.
-/

namespace Logbook.Rotation

/-- The identity of the file that was opened, once it is known. -/
structure WatchedFile where
  opened? : Option FileId := none
  deriving Repr, DecidableEq

namespace WatchedFile

/-- Notes the identity of an open file. -/
def attach (p : WatchedFile) (f : LogFile) (fs : FileSystem) : WatchedFile :=
  if f.isOpen then { opened? := fs.identity? f.path } else p

/-- The path of an open file leads elsewhere.  The first look at a file whose
    identity is not known yet only notes it. -/
def isDue (p : WatchedFile) (f : LogFile) (fs : FileSystem) : Bool × WatchedFile :=
  if !f.isOpen then (false, p)
  else
    match p.opened? with
    | none => (false, { opened? := fs.identity? f.path })
    | some id => (fs.identity? f.path ≠ some id, p)

/-- Opens the file that the path leads to now. -/
def rollOver (p : WatchedFile) (f : LogFile) (fs : FileSystem) :
    Except LogError WatchedFile × LogFile × FileSystem :=
  let f := f.close
  match f.reopen fs with
  | (.error e, fs) => (.error e, f, fs)
  | (.ok f, fs) => (.ok { p with opened? := fs.identity? f.path }, f, fs)

end WatchedFile

end Logbook.Rotation
