import Logbook.Rotation.Size
import Logbook.Rotation.Timed
import Logbook.Rotation.Watched

/-! # Rollover policies

    When the live file is replaced, and how: never, by size, when its path leads
    elsewhere, or at set times.
-/

namespace Logbook.Rotation

/-- A rule for the replacement of a live file. -/
inductive Policy where
  | never
  | size (p : SizeRotation)
  | watched (p : WatchedFile)
  | timed (p : TimedRotation)
  deriving Repr

namespace Policy

/-- Makes a policy ready for a file. -/
def attach (f : LogFile) (w : World) : Policy → Policy
  | never => never
  | size p => size p
  | watched p => watched (p.attach f w.files)
  | timed p => timed (p.attach f w)

/-- The live file is to be replaced before a line of the given length. -/
def isDue (length : Nat) (f : LogFile) (w : World) :
    Policy → Except LogError Bool × Policy × LogFile × World
  | never => (.ok false, never, f, w)
  | size p =>
    match p.isDue f length w.files with
    | (.error e, fs) => (.error e, size p, f, { w with files := fs })
    | (.ok (due, f), fs) => (.ok due, size p, f, { w with files := fs })
  | watched p =>
    let (due, p) := p.isDue f w.files
    (.ok due, watched p, f, w)
  | timed p =>
    let (due, p) := p.isDue f w
    (.ok due, timed p, f, w)

/-- Replaces the live file. -/
def rollOver (f : LogFile) (w : World) :
    Policy → Except LogError Unit × Policy × LogFile × World
  | never => (.ok (), never, f, w)
  | size p =>
    let (r, f, w) := p.rollOver f w
    (r, size p, f, w)
  | watched p =>
    match p.rollOver f w.files with
    | (.error e, f, fs) => (.error e, watched p, f, { w with files := fs })
    | (.ok p, f, fs) => (.ok (), watched p, f, { w with files := fs })
  | timed p =>
    match p.rollOver f w with
    | (.error e, f, w) => (.error e, timed p, f, w)
    | (.ok p, f, w) => (.ok (), timed p, f, w)

end Policy

end Logbook.Rotation
