import Logbook.Rotation.Archive

/-! # Rollover at set times

    The live file is put aside at the instants of a schedule, under the time at
    which its period began, and the newest archives are kept.  The next instant
    is computed ahead, so that a line costs one comparison.
-/

namespace Logbook.Rotation

/-- A schedule with the instant that is due next. -/
structure TimedRotation where
  schedule : Schedule
  /-- The number of archives to keep; zero keeps all. -/
  backups : Nat
  clock : Clock := .wall
  dueAt : Int := 0
  deriving Repr, DecidableEq

namespace TimedRotation

/-- The first instant is counted from the last change of the file, or from now. -/
def attach (p : TimedRotation) (f : LogFile) (w : World) : TimedRotation :=
  let start :=
    match w.files.modified? f.path with
    | some t => if 0 ≤ t then t else w.now p.clock
    | none => w.now p.clock
  { p with dueAt := p.schedule.next start }

/-- The instant that is due has come.  For what is not a plain file the instant
    is passed over. -/
def isDue (p : TimedRotation) (f : LogFile) (w : World) : Bool × TimedRotation :=
  let now := w.now p.clock
  if now < p.dueAt then (false, p)
  else if w.files.isSpecial f.path then (false, { p with dueAt := p.schedule.next now })
  else (true, p)

/-- The start of the period that ends at the instant that is due. -/
def periodStart (p : TimedRotation) (now : Int) : Int :=
  p.schedule.keepWallClock now (p.dueAt - p.schedule.interval)

/-- The name of the archive that is made at an instant. -/
def archivePath (p : TimedRotation) (f : LogFile) (now : Int) : Path :=
  f.archiveName (f.sibling (p.schedule.archiveSuffix (p.periodStart now)))

/-- Removes files one after the other. -/
def removeAll : List Path → FileSystem → Except LogError Unit × FileSystem
  | [], fs => (.ok (), fs)
  | p :: ps, fs =>
    match fs.removeFile p with
    | .ok fs => removeAll ps fs
    | .error e => (.error (.system e), fs)

/-- Removes the archives beyond the number to keep. -/
def retain (p : TimedRotation) (f : LogFile) (fs : FileSystem) :
    Except LogError Unit × FileSystem :=
  if p.backups = 0 then (.ok (), fs)
  else
    match surplusArchives p.schedule.unit p.backups f.path fs with
    | .error e => (.error e, fs)
    | .ok surplus => removeAll surplus fs

/-- Makes an archive of the closed live file. -/
def putAside (p : TimedRotation) (f : LogFile) (now : Int) (w : World) :
    Except LogError Unit × World :=
  let target := p.archivePath f now
  let cleared : Except LogError FileSystem :=
    if w.files.exists? target then (w.files.removeFile target).mapError .system else .ok w.files
  match cleared with
  | .error e => (.error e, w)
  | .ok fs => f.putAside f.path target { w with files := fs }

/-- Puts the live file aside, removes archives, opens a new file and computes the
    next instant.  A failure on the way leaves the instant as it is. -/
def rollOver (p : TimedRotation) (f : LogFile) (w : World) :
    Except LogError TimedRotation × LogFile × World :=
  let f := f.close
  let now := w.now p.clock
  match p.putAside f now w with
  | (.error e, w) => (.error e, f, w)
  | (.ok (), w) =>
    match p.retain f w.files with
    | (.error e, fs) => (.error e, f, { w with files := fs })
    | (.ok (), fs) =>
      let p := { p with dueAt := p.schedule.next now }
      if f.delay then (.ok p, f, { w with files := fs })
      else
        match f.reopen fs with
        | (.error e, fs) => (.error e, f, { w with files := fs })
        | (.ok f, fs) => (.ok p, f, { w with files := fs })

/-- For a developer. -/
def inspect (p : TimedRotation) : String :=
  let atTime :=
    match p.schedule.atTime? with
    | none => "None"
    | some t => s!"Some({t.text})"
  let utc := p.schedule.zone == .utc
  "TimedRotation \x7b when: " ++ s!"{p.schedule.unit.inspect}, interval: {p.schedule.interval}, " ++
    s!"backup_count: {p.backups}, utc: {utc}, at_time: {atTime}, rollover_at: {p.dueAt}, .. \x7d"

end TimedRotation

end Logbook.Rotation
