import Logbook.Rotation.Compressed
import Logbook.Rotation.Policy

/-! # File sinks

    A file sink writes lines to one live file, and asks its policy before every
    line.  A rollover that fails is reported and the line is written all the
    same.
-/

namespace Logbook

open Rotation

/-- Writes to a live file under a rollover policy. -/
structure FileSink where
  file : LogFile
  policy : Policy := .never
  terminator : String := "\n"

/-- What a caller asks for in a file sink. -/
structure FileSinkOptions where
  path : Path
  mode : FileMode := .append
  delay : Bool := false
  terminator : String := "\n"
  policy? : Option Policy := none
  namer? : Option Namer := none
  rotator? : Option Rotator := none

namespace FileSinkOptions

/-- Archives are to have the form that `compress` gives them. -/
def compressedBy (compress : List UInt8 → List UInt8) (o : FileSinkOptions) : FileSinkOptions :=
  { o with namer? := some Compressed.name, rotator? := some (Compressed.putAsideBy compress) }

/-- Archives are to be compressed. -/
def compressed (o : FileSinkOptions) : FileSinkOptions := o.compressedBy Gzip.compress

/-- The mode in which the file is opened.  With a policy it is never truncated,
    because that would destroy what the policy is to keep. -/
def openingMode (o : FileSinkOptions) : FileMode :=
  if o.policy?.isSome then .append else o.mode

end FileSinkOptions

namespace FileSink

/-- Makes a file sink. -/
def build (o : FileSinkOptions) (w : World) : Except LogError FileSink × World :=
  match LogFile.make o.path o.openingMode o.delay w.files with
  | (.error e, fs) => (.error e, { w with files := fs })
  | (.ok file, fs) =>
    let w := { w with files := fs }
    let file := { file with namer? := o.namer?, rotator? := o.rotator? }
    let policy := (o.policy?.getD .never).attach file w
    (.ok { file, policy, terminator := o.terminator }, w)

/-- The last name of the path. -/
def name (s : FileSink) : String := s.file.path.fileName?.getD "file"

/-- The number of bytes of a line. -/
def lineLength (s : FileSink) (text : String) : Nat :=
  text.utf8ByteSize + s.terminator.utf8ByteSize

/-- Asks whether the live file is to be replaced before a text is written. -/
def isDue (s : FileSink) (text : String) (w : World) : Except LogError Bool × FileSink × World :=
  let (due, policy, file, w) := s.policy.isDue (s.lineLength text) s.file w
  (due, { s with policy, file }, w)

/-- Replaces the live file. -/
def rollOver (s : FileSink) (w : World) : Except LogError Unit × FileSink × World :=
  let (r, policy, file, w) := s.policy.rollOver s.file w
  (r, { s with policy, file }, w)

/-- Replaces the live file if that is due before a text. -/
def prepare (s : FileSink) (text : String) (w : World) :
    Except LogError Unit × FileSink × World :=
  match s.isDue text w with
  | (.error e, s, w) => (.error e, s, w)
  | (.ok false, s, w) => (.ok (), s, w)
  | (.ok true, s, w) => s.rollOver w

/-- Writes a text, after a rollover if one is due. -/
def emit (s : FileSink) (text : String) (w : World) : Except LogError Unit × FileSink × World :=
  let (prepared, s, w) := s.prepare text w
  let w :=
    match prepared with
    | .ok () => w
    | .error e =>
      w.complain (s!"Log rotation failed for '{s.file.path.text}': {e.message}. " ++
        "Continuing with current file.")
  match s.file.writeLine text s.terminator w.files with
  | (.error e, fs) => (.error e, s, { w with files := fs })
  | (.ok file, fs) => (.ok (), { s with file }, { w with files := fs })

/-- Closes the live file. -/
def close (s : FileSink) : FileSink := { s with file := s.file.close }

/-- For a developer. -/
def inspect (s : FileSink) : String :=
  "FileSink \x7b file: " ++ s.file.inspect ++ ", terminator: " ++ Text.quoted s.terminator ++
    ", .. \x7d"

end FileSink

end Logbook
