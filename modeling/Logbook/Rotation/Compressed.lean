import Logbook.Files.Gzip
import Logbook.LogFile

/-! # Compressed archives

    A file is put aside in compressed form.  The archive is written under a
    temporary name and then renamed, so that a failure leaves neither half an
    archive nor a lost file behind.
-/

namespace Logbook.Rotation.Compressed

/-- The name of a compressed archive. -/
def name : Namer := fun proposed => ⟨proposed.text ++ ".gz"⟩

/-- The steps of compression that the system may refuse for reasons of its own. -/
inductive Step where
  | openSource
  | makeTemporary
  /-- To read a chunk.  The one behind the last is the end of the file. -/
  | readSource (chunk : Nat)
  | writeChunk (chunk : Nat)
  | finish
  | removeTemporary
  | removeSource
  deriving Repr, DecidableEq

/-- A refusal: the error, and what has come into the unfinished archive by then. -/
structure Refusal where
  error : SystemError
  written : List UInt8 := []
  deriving Repr, DecidableEq

/-- What the system refuses. -/
abbrev Refusals := Step → Option Refusal

/-- A step that failed. -/
private def failed (message : String) (e : SystemError) : LogError :=
  .operation "compress log file" message e

/-- A result, unless the step it comes from is refused. -/
def unlessRefused {α : Type} (refusal? : Option Refusal) (r : Except SystemError α) :
    Except SystemError α :=
  match refusal? with
  | some refusal => .error refusal.error
  | none => r

/-- Removes an unfinished archive if that is possible. -/
def discard (refusals : Refusals) (fs : FileSystem) (p : Path) : FileSystem :=
  match unlessRefused (refusals .removeTemporary) (fs.removeFile p) with
  | .ok fs => fs
  | .error _ => fs

/-- The temporary name of an archive that is being written. -/
def temporary (target : Path) : Path := ⟨target.text ++ ".tmp"⟩

/-- The number of bytes that are read at a time. -/
def chunkSize : Nat := 65536

/-- A step of the encoder, which may be refused. -/
def allowed (refusal? : Option Refusal) (message : String) :
    Except (LogError × List UInt8) Unit :=
  match refusal? with
  | some refusal => .error (failed message refusal.error, refusal.written)
  | none => .ok ()

/-- Hands the chunks of a source to the encoder, from the given one on, as many as are
    left.  A last read finds the end. -/
def copyChunks (refusals : Refusals) (source : Path) :
    Nat → Nat → Except (LogError × List UInt8) Unit
  | 0, chunk => allowed (refusals (.readSource chunk)) s!"Failed to read from file: {source.text}"
  | left + 1, chunk => do
    allowed (refusals (.readSource chunk)) s!"Failed to read from file: {source.text}"
    allowed (refusals (.writeChunk chunk)) "Failed to compress data chunk"
    copyChunks refusals source left (chunk + 1)

/-- The compressed content of an open source.  A failure tells what has been written
    by then; an encoder that is given up still ends its stream. -/
def encode (compress : List UInt8 → List UInt8) (refusals : Refusals) (source : Path)
    (entry : Entry) (fs : FileSystem) : Except (LogError × List UInt8) (List UInt8) :=
  match fs.read entry with
  | .error e => .error (failed s!"Failed to read from file: {source.text}" e, compress [])
  | .ok bytes => do
    copyChunks refusals source ((bytes.length + chunkSize - 1) / chunkSize) 0
    allowed (refusals .finish) "Failed to finish compression"
    .ok (compress bytes)

/-- A step that is not refused is taken. -/
@[simp] theorem allowed_none (message : String) : allowed none message = .ok () := rfl

/-- Without a refusal all chunks are handed over. -/
theorem copyChunks_unrefused (source : Path) (left chunk : Nat) :
    copyChunks (fun _ => none) source left chunk = .ok () := by
  induction left generalizing chunk with
  | zero => rfl
  | succ left ih => simp [copyChunks, ih, bind, Except.bind]

/-- Without a refusal all that can be read is compressed. -/
theorem encode_unrefused {compress : List UInt8 → List UInt8} {source : Path} {entry : Entry}
    {fs : FileSystem} {bytes : List UInt8} (h : fs.read entry = .ok bytes) :
    encode compress (fun _ => none) source entry fs = .ok (compress bytes) := by
  unfold encode
  rw [h]
  dsimp only
  rw [copyChunks_unrefused]
  rfl

/-- Writes the compressed content of an open source under the temporary name. -/
def writeTemporary (compress : List UInt8 → List UInt8) (refusals : Refusals)
    (source target : Path) (entry : Entry) (fs : FileSystem) :
    Except LogError Unit × FileSystem :=
  let temp := temporary target
  match unlessRefused (refusals .makeTemporary) (fs.openFile temp .truncate) with
  | .error e =>
    (.error (failed s!"Failed to create temporary compressed file: {temp.text}" e), fs)
  | .ok (fs, id) =>
    match encode compress refusals source entry fs with
    | .error (e, written) => (.error e, discard refusals (fs.append id written) temp)
    | .ok stream => (.ok (), fs.append id stream)

/-- Without a refusal what can be read is written, if the temporary name can be opened. -/
theorem writeTemporary_unrefused {compress : List UInt8 → List UInt8} {source target : Path}
    {entry : Entry} {fs fs₁ : FileSystem} {id : FileId} {bytes : List UInt8}
    (hopen : fs.openFile (temporary target) .truncate = .ok (fs₁, id))
    (hread : fs₁.read entry = .ok bytes) :
    writeTemporary compress (fun _ => none) source target entry fs =
      (.ok (), fs₁.append id (compress bytes)) := by
  simp only [writeTemporary, unlessRefused, hopen, encode_unrefused hread]

/-- Gives an archive that has been written its name, and removes the source. -/
def settle (refusals : Refusals) (source target : Path) (w : World) :
    Except LogError Unit × World :=
  match w.files.renameReplacing (temporary target) target with
  | (.error e, fs) => (.error e, { w with files := discard refusals fs (temporary target) })
  | (.ok (), fs) =>
    match unlessRefused (refusals .removeSource) (fs.removeFile source) with
    | .ok fs => (.ok (), { w with files := fs })
    | .error e =>
      let w := { w with files := fs }
      (.ok (), w.complain s!"Compressed '{source.text}' but failed to remove it: {e.message}")

/-- Compresses a file into another and removes it, when the system refuses the
    given steps.  A file that is not there need not be compressed. -/
def putAsideUnless (compress : List UInt8 → List UInt8) (refusals : Refusals) :
    Rotator := fun source target w =>
  if !w.files.exists? source then (.ok (), w)
  else
    match unlessRefused (refusals .openSource) (w.files.status true source) with
    | .error e =>
      (.error (failed s!"Failed to open file for compression: {source.text}" e), w)
    | .ok entry =>
      match writeTemporary compress refusals source target entry w.files with
      | (.error e, fs) => (.error e, { w with files := fs })
      | (.ok (), fs) => settle refusals source target { w with files := fs }

/-- Puts a file into another in the form that `compress` gives it, and removes it. -/
def putAsideBy (compress : List UInt8 → List UInt8) : Rotator :=
  putAsideUnless compress fun _ => none

/-- Compresses a file into another and removes it. -/
def putAside : Rotator := putAsideBy Gzip.compress

end Logbook.Rotation.Compressed
