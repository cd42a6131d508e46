import Logbook.Files.Walk
import Logbook.FileMode

/-! # Operations on files

    What can be done with the names of a tree.  An operation that fails changes
    nothing, except that missing directories made on the way stay.
-/

namespace Logbook.FileSystem

/-- Makes one directory. -/
def makeDirectory (fs : FileSystem) (p : Path) : Except SystemError FileSystem := do
  let e ← fs.edge p
  if !e.isName then .error .alreadyExists
  else
    match ← fs.look e with
    | some _ => .error .alreadyExists
    | none =>
      let (fs, id) := fs.allot { modified := fs.now }
      .ok (fs.put e.location (.directory id))

/-- Makes a directory and those above it that are missing, trying at most the
    given number of paths upwards. -/
def makeDirectoriesUpTo (fs : FileSystem) :
    Nat → Path → Except SystemError Unit × FileSystem
  | 0, _ => (.error .notFound, fs)
  | steps + 1, p =>
    if p.text.isEmpty then (.ok (), fs)
    else
      match fs.makeDirectory p with
      | .ok fs => (.ok (), fs)
      | .error .notFound =>
        match p.parent? with
        | none => (.error (.other "failed to create whole tree"), fs)
        | some parent =>
          match fs.makeDirectoriesUpTo steps parent with
          | (.error e, fs) => (.error e, fs)
          | (.ok (), fs) =>
            match fs.makeDirectory p with
            | .ok fs => (.ok (), fs)
            | .error e => if fs.isDirectory p then (.ok (), fs) else (.error e, fs)
      | .error e => if fs.isDirectory p then (.ok (), fs) else (.error e, fs)

/-- Makes a directory and those above it that are missing. -/
def makeDirectories (fs : FileSystem) (p : Path) : Except SystemError Unit × FileSystem :=
  fs.makeDirectoriesUpTo (p.text.length + 1) p

/-- Opens a file to write to it; makes it if there is none.  A path that ends in a
    slash is refused, also when it is the target of a link. -/
def openFile (fs : FileSystem) (p : Path) (mode : FileMode) :
    Except SystemError (FileSystem × FileId) := do
  let e ← fs.ending (!·) p
  if e.slash || !e.isName then .error .isDirectory
  else
    match ← fs.look e with
    | some (.directory _) => .error .isDirectory
    | some (.link _) => .error .tooManyLinks
    | some (.file id) =>
      match mode with
      | .append => .ok (fs, id)
      | .truncate => .ok (fs.setContent id [], id)
    | none =>
      let (fs, id) := fs.allot { modified := fs.now }
      .ok (fs.put e.location (.file id), id)

/-- What is read from something opened for reading. -/
def read (fs : FileSystem) : Entry → Except SystemError (List UInt8)
  | .file id => .ok (fs.contentOf id)
  | .directory _ => .error .isDirectory
  | .link _ => .error .tooManyLinks

/-- The content of the file that a path names, links followed. -/
def readPath (fs : FileSystem) (p : Path) : Except SystemError (List UInt8) :=
  match fs.status true p with
  | .error e => .error e
  | .ok entry => fs.read entry

/-- The text that bytes read from somewhere stand for. -/
def decode (bytes : List UInt8) : Except SystemError String :=
  match String.fromUTF8? ⟨bytes.toArray⟩ with
  | some text => .ok text
  | none => .error .invalidText

/-- The text of the file that a path names, links followed. -/
def readText (fs : FileSystem) (p : Path) : Except SystemError String :=
  match fs.readPath p with
  | .error e => .error e
  | .ok bytes => decode bytes

/-- Writes a file from its start; makes it if there is none. -/
def writePath (fs : FileSystem) (p : Path) (bytes : List UInt8) :
    Except SystemError FileSystem :=
  match fs.openFile p .truncate with
  | .error e => .error e
  | .ok (fs, id) => .ok (fs.append id bytes)

/-- Gives the file that a path names a time of last change. -/
def stamp (fs : FileSystem) (p : Path) (seconds : Int) : FileSystem :=
  match fs.identity? p with
  | some id => fs.setModified id seconds
  | none => fs

/-- Removes a file or a link. -/
def removeFile (fs : FileSystem) (p : Path) : Except SystemError FileSystem := do
  let e ← fs.edge p
  if !e.isName then .error .isDirectory
  else
    match ← fs.look e with
    | none => .error .notFound
    | some (.directory _) => .error .isDirectory
    | some _ => if e.slash then .error .notDirectory else .ok (fs.take e.location)

/-- Whether what is at one location may be moved to another. -/
def checkMove (fs : FileSystem) (source target : Location) (asDirectory : Bool) :
    Except SystemError Unit :=
  match fs.entryAt? source with
  | none => .error .notFound
  | some (.directory _) =>
    if source = target then .ok ()
    else if source.isPrefixOf target then .error .invalidArgument
    else if target.isPrefixOf source then .error .directoryNotEmpty
    else
      match fs.entryAt? target with
      | none => .ok ()
      | some (.directory _) => if fs.hasChildren target then .error .directoryNotEmpty else .ok ()
      | some _ => .error .notDirectory
  | some _ =>
    if asDirectory then .error .notDirectory
    else if source = target then .ok ()
    else if target.isPrefixOf source then .error .directoryNotEmpty
    else if fs.isDirectoryAt target then .error .isDirectory
    else .ok ()

/-- Gives an entry another name; a file that had that name is replaced. -/
def rename (fs : FileSystem) (source target : Path) : Except SystemError FileSystem := do
  refuseNull [source, target]
  let old ← fs.edge source
  let new ← fs.edge target
  if !old.isName || !new.isName then .error .deviceBusy
  else
    match ← fs.look old with
    | none => .error .notFound
    | some _ =>
      let _ ← fs.look new
      fs.checkMove old.location new.location (old.slash || new.slash)
      .ok (if old.location = new.location then fs else fs.move old.location new.location)

/-- The names in a directory. -/
def list (fs : FileSystem) (p : Path) : Except SystemError (List String) :=
  match fs.find true p with
  | .error e => .error e
  | .ok (at_, .directory _) => .ok (fs.childNames at_)
  | .ok _ => .error .notDirectory

/-- Makes a symbolic link. -/
def makeLink (fs : FileSystem) (p target : Path) : Except SystemError FileSystem := do
  refuseNull [target, p]
  checkLength target
  let e ← fs.edge p
  if !e.isName then .error .alreadyExists
  else
    match ← fs.look e with
    | some _ => .error .alreadyExists
    | none => if e.slash then .error .notFound else .ok (fs.put e.location (.link target))

/-- Gives a file another name, also where a name in use is refused: what has the
    name is then removed first. -/
def renameReplacing (fs : FileSystem) (source target : Path) :
    Except LogError Unit × FileSystem :=
  match fs.rename source target with
  | .ok fs => (.ok (), fs)
  | .error _ =>
    let fs :=
      if fs.exists? target then
        match fs.removeFile target with
        | .ok fs => fs
        | .error _ => fs
      else fs
    match fs.rename source target with
    | .ok fs => (.ok (), fs)
    | .error e =>
      (.error (.rotation source.text s!"Failed to rename to '{target.text}': {e.message}"), fs)

end Logbook.FileSystem
