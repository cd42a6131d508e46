import Logbook.Error
import Logbook.Path

/-! # File trees

    Names below a working directory, and what they stand for: a file, a
    directory or a symbolic link.  A file has an identity of its own, so that it
    can be written to after its name has been given to another file.
-/

namespace Logbook

/-- Where an entry is: the names on the way from the working directory. -/
abbrev Location := List String

/-- The identity of a file or a directory, whatever its name. -/
abbrev FileId := Nat

/-- What a name stands for. -/
inductive Entry where
  | file (id : FileId)
  | directory (id : FileId)
  | link (target : Path)
  deriving Repr, DecidableEq

/-- What is kept of a file. -/
structure FileData where
  content : List UInt8 := []
  /-- The time of the last change, in seconds since 1970. -/
  modified : Int := 0
  deriving Repr, DecidableEq, Inhabited

/-- A tree of files.  The working directory is always there and has the identity
    zero. -/
structure FileSystem where
  entries : List (Location × Entry) := []
  data : Array FileData := #[{}]
  /-- The clock that changes are stamped with. -/
  now : Int := 0
  deriving Repr, DecidableEq, Inhabited

namespace FileSystem

/-- What a location holds. -/
def entryAt? (fs : FileSystem) (at_ : Location) : Option Entry :=
  match at_ with
  | [] => some (.directory 0)
  | _ :: _ => fs.entries.lookup at_

/-- A location holds a directory. -/
def isDirectoryAt (fs : FileSystem) (at_ : Location) : Bool :=
  match fs.entryAt? at_ with
  | some (.directory _) => true
  | _ => false

/-- Something lies below a location. -/
def hasChildren (fs : FileSystem) (at_ : Location) : Bool :=
  fs.entries.any fun p => at_.isPrefixOf p.1 && p.1 ≠ at_

/-- The names right below a location. -/
def childNames (fs : FileSystem) (at_ : Location) : List String :=
  fs.entries.filterMap fun p =>
    if p.1.dropLast = at_ then p.1.getLast? else none

/-- Puts an entry at a location, in place of the one that was there. -/
def put (fs : FileSystem) (at_ : Location) (e : Entry) : FileSystem :=
  { fs with entries := (at_, e) :: fs.entries.filter fun p => p.1 ≠ at_ }

/-- Takes the entry at a location away. -/
def take (fs : FileSystem) (at_ : Location) : FileSystem :=
  { fs with entries := fs.entries.filter fun p => p.1 ≠ at_ }

/-- A location seen after everything at and below `source` has been moved. -/
def relocated (source target at_ : Location) : Location :=
  if source.isPrefixOf at_ then target ++ at_.drop source.length else at_

/-- Moves the entry at a location, with all that is below it, in place of what is
    at the other location. -/
def move (fs : FileSystem) (source target : Location) : FileSystem :=
  { fs with
    entries := (fs.entries.filter fun p => p.1 ≠ target).map fun p =>
      (relocated source target p.1, p.2) }

/-- A new identity with the data of a file. -/
def allot (fs : FileSystem) (d : FileData) : FileSystem × FileId :=
  ({ fs with data := fs.data.push d }, fs.data.size)

/-- What a file holds. -/
def contentOf (fs : FileSystem) (id : FileId) : List UInt8 := (fs.data.getD id {}).content

/-- The time of the last change of a file. -/
def modifiedAt (fs : FileSystem) (id : FileId) : Int := (fs.data.getD id {}).modified

/-- Gives a file a content, at the present time. -/
def setContent (fs : FileSystem) (id : FileId) (bytes : List UInt8) : FileSystem :=
  { fs with data := fs.data.modify id fun _ => { content := bytes, modified := fs.now } }

/-- Gives a file a time of last change. -/
def setModified (fs : FileSystem) (id : FileId) (seconds : Int) : FileSystem :=
  { fs with data := fs.data.modify id fun d => { d with modified := seconds } }

/-- Writes bytes behind what a file holds.  To write nothing is no change. -/
def append (fs : FileSystem) (id : FileId) (bytes : List UInt8) : FileSystem :=
  if bytes = [] then fs else fs.setContent id (fs.contentOf id ++ bytes)

/-- Bytes written over others from a place on; a gap before the place is filled
    with zeros. -/
def overwritten (old : List UInt8) (place : Nat) (bytes : List UInt8) : List UInt8 :=
  old.take place ++ List.replicate (place - old.length) 0 ++ bytes ++
    old.drop (place + bytes.length)

/-- Writes bytes over what a file holds from a place on. -/
def writeAt (fs : FileSystem) (id : FileId) (place : Nat) (bytes : List UInt8) : FileSystem :=
  if bytes = [] then fs else fs.setContent id (overwritten (fs.contentOf id) place bytes)

end FileSystem

end Logbook
