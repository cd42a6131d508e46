import Logbook.Files.Tree
import Logbook.Text.Blank

/-! # The way of a path

    A path is followed part by part from the working directory.  Every part but
    the last must lead to a directory, and so must the last one if a slash comes
    after it.  A symbolic link on the way is replaced by its target; after forty
    links the way is given up.

    A dot is a part like any other here: what stands before it must be a
    directory.  What the last part is taken for, and whether it is replaced when
    it is a link, is for each operation to say.
-/

namespace Logbook

namespace Path

/-- What one piece between slashes says on the way; an empty one says nothing. -/
def turn? (piece : List Char) : Option Part :=
  if piece = ['.'] then some .here else part? piece

/-- The parts of a path that are followed one after the other. -/
def turns (p : Path) : List Part :=
  (if p.isAbsolute then [.root] else []) ++ (pieces p.text.toList).filterMap turn?

/-- The path ends in a slash. -/
def endsInSlash (p : Path) : Bool := p.text.toList.getLast? == some '/'

/-- No path can hold the character with the number zero. -/
def hasNull (p : Path) : Bool := p.text.toList.contains '\x00'

end Path

namespace FileSystem

/-! ## Parts on the way -/

/-- Where the way of a path comes to a halt. -/
inductive Stop where
  /-- Before its last part, in the directory in which that is looked up. -/
  | last (directory : Location) (part : Path.Part)
  /-- At a link, met in a directory, with the rest of the way still to go. -/
  | link (directory : Location) (target : Path) (rest : List Path.Part)

/-- The number of bytes that a name may take. -/
def nameLimit : Nat := 255

/-- The number of bytes that a path may take. -/
def pathLimit : Nat := 4095

/-- The number of links that a way may lead through. -/
def linkLimit : Nat := 40

/-- The name is too long for an entry. -/
def isTooLong (name : String) : Bool := decide (nameLimit < Text.byteLength name.toList)

/-- Follows parts up to the next link or to the last part. -/
def advance (fs : FileSystem) : Location → List Path.Part → Except SystemError Stop
  | here, [] => .ok (.last here .here)
  | here, part :: rest =>
    match fs.entryAt? here with
    | none => .error .notFound
    | some (.file _) | some (.link _) => .error .notDirectory
    | some (.directory _) =>
      if rest.isEmpty then .ok (.last here part)
      else
        match part with
        | .root => advance fs [] rest
        | .here => advance fs here rest
        | .up => advance fs here.dropLast rest
        | .name s =>
          if isTooLong s then .error .nameTooLong
          else
            match fs.entryAt? (here ++ [s]) with
            | some (.link target) => .ok (.link here target rest)
            | _ => advance fs (here ++ [s]) rest

/-- The last part is not followed. -/
theorem advance_singleton {fs : FileSystem} {here : Location} {id : FileId}
    (h : fs.entryAt? here = some (.directory id)) (a : Path.Part) :
    fs.advance here [a] = .ok (.last here a) := by
  simp [advance, h]

/-! ## The last part -/

/-- The end of a way: the last part, and the directory in which it is looked up. -/
structure Ending where
  directory : Location
  part : Path.Part
  /-- A slash comes after the part. -/
  slash : Bool
  deriving Repr, DecidableEq

namespace Ending

/-- Where the last part leads. -/
def location (e : Ending) : Location :=
  match e.part with
  | .root => []
  | .here => e.directory
  | .up => e.directory.dropLast
  | .name s => e.directory ++ [s]

/-- The last part is a name, so that an entry can be put or taken there. -/
def isName (e : Ending) : Bool :=
  match e.part with
  | .name _ => true
  | _ => false

end Ending

/-- What the end of a way leads to, if there is anything. -/
def look (fs : FileSystem) (e : Ending) : Except SystemError (Option Entry) :=
  match e.part with
  | .name s => if isTooLong s then .error .nameTooLong else .ok (fs.entryAt? e.location)
  | _ => .ok (fs.entryAt? e.location)

/-- Follows parts through at most the given number of links.  Whether a link at
    the end is followed is a matter of the slash after it. -/
def walk (fs : FileSystem) (follow : Bool → Bool) :
    Nat → Location → List Path.Part → Bool → Except SystemError Ending
  | links, here, parts, slash =>
    match fs.advance here parts with
    | .error e => .error e
    | .ok (.link directory target rest) =>
      match links with
      | 0 => .error .tooManyLinks
      | links + 1 => walk fs follow links directory (target.turns ++ rest) slash
    | .ok (.last directory part) =>
      let e : Ending := { directory, part, slash }
      match fs.look e with
      | .ok (some (.link target)) =>
        if follow slash then
          match links with
          | 0 => .error .tooManyLinks
          | links + 1 => walk fs follow links directory target.turns (slash || target.endsInSlash)
        else .ok e
      | _ => .ok e

/-- A way that cannot be followed is not walked. -/
theorem walk_of_error {fs : FileSystem} {follow : Bool → Bool} {links : Nat} {here : Location}
    {parts : List Path.Part} {slash : Bool} {e : SystemError} (h : fs.advance here parts = .error e) :
    fs.walk follow links here parts slash = .error e := by
  rw [walk, h]

/-- Paths that hold a null character are refused before anything else. -/
def refuseNull (ps : List Path) : Except SystemError Unit :=
  if ps.any Path.hasNull then .error (.other "file name contained an unexpected NUL byte")
  else .ok ()

/-- A path is neither empty nor too long. -/
def checkLength (p : Path) : Except SystemError Unit :=
  if p.text.isEmpty then .error .notFound
  else if pathLimit < Text.byteLength p.text.toList then .error .nameTooLong
  else .ok ()

/-- The end of the way of a path. -/
def ending (fs : FileSystem) (follow : Bool → Bool) (p : Path) : Except SystemError Ending := do
  refuseNull [p]
  checkLength p
  fs.walk follow linkLimit [] p.turns p.endsInSlash

/-- The end of the way of a path whose last part is itself to be changed: a link
    that comes last is not followed. -/
def edge (fs : FileSystem) (p : Path) : Except SystemError Ending := fs.ending (fun _ => false) p

/-! ## What a path names -/

/-- What a path names, and where.  A link that comes last is followed on demand,
    or because of a slash after it. -/
def find (fs : FileSystem) (follow : Bool) (p : Path) : Except SystemError (Location × Entry) := do
  let e ← fs.ending (follow || ·) p
  match ← fs.look e with
  | none => .error .notFound
  | some (.directory id) => .ok (e.location, .directory id)
  | some entry => if e.slash then .error .notDirectory else .ok (e.location, entry)

/-- What a path names. -/
def status (fs : FileSystem) (follow : Bool) (p : Path) : Except SystemError Entry :=
  (fs.find follow p).map Prod.snd

/-- A path names something, links followed. -/
def exists? (fs : FileSystem) (p : Path) : Bool := (fs.status true p).isOk

/-- A path names a directory, links followed. -/
def isDirectory (fs : FileSystem) (p : Path) : Bool :=
  match fs.status true p with
  | .ok (.directory _) => true
  | _ => false

/-- A path names something other than a file; links count as other. -/
def isSpecial (fs : FileSystem) (p : Path) : Bool :=
  match fs.status false p with
  | .ok (.file _) => false
  | .ok _ => true
  | .error _ => false

/-- The identity of what a path names, links followed. -/
def identity? (fs : FileSystem) (p : Path) : Option FileId :=
  match fs.status true p with
  | .ok (.file id) | .ok (.directory id) => some id
  | _ => none

/-- The time of the last change of what a path names, links followed. -/
def modified? (fs : FileSystem) (p : Path) : Option Int := (fs.identity? p).map fs.modifiedAt

/-- The number of bytes that a directory takes. -/
def directorySize : Nat := 4096

/-- The number of bytes of what a path names, links followed. -/
def size? (fs : FileSystem) (p : Path) : Option Nat :=
  match fs.status true p with
  | .ok (.file id) => some (fs.contentOf id).length
  | .ok (.directory _) => some directorySize
  | _ => none

end FileSystem

end Logbook
