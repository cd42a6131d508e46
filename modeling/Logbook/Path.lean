/-! # File names as paths

    A path is a text of names between slashes.  Repeated slashes, a slash at
    the end and single dots (but one in front) name nothing.
-/

namespace Logbook

/-- A path as written. -/
structure Path where
  text : String
  deriving Repr, DecidableEq, Inhabited

namespace Path

/-- What a path says, piece by piece. -/
inductive Part where
  | root
  | here
  | up
  | name (s : String)
  deriving Repr, DecidableEq

/-- The pieces of a text between slashes, empty ones included. -/
def pieces : List Char → List (List Char)
  | [] => [[]]
  | c :: rest =>
    if c = '/' then [] :: pieces rest
    else
      match pieces rest with
      | [] => [[c]]
      | p :: ps => (c :: p) :: ps

/-- A slash ends a piece. -/
theorem pieces_slash (cs : List Char) : pieces ('/' :: cs) = [] :: pieces cs := by
  rw [pieces, if_pos rfl]

/-- What one piece between slashes says; nothing for an empty piece or a dot. -/
def part? (piece : List Char) : Option Part :=
  if piece = [] || piece = ['.'] then none
  else if piece = ['.', '.'] then some .up
  else some (.name (String.ofList piece))

/-- The parts of a path. -/
def parts (p : Path) : List Part :=
  let ps := pieces p.text.toList
  let front : List Part :=
    match ps with
    | [] :: _ :: _ => [.root]
    | ['.'] :: _ => [.here]
    | _ => []
  front ++ ps.filterMap part?

/-- Starts at the root. -/
def isAbsolute (p : Path) : Bool := p.text.toList.head? == some '/'

/-- The last part, if it is a name. -/
def fileName? (p : Path) : Option String :=
  match p.parts.getLast? with
  | some (.name s) => some s
  | _ => none

/-- A name at its last dot: what is before it, and what is after it if there is
    a dot that does not come first. -/
def splitExtension (s : String) : String × Option String :=
  let (after, before) := s.toList.reverse.span (· ≠ '.')
  match before with
  | [] => (s, none)
  | [_] => (s, none)
  | _ :: stem => (String.ofList stem.reverse, some (String.ofList after.reverse))

/-- The last name without its extension. -/
def fileStem? (p : Path) : Option String := p.fileName?.map fun s => (splitExtension s).1

/-- Says nothing behind another piece. -/
def isIdle (piece : List Char) : Bool := piece = [] || piece = ['.']

/-- Pieces without the idle ones at the end; the first piece stays. -/
def trimPieces : List (List Char) → List (List Char)
  | [] => []
  | first :: rest => first :: (rest.reverse.dropWhile isIdle).reverse

/-- The path of the directory that holds the last part; none for the root and
    for a path that names nothing. -/
def parent? (p : Path) : Option Path :=
  match trimPieces (pieces p.text.toList) with
  | [] => none
  | [[]] => none
  | ps =>
    match trimPieces ps.dropLast with
    | [[]] => some ⟨"/"⟩
    | qs => some ⟨String.ofList (List.intercalate ['/'] qs)⟩

/-- A path below another; an absolute path replaces it. -/
def join (p q : Path) : Path :=
  if q.isAbsolute || p.text.isEmpty then q
  else if p.text.toList.getLast? == some '/' then ⟨p.text ++ q.text⟩
  else ⟨p.text ++ "/" ++ q.text⟩

end Path

end Logbook
