import Logbook.Template.Piece

/-! # Brace fields

    The grammar of a field is

        { name [ ! r|a|s ] [ : [[fill] align] [sign] [0] [width] [. precision] [kind] ] }

    where the name is an identifier, the alignment is one of `<`, `>`, `^` and
    `=`, and an alignment character in second place makes the first character
    the fill.  A brace that stands for itself is written twice.
-/

namespace Logbook.Template

/-- Where the padding of a field goes. -/
inductive Align where
  | left
  | right
  | center
  /-- Between the sign and the digits. -/
  | inside
  deriving Repr, DecidableEq

/-- The sign option of a field. -/
inductive SignOption where
  | plus
  | minus
  | space
  deriving Repr, DecidableEq

/-- The kind of a field. -/
inductive FieldKind where
  | s | d | b | x | X | o | e | E | f | F | g | G | percent
  deriving Repr, DecidableEq

/-- The rule by which a field is written. -/
structure FieldSpec where
  repr : Bool := false
  fill : Char := ' '
  align? : Option Align := none
  sign? : Option SignOption := none
  zero : Bool := false
  width? : Option Nat := none
  precision? : Option Nat := none
  kind? : Option FieldKind := none
  deriving Repr, DecidableEq

/-- A field of a brace template. -/
structure BraceField where
  name : String
  spec : FieldSpec
  deriving Repr, DecidableEq

/-! ## Reading a specifier -/

/-- The alignment that a sign asks for. -/
def Align.ofChar? : Char → Option Align
  | '<' => some .left
  | '>' => some .right
  | '^' => some .center
  | '=' => some .inside
  | _ => none

/-- The treatment of positive numbers that a sign asks for. -/
def SignOption.ofChar? : Char → Option SignOption
  | '+' => some .plus
  | '-' => some .minus
  | ' ' => some .space
  | _ => none

/-- The kind of presentation that a letter asks for. -/
def FieldKind.ofChar? : Char → Option FieldKind
  | 's' => some .s | 'd' => some .d | 'b' => some .b | 'x' => some .x | 'X' => some .X
  | 'o' => some .o | 'e' => some .e | 'E' => some .E | 'f' => some .f | 'F' => some .F
  | 'g' => some .g | 'G' => some .G | '%' => some .percent
  | _ => none

/-- The fill and the alignment in front of a specifier, and what follows them. -/
def readAlign (s : List Char) : Char × Option Align × List Char :=
  match s with
  | [] => (' ', none, [])
  | [c] =>
    match Align.ofChar? c with
    | some a => (' ', some a, [])
    | none => (' ', none, [c])
  | c :: d :: rest =>
    match Align.ofChar? d with
    | some a => (c, some a, rest)
    | none =>
      match Align.ofChar? c with
      | some a => (' ', some a, d :: rest)
      | none => (' ', none, c :: d :: rest)

/-- The sign option in front of a text, and what follows it. -/
def readSign : List Char → Option SignOption × List Char
  | [] => (none, [])
  | c :: rest =>
    match SignOption.ofChar? c with
    | some sign => (some sign, rest)
    | none => (none, c :: rest)

/-- The zero flag in front of a text, and what follows it. -/
def readZero : List Char → Bool × List Char
  | '0' :: rest => (true, rest)
  | s => (false, s)

/-- The precision of a field, and what follows it.  A point needs a digit. -/
def readFieldPrecision : List Char → Except Fault (Option Nat × List Char)
  | '.' :: rest =>
    let ds := rest.takeWhile Char.isDigit
    if ds.isEmpty then .error .missingPrecision
    else .ok (digits64? ds, rest.dropWhile Char.isDigit)
  | s => .ok (none, s)

/-- The kind in front of a text, and what follows it. -/
def readFieldKind : List Char → Option FieldKind × List Char
  | [] => (none, [])
  | c :: rest =>
    match FieldKind.ofChar? c with
    | some kind => (some kind, rest)
    | none => (none, c :: rest)

/-- A specifier. -/
def readFieldSpec (text : List Char) : Except Fault FieldSpec :=
  let (fill, align?, s) := readAlign text
  let (sign?, s) := readSign s
  let (zero, s) := readZero s
  let width? := digits64? (s.takeWhile Char.isDigit)
  match readFieldPrecision (s.dropWhile Char.isDigit) with
  | .error f => .error f
  | .ok (precision?, s) =>
    let (kind?, s) := readFieldKind s
    if s.isEmpty then .ok { fill, align?, sign?, zero, width?, precision?, kind? }
    else .error (.badSpecifier (String.ofList text))

/-! ## Reading a field -/

/-- A letter of the basic Latin alphabet or an underscore, and then also digits. -/
def isIdentifier : List Char → Bool
  | [] => false
  | c :: rest => (c = '_' || c.isAlpha) && rest.all fun c => c = '_' || c.isAlphanum

/-- A text at its first character `mark`: what is before it, and what is after it
    if it occurs. -/
def splitFirst (mark : Char) (s : List Char) : List Char × Option (List Char) :=
  match s.dropWhile (· ≠ mark) with
  | [] => (s, none)
  | _ :: after => (s.takeWhile (· ≠ mark), some after)

/-- The field between two braces. -/
def readField (text : List Char) : Except Fault BraceField :=
  let (head, spec?) := splitFirst ':' text
  let (name, conversion?) := splitFirst '!' head
  if !isIdentifier name then .error (.badName (String.ofList name))
  else
    match readFieldSpec (spec?.getD []) with
    | .error f => .error f
    | .ok spec =>
      match conversion? with
      | none => .ok ⟨String.ofList name, spec⟩
      | some c =>
        if c = ['r'] ∨ c = ['a'] then .ok ⟨String.ofList name, { spec with repr := true }⟩
        else if c = ['s'] then .ok ⟨String.ofList name, spec⟩
        else .error (.badConversion (String.ofList c))

/-- The text up to the closing brace of a field, and what follows the brace. -/
def fieldBody : List Char → Except Fault (List Char × List Char)
  | [] => .error .openField
  | '\x7d' :: rest => .ok ([], rest)
  | '\x7b' :: _ => .error .nestedBrace
  | c :: rest => (fieldBody rest).map fun (text, r) => (c :: text, r)

/-- A field takes at least its closing brace, so reading a template ends. -/
theorem fieldBody_length {s text r : List Char} (h : fieldBody s = .ok (text, r)) :
    r.length < s.length := by
  fun_induction fieldBody s generalizing text r with
  | case1 => simp at h
  | case2 rest =>
    obtain ⟨rfl, rfl⟩ := Prod.mk.inj (Except.ok.inj h)
    simp
  | case3 => simp at h
  | case4 c rest _ _ ih =>
    cases hb : fieldBody rest with
    | error f => simp [hb, Except.map] at h
    | ok p =>
      obtain ⟨text', r'⟩ := p
      simp only [hb, Except.map, Except.ok.injEq, Prod.mk.injEq] at h
      have := ih hb
      simp only [List.length_cons, ← h.2]
      omega

/-- The segments of a brace template. -/
def braceSegments : List Char → Except Fault (List (Segment BraceField))
  | [] => .ok []
  | '\x7b' :: '\x7b' :: rest => (braceSegments rest).map (.char '\x7b' :: ·)
  | '\x7b' :: rest =>
    match _h : fieldBody rest with
    | .error f => .error f
    | .ok (text, rest') =>
      match readField text with
      | .error f => .error f
      | .ok field => (braceSegments rest').map (.field field :: ·)
  | '\x7d' :: '\x7d' :: rest => (braceSegments rest).map (.char '\x7d' :: ·)
  | '\x7d' :: _ => .error .loneBrace
  | c :: rest => (braceSegments rest).map (.char c :: ·)
termination_by s => s.length
decreasing_by
  · simp only [List.length_cons]; omega
  · have := fieldBody_length (by assumption)
    simp only [List.length_cons]; omega
  · simp only [List.length_cons]; omega
  · simp only [List.length_cons]; omega

/-- A brace template as literals and fields. -/
def bracePieces (template : String) : Except Fault (List (Piece BraceField)) :=
  (braceSegments template.toList).map merge

end Logbook.Template
