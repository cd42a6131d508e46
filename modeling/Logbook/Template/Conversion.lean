import Logbook.Template.Piece
import Logbook.Text.Blank

/-! # Percent conversions

    The grammar of a conversion is

        % [ ( key ) ] flag* digit* [ . digit* ] size* kind

    where the key has balanced parentheses, the flags are `-`, `0`, `+`, blank
    and `#`, the sizes `h`, `l` and `L` mean nothing, and the kind is a letter.
    Two percent signs stand for one.
-/

namespace Logbook.Template

/-- The flags of a conversion. -/
structure Flags where
  left : Bool := false
  zero : Bool := false
  plus : Bool := false
  space : Bool := false
  alt : Bool := false
  deriving Repr, DecidableEq

/-- The letter of a conversion. -/
inductive Kind where
  | s | r | a | c | d | i | u | o | x | X | e | E | f | F | g | G
  deriving Repr, DecidableEq

namespace Kind

/-- All kinds. -/
def all : List Kind := [s, r, a, c, d, i, u, o, x, X, e, E, f, F, g, G]

/-- The letter of a kind. -/
def letter : Kind → Char
  | s => 's' | r => 'r' | a => 'a' | c => 'c' | d => 'd' | i => 'i' | u => 'u' | o => 'o'
  | x => 'x' | X => 'X' | e => 'e' | E => 'E' | f => 'f' | F => 'F' | g => 'g' | G => 'G'

/-- The kind with a letter. -/
def ofLetter? (ch : Char) : Option Kind := all.find? fun k => k.letter == ch

/-- Every kind is read back from its letter. -/
theorem ofLetter?_letter (k : Kind) : ofLetter? k.letter = some k := by
  cases k <;> rfl

/-- A letter that is read is the letter of what it is read as. -/
theorem letter_of_ofLetter? {ch : Char} {k : Kind} (h : ofLetter? ch = some k) :
    k.letter = ch := by
  have hk := List.find?_some h
  simpa using hk

end Kind

/-- How a value is to be written. -/
structure Conversion where
  key? : Option String := none
  flags : Flags := {}
  width? : Option Nat := none
  precision? : Option Nat := none
  kind : Kind
  deriving Repr, DecidableEq

/-! ## Reading -/

/-- The characters of a key up to the parenthesis that closes it, and what
    follows; `depth` parentheses are open inside the key. -/
def keyBody : Nat → List Char → Option (List Char × List Char)
  | _, [] => none
  | depth, '(' :: rest => (keyBody (depth + 1) rest).map fun (k, r) => ('(' :: k, r)
  | 0, ')' :: rest => some ([], rest)
  | depth + 1, ')' :: rest => (keyBody depth rest).map fun (k, r) => (')' :: k, r)
  | depth, c :: rest => (keyBody depth rest).map fun (k, r) => (c :: k, r)

/-- One of the flag characters. -/
def isFlag (c : Char) : Bool := c = '-' || c = '0' || c = '+' || c = ' ' || c = '#'

/-- One of the size letters. -/
def isSize (c : Char) : Bool := c = 'h' || c = 'l' || c = 'L'

/-- The flags that a run of flag characters sets. -/
def Flags.ofChars (cs : List Char) : Flags :=
  { left := cs.contains '-', zero := cs.contains '0', plus := cs.contains '+',
    space := cs.contains ' ', alt := cs.contains '#' }

/-- The precision in front of a text, and what follows it.  A point alone means
    zero, and so does a precision that does not fit in 64 bits. -/
def readPrecision : List Char → Option Nat × List Char
  | '.' :: rest =>
    (some ((digits64? (rest.takeWhile Char.isDigit)).getD 0), rest.dropWhile Char.isDigit)
  | rest => (none, rest)

/-- The part of a conversion after its key, and what follows the conversion.
    `total` is the byte length of the whole template, from which the place of a
    letter that is no kind is computed. -/
def readSpec (total : Nat) (key? : Option String) (s : List Char) :
    Except Fault (Conversion × List Char) :=
  let flags := Flags.ofChars (s.takeWhile isFlag)
  let s := s.dropWhile isFlag
  if s.head? = some '*' then .error .starWidth
  else
    let width? := digits64? (s.takeWhile Char.isDigit)
    let (precision?, s) := readPrecision (s.dropWhile Char.isDigit)
    match s.dropWhile isSize with
    | [] => .error .incomplete
    | c :: rest =>
      match Kind.ofLetter? c with
      | some kind => .ok ({ key?, flags, width?, precision?, kind }, rest)
      | none => .error (.unsupported c (total - Text.byteLength (c :: rest)))

/-- The conversion after a percent sign, and what follows it. -/
def readConversion (total : Nat) : List Char → Except Fault (Conversion × List Char)
  | '(' :: rest =>
    match keyBody 0 rest with
    | none => .error .openKey
    | some (key, rest) => readSpec total (some (String.ofList key)) rest
  | s => readSpec total none s

/-! ## What is left after reading is shorter -/

theorem length_dropWhile_le {α : Type} (p : α → Bool) (s : List α) :
    (s.dropWhile p).length ≤ s.length :=
  (List.dropWhile_sublist p).length_le

theorem keyBody_length {depth : Nat} {s k r : List Char} (h : keyBody depth s = some (k, r)) :
    r.length < s.length := by
  fun_induction keyBody depth s generalizing k r with
  | case1 => simp at h
  | case2 depth rest ih =>
    obtain ⟨⟨k', r'⟩, hk, he⟩ := Option.map_eq_some_iff.1 h
    obtain ⟨rfl, rfl⟩ := Prod.mk.inj he
    have := ih hk
    simp only [List.length_cons]
    omega
  | case3 rest =>
    obtain ⟨rfl, rfl⟩ := Prod.mk.inj (Option.some.inj h)
    simp
  | case4 depth rest ih =>
    obtain ⟨⟨k', r'⟩, hk, he⟩ := Option.map_eq_some_iff.1 h
    obtain ⟨rfl, rfl⟩ := Prod.mk.inj he
    have := ih hk
    simp only [List.length_cons]
    omega
  | case5 depth c rest _ _ _ ih =>
    obtain ⟨⟨k', r'⟩, hk, he⟩ := Option.map_eq_some_iff.1 h
    obtain ⟨rfl, rfl⟩ := Prod.mk.inj he
    have := ih hk
    simp only [List.length_cons]
    omega

theorem readPrecision_length (s : List Char) : (readPrecision s).2.length ≤ s.length := by
  fun_cases readPrecision s with
  | case1 rest =>
    have := length_dropWhile_le Char.isDigit rest
    simp only [List.length_cons]
    omega
  | case2 => exact Nat.le_refl _

theorem readSpec_length {total : Nat} {key? : Option String} {s r : List Char} {c : Conversion}
    (h : readSpec total key? s = .ok (c, r)) : r.length < s.length := by
  have h₁ := length_dropWhile_le isFlag s
  have h₂ := length_dropWhile_le Char.isDigit (s.dropWhile isFlag)
  have h₃ := readPrecision_length ((s.dropWhile isFlag).dropWhile Char.isDigit)
  have h₄ := length_dropWhile_le isSize
    (readPrecision ((s.dropWhile isFlag).dropWhile Char.isDigit)).2
  simp only [readSpec] at h
  split at h
  · simp at h
  · split at h
    · simp at h
    · rename_i c' rest hs
      split at h
      · have hr : rest = r := (Prod.mk.inj (Except.ok.inj h)).2
        rw [hs, List.length_cons] at h₄
        subst hr
        omega
      · simp at h

/-- A conversion takes at least one character, so reading a template ends. -/
theorem readConversion_length {total : Nat} {s r : List Char} {c : Conversion}
    (h : readConversion total s = .ok (c, r)) : r.length < s.length := by
  unfold readConversion at h
  split at h
  · split at h
    · simp at h
    · rename_i hk
      have h₁ := keyBody_length hk
      have h₂ := readSpec_length h
      simp only [List.length_cons]
      omega
  · exact readSpec_length h

/-! ## Templates -/

/-- The segments of a percent template. -/
def percentSegments (total : Nat) : List Char → Except Fault (List (Segment Conversion))
  | [] => .ok []
  | '%' :: '%' :: rest => (percentSegments total rest).map (.char '%' :: ·)
  | '%' :: rest =>
    match _h : readConversion total rest with
    | .error f => .error f
    | .ok (c, rest') => (percentSegments total rest').map (.field c :: ·)
  | ch :: rest => (percentSegments total rest).map (.char ch :: ·)
termination_by s => s.length
decreasing_by
  · simp only [List.length_cons]; omega
  · have := readConversion_length (by assumption)
    simp only [List.length_cons]; omega
  · simp only [List.length_cons]; omega

/-- A percent template as literals and conversions. -/
def percentPieces (template : String) : Except Fault (List (Piece Conversion)) :=
  (percentSegments (Text.byteLength template.toList) template.toList).map merge

end Logbook.Template
