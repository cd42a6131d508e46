import Logbook.Template.BraceField

/-! # Dollar placeholders

    A placeholder is a dollar sign and an identifier, in braces or not.  Two
    dollar signs stand for one.
-/

namespace Logbook.Template

/-- The text up to the closing brace of a placeholder, and what follows it. -/
def placeholderBody : List Char → Option (List Char × List Char)
  | [] => none
  | '\x7d' :: rest => some ([], rest)
  | c :: rest => (placeholderBody rest).map fun (text, r) => (c :: text, r)

/-- A placeholder takes at least its closing brace, so reading a template ends. -/
theorem placeholderBody_length {s text r : List Char}
    (h : placeholderBody s = some (text, r)) : r.length < s.length := by
  fun_induction placeholderBody s generalizing text r with
  | case1 => simp at h
  | case2 rest =>
    obtain ⟨rfl, rfl⟩ := Prod.mk.inj (Option.some.inj h)
    simp
  | case3 c rest _ ih =>
    obtain ⟨⟨text', r'⟩, hb, he⟩ := Option.map_eq_some_iff.1 h
    obtain ⟨rfl, rfl⟩ := Prod.mk.inj he
    have := ih hb
    simp only [List.length_cons]
    omega

/-- A letter, a digit or an underscore. -/
def isNameChar (c : Char) : Bool := c = '_' || c.isAlphanum

/-- The segments of a dollar template; a field is the name it shows. -/
def dollarSegments : List Char → Except Fault (List (Segment String))
  | [] => .ok []
  | '$' :: '$' :: rest => (dollarSegments rest).map (.char '$' :: ·)
  | '$' :: '\x7b' :: rest =>
    match _h : placeholderBody rest with
    | none => .error .openPlaceholder
    | some (name, rest') =>
      if isIdentifier name then
        (dollarSegments rest').map (.field (String.ofList name) :: ·)
      else .error (.badPlaceholder (String.ofList name))
  | '$' :: c :: rest =>
    if c = '_' || c.isAlpha then
      (dollarSegments (rest.dropWhile isNameChar)).map
        (.field (String.ofList (c :: rest.takeWhile isNameChar)) :: ·)
    else .error .bareMark
  | ['$'] => .error .bareMark
  | c :: rest => (dollarSegments rest).map (.char c :: ·)
termination_by s => s.length
decreasing_by
  · simp only [List.length_cons]; omega
  · have := placeholderBody_length (by assumption)
    simp only [List.length_cons]; omega
  · have := (List.dropWhile_sublist isNameChar (l := rest)).length_le
    simp only [List.length_cons]; omega
  · simp only [List.length_cons]; omega

/-- A dollar template as literals and names. -/
def dollarPieces (template : String) : Except Fault (List (Piece String)) :=
  (dollarSegments template.toList).map merge

end Logbook.Template
