import Logbook.Proofs.Template.BraceTokens
import Logbook.Template.Placeholder

/-! # The grammar of dollar templates

    A dollar template is a sequence of tokens: a character other than a dollar sign, two
    dollar signs, or a placeholder, which is a dollar sign and an identifier, in braces or
    not.  An identifier without braces is as long as it can be: no letter, digit or
    underscore follows it.

    What is read is made of such tokens.  The pieces do not tell whether a placeholder was
    written with braces; the tokens do.
-/

namespace Logbook.Template

/-- One step of a dollar template, as it is written. -/
inductive DollarToken where
  | plain (c : Char) (h : c ≠ '$')
  | mark
  | bare (name : List Char) (h : Identifier name)
  | braced (name : List Char) (h : Identifier name)

namespace DollarToken

/-- The characters of a token. -/
def text : DollarToken → List Char
  | plain c _ => [c]
  | mark => ['$', '$']
  | bare name _ => '$' :: name
  | braced name _ => '$' :: '\x7b' :: (name ++ ['\x7d'])

/-- What a token stands for. -/
def segment : DollarToken → Segment String
  | plain c _ => .char c
  | mark => .char '$'
  | bare name _ => .field (String.ofList name)
  | braced name _ => .field (String.ofList name)

end DollarToken

/-- No character of a name follows a placeholder without braces. -/
def LongestNames (tokens : List DollarToken) : Prop :=
  ∀ name h rest, .bare name h :: rest <:+ tokens →
    ∀ c ∈ (rest.flatMap DollarToken.text).head?, isNameChar c = false

/-- A text is made of tokens that stand for given segments. -/
def DollarTokenizes (s : List Char) (segs : List (Segment String)) : Prop :=
  ∃ tokens : List DollarToken, s = tokens.flatMap DollarToken.text ∧ LongestNames tokens ∧
    segs = tokens.map DollarToken.segment

namespace DollarTokenizes

variable {s : List Char} {segs : List (Segment String)} {name : List Char}

theorem nil : DollarTokenizes [] [] := by
  refine ⟨[], rfl, ?_, rfl⟩
  intro name h rest hsuffix
  cases List.suffix_nil.mp hsuffix

/-- A token in front of others; nothing of a name may follow a placeholder without
    braces. -/
theorem cons (token : DollarToken)
    (hend : ∀ name h, token = .bare name h → ∀ c ∈ s.head?, isNameChar c = false)
    (h : DollarTokenizes s segs) : DollarTokenizes (token.text ++ s) (token.segment :: segs) := by
  obtain ⟨tokens, rfl, hlongest, rfl⟩ := h
  refine ⟨token :: tokens, rfl, ?_, rfl⟩
  intro name hname rest hsuffix
  rcases List.suffix_cons_iff.mp hsuffix with heq | hin
  · obtain ⟨rfl, rfl⟩ := List.cons.inj heq
    exact hend name hname rfl
  · exact hlongest name hname rest hin

end DollarTokenizes

/-- What is read up to the closing brace of a placeholder stands in front of it. -/
theorem text_of_placeholderBody {s text r : List Char} (h : placeholderBody s = some (text, r)) :
    s = text ++ '\x7d' :: r := by
  fun_induction placeholderBody s generalizing text r with
  | case1 => cases h
  | case2 rest =>
    obtain ⟨rfl, rfl⟩ := Prod.mk.inj (Option.some.inj h)
    rfl
  | case3 c rest _ ih =>
    obtain ⟨⟨text', r'⟩, hbody, heq⟩ := Option.map_eq_some_iff.mp h
    obtain ⟨rfl, rfl⟩ := Prod.mk.inj heq
    rw [ih hbody, List.cons_append]

/-- A letter or an underscore with all characters of a name that follow is an identifier. -/
theorem identifier_cons_takeWhile {c : Char} (hc : (c = '_' || c.isAlpha) = true)
    (rest : List Char) : Identifier (c :: rest.takeWhile isNameChar) := by
  refine ⟨c, _, rfl, by simpa using hc, ?_⟩
  intro d hd
  have hname : isNameChar d = true := List.all_eq_true.mp List.all_takeWhile d hd
  simpa [isNameChar] using hname

/-- A template that is read is made of the tokens that it is read as. -/
theorem dollarTokenizes_of_dollarSegments {s : List Char} {segs : List (Segment String)}
    (h : dollarSegments s = .ok segs) : DollarTokenizes s segs := by
  fun_induction dollarSegments s generalizing segs with
  | case1 =>
    obtain rfl := Except.ok.inj h
    exact .nil
  | case2 rest ih =>
    obtain ⟨segs', hrest, rfl⟩ := map_eq_ok_iff.mp h
    exact (ih hrest).cons .mark fun _ _ heq => by cases heq
  | case3 => cases h
  | case4 rest name rest' hbody hname ih =>
    obtain ⟨segs', hrest, rfl⟩ := map_eq_ok_iff.mp h
    have htext : '$' :: '\x7b' :: rest = (DollarToken.braced name
        (isIdentifier_iff.mp hname)).text ++ rest' := by
      simp [DollarToken.text, text_of_placeholderBody hbody]
    rw [htext]
    exact (ih hrest).cons _ fun _ _ heq => by cases heq
  | case5 => cases h
  | case6 c rest _ _ hc ih =>
    -- As many letters as there are have been taken, so that none follows.
    obtain ⟨segs', hrest, rfl⟩ := map_eq_ok_iff.mp h
    have htext : '$' :: c :: rest = (DollarToken.bare _ (identifier_cons_takeWhile hc rest)).text ++
        rest.dropWhile isNameChar := by
      simp [DollarToken.text]
    rw [htext]
    exact (ih hrest).cons _ fun _ _ _ => head?_dropWhile
  | case7 => cases h
  | case8 => cases h
  | case9 c rest _ _ hcons hnil ih =>
    obtain ⟨segs', hrest, rfl⟩ := map_eq_ok_iff.mp h
    have hc : c ≠ '$' := by
      rintro rfl
      cases rest with
      | nil => exact hnil rfl rfl
      | cons d rest => exact hcons d rest rfl rfl
    exact (ih hrest).cons (.plain c hc) fun _ _ heq => by cases heq

end Logbook.Template
