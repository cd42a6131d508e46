import Logbook.Template.Style
import Mathlib.Data.List.TakeWhile

/-! # One template in three spellings

    A template says which texts and which fields follow one another.  Each style has its
    own way to write that down: it marks a field in its way, and writes twice the
    characters that would otherwise be taken for such a mark.

    Whatever the texts, each style reads back what it has written: the same characters
    and the same fields in the same order, each field to be written as it stands.
-/

namespace Logbook

namespace Template

/-- A part of a template in no particular style: a text, or the name of a field. -/
inductive Part where
  | text (s : String)
  | field (name : String)
  deriving Repr, DecidableEq

/-- The steps by which a part is read, whatever its style. -/
def Part.segments : Part → List (Segment String)
  | .text s => s.toList.map .char
  | .field name => [.field name]

/-- A step with another kind of field. -/
def Segment.withField {α : Type} (field : String → α) : Segment String → Segment α
  | .char c => .char c
  | .field name => .field (field name)

end Template

namespace Style

open Template

/-- The characters that a style writes twice. -/
def isMark : Style → Char → Bool
  | percent, c => c = '%'
  | brace, c => c = '\x7b' || c = '\x7d'
  | dollar, c => c = '$'

/-- A character of a text, as a style writes it. -/
def spellChar (style : Style) (c : Char) : List Char := if style.isMark c then [c, c] else [c]

/-- A field, as a style writes it. -/
def spellField (style : Style) (name : List Char) : List Char :=
  match style with
  | percent => '%' :: '(' :: name ++ [')', 's']
  | brace => '\x7b' :: name ++ ['\x7d']
  | dollar => '$' :: '\x7b' :: name ++ ['\x7d']

/-- A part of a template, as a style writes it. -/
def spellPart (style : Style) : Part → List Char
  | .text s => s.toList.flatMap style.spellChar
  | .field name => style.spellField name.toList

/-- A step of reading, as a style writes what is read by it. -/
def spellSegment (style : Style) : Segment String → List Char
  | .char c => style.spellChar c
  | .field name => style.spellField name.toList

/-- A template, as a style writes it. -/
def spell (style : Style) (parts : List Part) : String :=
  String.ofList (parts.flatMap style.spellPart)

/-- A field with the rule by which a style writes the value as it stands. -/
def plainField (style : Style) (name : String) : Field :=
  match style with
  | percent => ⟨name, .conversion { key? := some name, kind := .s }⟩
  | brace => ⟨name, .field {}⟩
  | dollar => ⟨name, .plain⟩

example : percent.spell [.text "100% ", .field "name"] = "100%% %(name)s" := by decide

example : brace.spell [.text "\x7ba\x7d", .field "name"] = "\x7b\x7ba\x7d\x7d\x7bname\x7d" := by
  decide

example : dollar.spell [.text "$", .field "name"] = "$$$\x7bname\x7d" := by decide

/-- The rule of a plain field writes the text of every value. -/
theorem render_plainField (style : Style) (name : String) (v : Value) :
    (style.plainField name).rule.render v = .ok v.text.toList := by
  -- No flags, no width and no precision, so nothing is cut or padded.
  cases style with
  | percent =>
    simp [plainField, Rule.render, Conversion.render, Conversion.write, Written.pad, cut, Except.map]
  | brace =>
    have htext : ({} : FieldSpec).textBody v = v.text.toList := by
      simp [FieldSpec.textBody, cut]
    have hpad : ∀ numeric, ({} : FieldSpec).pad numeric v.text.toList = v.text.toList := by
      intro numeric
      cases numeric <;> simp [FieldSpec.pad, FieldSpec.layout]
    simp [plainField, Rule.render, FieldSpec.render, FieldSpec.body, htext, hpad, Except.map]
  | dollar => rfl

end Style

namespace Template

variable {name : List Char} {c : Char} {segs : List (Segment String)}

/-! ## Characters of names -/

/-- A name is made of letters, digits and underscores. -/
theorem mem_identifier (h : isIdentifier name = true) (hc : c ∈ name) :
    c = '_' ∨ c.isAlphanum = true := by
  cases name with
  | nil => cases hc
  | cons d ds =>
    simp only [isIdentifier, Bool.and_eq_true, Bool.or_eq_true, decide_eq_true_eq,
      List.all_eq_true] at h
    rcases List.mem_cons.mp hc with rfl | hin
    · rcases h.1 with heq | halpha
      · exact .inl heq
      · exact .inr (by simp [Char.isAlphanum, halpha])
    · exact h.2 c hin

/-- Any other character is in no name. -/
theorem not_mem_identifier (h : isIdentifier name = true) (hc : c ≠ '_' ∧ c.isAlphanum = false) :
    c ∉ name := by
  intro hin
  rcases mem_identifier h hin with heq | halnum
  · exact hc.1 heq
  · rw [hc.2] at halnum
    cases halnum

/-! ## Reading back -/

/-- **Reads back**: a reader takes each character of a text and each field as a style has
    written it, whatever comes after. -/
structure ReadsBack {α : Type} (style : Style)
    (read : List Char → Except Fault (List (Segment α))) (field : String → α) : Prop where
  nil : read [] = .ok []
  char : ∀ c rest, read (style.spellChar c ++ rest) = (read rest).map (.char c :: ·)
  field : ∀ name rest, isIdentifier name.toList = true →
    read (style.spellField name.toList ++ rest) = (read rest).map (.field (field name) :: ·)

/-- A reader that reads back each step reads back a whole template. -/
theorem ReadsBack.segments {α : Type} {style : Style}
    {read : List Char → Except Fault (List (Segment α))} {field : String → α}
    (h : ReadsBack style read field)
    (hnames : ∀ name, .field name ∈ segs → isIdentifier name.toList = true) :
    read (segs.flatMap style.spellSegment) = .ok (segs.map (.withField field)) := by
  -- The reader takes one spelled segment at a time and leaves the spelling of the others.
  induction segs with
  | nil => exact h.nil
  | cons seg segs ih =>
    have hrest := ih fun name hname => hnames name (List.mem_cons_of_mem _ hname)
    rw [List.flatMap_cons, List.map_cons]
    cases seg with
    | char c =>
      rw [Style.spellSegment, h.char, hrest]
      rfl
    | field name =>
      rw [Style.spellSegment, h.field name _ (hnames name List.mem_cons_self), hrest]
      rfl

/-! ### Percent -/

/-- A key without parentheses ends at the first one that closes. -/
theorem keyBody_append (hopen : '(' ∉ name) (hclose : ')' ∉ name) (rest : List Char) :
    keyBody 0 (name ++ ')' :: rest) = some (name, rest) := by
  induction name with
  | nil => rfl
  | cons c name ih =>
    obtain ⟨hc, hopen⟩ := not_or.mp (mt List.mem_cons.mpr hopen)
    obtain ⟨hc', hclose⟩ := not_or.mp (mt List.mem_cons.mpr hclose)
    rw [List.cons_append, keyBody, ih hopen hclose]
    · rfl
    · exact fun heq => hc heq.symm
    · exact fun _ heq => hc' heq.symm
    · exact fun _ _ heq => hc' heq.symm

/-- A key and the letter `s` are a plain conversion. -/
theorem readConversion_plain (total : Nat) (h : isIdentifier name = true) (rest : List Char) :
    readConversion total ('(' :: name ++ ')' :: 's' :: rest) =
      .ok ({ key? := some (String.ofList name), kind := .s }, rest) := by
  have hkey := keyBody_append (not_mem_identifier h (by decide)) (not_mem_identifier h (by decide))
    ('s' :: rest)
  have hspec : ∀ key?, readSpec total key? ('s' :: rest) = .ok ({ key?, kind := .s }, rest) :=
    fun _ => rfl
  rw [List.cons_append, readConversion, hkey]
  exact hspec _

/-- Percent templates are read back. -/
theorem readsBack_percent (total : Nat) :
    ReadsBack .percent (percentSegments total) fun name => { key? := some name, kind := .s } where
  nil := by rw [percentSegments]
  char c rest := by
    -- The mark is written twice, all else as it is.
    by_cases hc : c = '%'
    · subst hc
      have hspell : Style.percent.spellChar '%' = ['%', '%'] := rfl
      rw [hspell, List.cons_append, List.singleton_append, percentSegments]
    · have hspell : Style.percent.spellChar c = [c] := by
        simp [Style.spellChar, Style.isMark, hc]
      rw [hspell, List.singleton_append, percentSegments]
      · exact fun _ heq => absurd heq hc
      · exact fun heq => absurd heq hc
  field name rest hname := by
    have hread := readConversion_plain total hname rest
    have hspell : Style.percent.spellField name.toList ++ rest =
        '%' :: ('(' :: name.toList ++ ')' :: 's' :: rest) := by
      simp [Style.spellField]
    rw [hspell, percentSegments]
    · split
      · next heq =>
        rw [hread] at heq
        cases heq
      · next heq =>
        rw [hread] at heq
        cases heq
        rw [String.ofList_toList]
    · intro _ heq
      cases heq

/-! ### Braces -/

/-- The text of a field without braces ends at the first one that closes. -/
theorem fieldBody_append (hopen : '\x7b' ∉ name) (hclose : '\x7d' ∉ name) (rest : List Char) :
    fieldBody (name ++ '\x7d' :: rest) = .ok (name, rest) := by
  induction name with
  | nil => rfl
  | cons c name ih =>
    obtain ⟨hc, hopen⟩ := not_or.mp (mt List.mem_cons.mpr hopen)
    obtain ⟨hc', hclose⟩ := not_or.mp (mt List.mem_cons.mpr hclose)
    rw [List.cons_append, fieldBody, ih hopen hclose]
    · rfl
    · exact fun heq => hc' heq.symm
    · exact fun heq => hc heq.symm

/-- A text without a mark is not split. -/
theorem splitFirst_of_not_mem {mark : Char} (h : mark ∉ name) :
    splitFirst mark name = (name, none) := by
  have hall : name.dropWhile (· ≠ mark) = [] := by
    rw [List.dropWhile_eq_nil_iff]
    intro c hc
    simpa using fun heq : c = mark => h (heq ▸ hc)
  rw [splitFirst, hall]

/-- A name alone is a plain field. -/
theorem readField_plain (h : isIdentifier name = true) :
    readField name = .ok ⟨String.ofList name, {}⟩ := by
  have hcolon := splitFirst_of_not_mem (not_mem_identifier (c := ':') h (by decide))
  have hbang := splitFirst_of_not_mem (not_mem_identifier (c := '!') h (by decide))
  have hspec : readFieldSpec [] = .ok {} := rfl
  simp [readField, hcolon, hbang, h, hspec]

/-- Brace templates are read back. -/
theorem readsBack_brace : ReadsBack .brace braceSegments fun name => ⟨name, {}⟩ where
  nil := by rw [braceSegments]
  char c rest := by
    -- Either brace is written twice, so a single one is never met here.
    by_cases hopen : c = '\x7b'
    · subst hopen
      have hspell : Style.brace.spellChar '\x7b' = ['\x7b', '\x7b'] := rfl
      rw [hspell, List.cons_append, List.singleton_append, braceSegments]
    · by_cases hclose : c = '\x7d'
      · subst hclose
        have hspell : Style.brace.spellChar '\x7d' = ['\x7d', '\x7d'] := rfl
        rw [hspell, List.cons_append, List.singleton_append, braceSegments]
      · have hspell : Style.brace.spellChar c = [c] := by
          simp [Style.spellChar, Style.isMark, hopen, hclose]
        rw [hspell, List.singleton_append, braceSegments]
        · exact fun _ heq => absurd heq hopen
        · exact fun heq => absurd heq hopen
        · exact fun _ heq => absurd heq hclose
        · exact fun heq => absurd heq hclose
  field name rest hname := by
    have hopen : '\x7b' ∉ name.toList := not_mem_identifier hname (by decide)
    have hbody := fieldBody_append hopen (not_mem_identifier hname (by decide)) rest
    have hspell : Style.brace.spellField name.toList ++ rest =
        '\x7b' :: (name.toList ++ '\x7d' :: rest) := by
      simp [Style.spellField]
    rw [hspell, braceSegments]
    · split
      · next heq =>
        rw [hbody] at heq
        cases heq
      · next heq =>
        rw [hbody] at heq
        cases heq
        rw [readField_plain hname, String.ofList_toList]
    · -- A name is not empty and has no brace, so no second brace follows the first.
      intro _ heq
      cases hlist : name.toList with
      | nil =>
        rw [hlist] at hname
        cases hname
      | cons c cs =>
        rw [hlist, List.cons_append] at heq
        exact hopen (hlist ▸ (List.cons.inj heq).1 ▸ List.mem_cons_self)

/-! ### Dollar signs -/

/-- A placeholder without a brace in it ends at the first one that closes. -/
theorem placeholderBody_append (hclose : '\x7d' ∉ name) (rest : List Char) :
    placeholderBody (name ++ '\x7d' :: rest) = some (name, rest) := by
  induction name with
  | nil => rfl
  | cons c name ih =>
    obtain ⟨hc, hclose⟩ := not_or.mp (mt List.mem_cons.mpr hclose)
    rw [List.cons_append, placeholderBody, ih hclose]
    · rfl
    · exact fun heq => hc heq.symm

/-- Dollar templates are read back. -/
theorem readsBack_dollar : ReadsBack .dollar dollarSegments id where
  nil := by rw [dollarSegments]
  char c rest := by
    -- Only the mark itself is doubled; a brace without it is a text.
    by_cases hc : c = '$'
    · subst hc
      have hspell : Style.dollar.spellChar '$' = ['$', '$'] := rfl
      rw [hspell, List.cons_append, List.singleton_append, dollarSegments]
    · have hspell : Style.dollar.spellChar c = [c] := by
        simp [Style.spellChar, Style.isMark, hc]
      rw [hspell, List.singleton_append, dollarSegments]
      · exact fun _ heq => absurd heq hc
      · exact fun _ heq => absurd heq hc
      · exact fun _ _ heq => absurd heq hc
      · exact fun heq => absurd heq hc
  field name rest hname := by
    have hbody := placeholderBody_append (not_mem_identifier hname (c := '\x7d') (by decide)) rest
    have hspell : Style.dollar.spellField name.toList ++ rest =
        '$' :: '\x7b' :: (name.toList ++ '\x7d' :: rest) := by
      simp [Style.spellField]
    rw [hspell, dollarSegments]
    split
    · next heq =>
      rw [hbody] at heq
      cases heq
    · next heq =>
      rw [hbody] at heq
      cases heq
      rw [if_pos hname, String.ofList_toList, id]

/-! ## Pieces -/

variable {α β : Type}

/-- Characters that are merged do not matter to what is done with the fields. -/
theorem mapFields_consChar (f : α → Except Fault β) (c : Char) (ps : List (Piece α)) :
    mapFields f (consChar c ps) = (mapFields f ps).map (consChar c) := by
  -- Whether the character starts a literal or joins one depends on the first piece.
  cases ps with
  | nil => rfl
  | cons p ps =>
    cases p with
    | literal text =>
      rw [consChar, mapFields, mapFields]
      cases mapFields f ps <;> rfl
    | field a =>
      rw [consChar, mapFields, mapFields]
      · cases f a with
        | error e => rfl
        | ok b => cases mapFields f ps <;> rfl
      · exact fun _ _ heq => by cases heq

/-- Fields that are all taken for others. -/
theorem mapFields_merge {f : α → Except Fault β} {a : String → α} {b : String → β}
    (h : ∀ name, f (a name) = .ok (b name)) (segs : List (Segment String)) :
    mapFields f (merge (segs.map (.withField a))) = .ok (merge (segs.map (.withField b))) := by
  induction segs with
  | nil => rfl
  | cons seg segs ih =>
    cases seg with
    | char c =>
      have hcons : mapFields f (consChar c (merge (segs.map (.withField a)))) =
          .ok (consChar c (merge (segs.map (.withField b)))) := by
        rw [mapFields_consChar, ih]
        rfl
      exact hcons
    | field name =>
      have hcons : mapFields f (.field (a name) :: merge (segs.map (.withField a))) =
          .ok (.field (b name) :: merge (segs.map (.withField b))) := by
        rw [mapFields, h, ih]
        rfl
      exact hcons

end Template

namespace Style

open Template

variable (style : Style) {parts : List Part}

/-- A template is spelled step by step. -/
theorem toList_spell (parts : List Part) :
    (style.spell parts).toList = (parts.flatMap Part.segments).flatMap style.spellSegment := by
  have hpart : ∀ p : Part, style.spellPart p = p.segments.flatMap style.spellSegment := by
    intro p
    cases p with
    | text s => simp [spellPart, Part.segments, spellSegment, List.flatMap_map]
    | field name => simp [spellPart, Part.segments, spellSegment]
  rw [spell, String.toList_ofList, List.flatMap_assoc]
  exact congrArg (List.flatMap · parts) (funext hpart)

/-- **A template is read back** in every style: its texts character by character, and its
    fields with the rule that writes a value as it stands. -/
theorem fragments_spell (hnames : ∀ name, .field name ∈ parts → isIdentifier name.toList = true) :
    style.fragments (style.spell parts) =
      .ok (merge ((parts.flatMap Part.segments).map (.withField style.plainField))) := by
  have hfields : ∀ name, .field name ∈ parts.flatMap Part.segments →
      isIdentifier name.toList = true := by
    intro name hname
    obtain ⟨p, hp, hin⟩ := List.mem_flatMap.mp hname
    cases p with
    | text s => simp [Part.segments] at hin
    | field name' =>
      obtain rfl : name = name' := by simpa [Part.segments] using hin
      exact hnames name hp
  -- Each style has its own reader; what is read is turned into rules field by field.
  cases style with
  | percent =>
    have hread := (readsBack_percent (Text.byteLength (percent.spell parts).toList)).segments hfields
    rw [← toList_spell] at hread
    rw [fragments, percentPieces, hread]
    exact mapFields_merge (f := ofConversion) (b := percent.plainField) (fun _ => rfl) _
  | brace =>
    have hread := readsBack_brace.segments hfields
    rw [← toList_spell] at hread
    rw [fragments, bracePieces, hread]
    exact mapFields_merge (a := fun name => (⟨name, {}⟩ : BraceField)) (b := brace.plainField)
      (f := fun field : BraceField => .ok ⟨field.name, .field field.spec⟩) (fun _ => rfl) _
  | dollar =>
    have hread := readsBack_dollar.segments hfields
    rw [← toList_spell] at hread
    rw [fragments, dollarPieces, hread]
    exact mapFields_merge (a := id) (b := dollar.plainField) (fun _ => rfl) _

end Style

end Logbook
