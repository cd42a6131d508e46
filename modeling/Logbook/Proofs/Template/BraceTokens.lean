import Logbook.Proofs.Template.Merging
import Logbook.Proofs.Template.Specifiers
import Logbook.Proofs.Template.Spelling

/-! # Reading a brace template token by token

    A field ends at the first brace after the one that opens it, its specifier begins
    behind the first colon, and its name ends at the first exclamation mark before that.
    None of the three can be misled: a name holds no such character, and where a specifier
    may hold one, as a fill, reading has passed it by.

    A brace template is read exactly if it is a sequence of tokens, and then as what the
    tokens stand for.
-/

namespace Logbook.Template

/-! ## Names and splits -/

theorem isIdentifier_iff {name : List Char} : isIdentifier name = true ↔ Identifier name := by
  cases name with
  | nil => simp [isIdentifier, Identifier]
  | cons c rest => simp [isIdentifier, Identifier]

theorem splitFirst_append {mark : Char} {a : List Char} (h : mark ∉ a) (b : List Char) :
    splitFirst mark (a ++ mark :: b) = (a, some b) := by
  have hmark : ∀ c ∈ a, decide (c ≠ mark) = true := by
    intro c hc
    rw [decide_eq_true_iff]
    rintro rfl
    exact h hc
  obtain ⟨htake, hdrop⟩ := span_append (b := mark :: b) hmark (by simp)
  rw [splitFirst, htake, hdrop]

/-- A split text is put together at its mark, which the first part does not hold. -/
theorem text_of_splitFirst (mark : Char) (s : List Char) :
    mark ∉ (splitFirst mark s).1 ∧
      s = (splitFirst mark s).1 ++ (splitFirst mark s).2.elim [] (mark :: ·) := by
  by_cases hmem : mark ∈ s
  · obtain ⟨a, b, rfl, ha⟩ := List.eq_append_cons_of_mem hmem
    rw [splitFirst_append ha]
    exact ⟨ha, rfl⟩
  · rw [splitFirst_of_not_mem hmem]
    exact ⟨hmem, (List.append_nil s).symm⟩

/-! ## Braces in a field -/

theorem SpecifierText.ne_brace (x : SpecifierText) {c : Char} (hc : c ∈ x.text) :
    c ≠ '\x7b' ∧ c ≠ '\x7d' := by
  have halign : ∀ a : Align, a.char ≠ '\x7b' ∧ a.char ≠ '\x7d' := by
    intro a
    cases a <;> decide
  rw [text, unaligned, List.mem_append, List.mem_append] at hc
  rcases hc with hc | hc | hc
  · cases hx : x.align with
    | absent => simp [hx, AlignText.text] at hc
    | bare a =>
      obtain rfl : c = a.char := by simpa [hx, AlignText.text] using hc
      exact halign a
    | filled fill a hfill =>
      obtain rfl | rfl : c = fill ∨ c = a.char := by simpa [hx, AlignText.text] using hc
      · exact hfill
      · exact halign a
  · cases ho : x.sign? with
    | none => simp [ho] at hc
    | some o =>
      obtain rfl : c = o.char := by simpa [ho] using hc
      cases o <;> decide
  · -- Widths and precisions are digits, points or a letter.
    rcases x.mem_measures hc with hdigit | rfl | ⟨k, rfl⟩
    · constructor <;> (rintro rfl; exact absurd hdigit (by decide))
    · decide
    · cases k <;> decide

namespace BraceFieldText

variable (x : BraceFieldText)

/-- A character that cannot be in a name is not. -/
theorem not_mem_name {c : Char} (hc : c ≠ '_' ∧ c.isAlphanum = false) : c ∉ x.name :=
  not_mem_identifier (isIdentifier_iff.mpr x.name_identifier) hc

theorem ne_brace {c : Char} (hc : c ∈ x.body) : c ≠ '\x7b' ∧ c ≠ '\x7d' := by
  rw [body, head, List.mem_append, List.mem_append] at hc
  rcases hc with (hname | hshown) | hspec
  · -- Names are identifiers or digits.
    constructor
    · rintro rfl
      exact x.not_mem_name (by decide) hname
    · rintro rfl
      exact x.not_mem_name (by decide) hname
  · cases hm : x.shown? with
    | none => simp [hm] at hshown
    | some m =>
      obtain rfl | rfl : c = '!' ∨ c = m.letter := by simpa [hm] using hshown
      · decide
      · cases m <;> decide
  · cases hy : x.spec? with
    | none => simp [hy] at hspec
    | some y =>
      obtain rfl | hc : c = ':' ∨ c ∈ y.text := by simpa [hy] using hspec
      · decide
      · exact y.ne_brace hc

/-! ## Reading a field -/

/-- The specifier begins behind the first colon. -/
theorem splitFirst_body :
    splitFirst ':' x.body = (x.head, x.spec?.map SpecifierText.text) := by
  -- In front of the specifier stand a name and perhaps a mark, neither with a colon.
  have hcolon : ':' ∉ x.head := by
    rw [head, List.mem_append]
    rintro (hname | hshown)
    · exact x.not_mem_name (by decide) hname
    · cases hm : x.shown? with
      | none => simp [hm] at hshown
      | some m => cases m <;> simp [hm, Shown.letter] at hshown
  rw [body]
  cases x.spec? with
  | none =>
    show splitFirst ':' (x.head ++ []) = _
    rw [List.append_nil]
    exact splitFirst_of_not_mem hcolon
  | some y => exact splitFirst_append hcolon y.text

/-- The name ends at the first exclamation mark. -/
theorem splitFirst_head :
    splitFirst '!' x.head = (x.name, x.shown?.map fun m => [m.letter]) := by
  have hbang : '!' ∉ x.name := x.not_mem_name (by decide)
  rw [head]
  cases x.shown? with
  | none =>
    show splitFirst '!' (x.name ++ []) = _
    rw [List.append_nil]
    exact splitFirst_of_not_mem hbang
  | some m => exact splitFirst_append hbang [m.letter]

/-- **A field is read**, if a zero in front of its width is the zero flag. -/
theorem readField_body (hzero : x.ZeroIsFlag) : readField x.body = .ok x.decode := by
  have hname : isIdentifier x.name = true := isIdentifier_iff.mpr x.name_identifier
  have hspec : readFieldSpec ((x.spec?.map SpecifierText.text).getD []) =
      .ok (x.spec?.elim {} SpecifierText.decode) := by
    cases hy : x.spec? with
    | none => rfl
    | some y => exact y.readFieldSpec_text (hzero y hy)
  simp only [readField, x.splitFirst_body, x.splitFirst_head, hname, hspec, Bool.not_true,
    Bool.false_eq_true, if_false, decode]
  cases x.shown? with
  | none => cases x.spec? <;> rfl
  | some m => cases m <;> cases x.spec? <;> rfl

end BraceFieldText

/-- A specifier that is read, if there is one, is one. -/
theorem text_of_optionalSpec {spec? : Option (List Char)} {spec : FieldSpec}
    (hbrace : ∀ t ∈ spec?, '\x7b' ∉ t ∧ '\x7d' ∉ t)
    (h : readFieldSpec (spec?.getD []) = .ok spec) :
    ∃ y? : Option SpecifierText, (∀ y ∈ y?, y.ZeroIsFlag) ∧ spec? = y?.map SpecifierText.text ∧
      spec = y?.elim {} SpecifierText.decode := by
  cases spec? with
  | none => exact ⟨none, by simp, rfl, (Except.ok.inj h).symm⟩
  | some t =>
    obtain ⟨hopen, hclose⟩ := hbrace t rfl
    obtain ⟨y, hzero, rfl, rfl⟩ := text_of_readFieldSpec hopen hclose h
    refine ⟨some y, ?_, rfl, rfl⟩
    intro y' hy'
    obtain rfl := Option.mem_some_iff.mp hy'
    exact hzero

/-- **What is read as a field is one**, as long as no brace is in it. -/
theorem text_of_readField {s : List Char} {f : BraceField} (hopen : '\x7b' ∉ s)
    (hclose : '\x7d' ∉ s) (h : readField s = .ok f) :
    ∃ x : BraceFieldText, x.ZeroIsFlag ∧ s = x.body ∧ f = x.decode := by
  obtain ⟨-, hcolon⟩ := text_of_splitFirst ':' s
  obtain ⟨-, hbang⟩ := text_of_splitFirst '!' (splitFirst ':' s).1
  simp only [readField] at h
  generalize splitFirst ':' s = parts at *
  obtain ⟨head, spec?⟩ := parts
  generalize splitFirst '!' head = parts at *
  obtain ⟨name, shown?⟩ := parts
  simp only at h hcolon hbang
  split at h
  · cases h
  · next hname =>
    have hident : Identifier name := isIdentifier_iff.mp (by simpa using hname)
    split at h
    · cases h
    · next spec hspec =>
      have hbrace : ∀ t ∈ spec?, '\x7b' ∉ t ∧ '\x7d' ∉ t := by
        rintro t ht
        rw [hcolon, Option.mem_def.mp ht] at hopen hclose
        constructor
        · exact fun hin => hopen (by simp [hin])
        · exact fun hin => hclose (by simp [hin])
      obtain ⟨y?, hzero, rfl, rfl⟩ := text_of_optionalSpec hbrace hspec
      -- The field is put together from its name, the letter behind the mark, and the specifier.
      have hfield : ∀ m? : Option Shown, shown? = m?.map (fun m => [m.letter]) →
          f = ⟨String.ofList name, { y?.elim {} SpecifierText.decode with
            repr := m?.elim false Shown.isVisible }⟩ →
          ∃ x : BraceFieldText, x.ZeroIsFlag ∧ s = x.body ∧ f = x.decode := by
        rintro m? rfl rfl
        let x : BraceFieldText := { name, shown? := m?, spec? := y?, name_identifier := hident }
        refine ⟨x, hzero, ?_, rfl⟩
        rw [hcolon, hbang, BraceFieldText.body, BraceFieldText.head]
        cases m? <;> cases y? <;> rfl
      split at h
      · refine hfield none rfl ?_
        rw [← Except.ok.inj h]
        cases y? <;> rfl
      · next letters =>
        split at h
        · next hletters =>
          rcases hletters with rfl | rfl
          · exact hfield (some .r) rfl (Except.ok.inj h).symm
          · exact hfield (some .a) rfl (Except.ok.inj h).symm
        · split at h
          · next hletters =>
            subst hletters
            refine hfield (some .s) rfl ?_
            rw [← Except.ok.inj h]
            cases y? <;> rfl
          · cases h

/-! ## Reading tokens -/

/-- What is read up to the closing brace of a field stands in front of it. -/
theorem text_of_fieldBody {s text r : List Char} (h : fieldBody s = .ok (text, r)) :
    '\x7b' ∉ text ∧ '\x7d' ∉ text ∧ s = text ++ '\x7d' :: r := by
  fun_induction fieldBody s generalizing text r with
  | case1 => cases h
  | case2 rest =>
    obtain ⟨rfl, rfl⟩ := Prod.mk.inj (Except.ok.inj h)
    exact ⟨by simp, by simp, rfl⟩
  | case3 => cases h
  | case4 c rest hclose hopen ih =>
    cases hb : fieldBody rest with
    | error f => simp [hb, Except.map] at h
    | ok p =>
      obtain ⟨text', r'⟩ := p
      simp only [hb, Except.map, Except.ok.injEq, Prod.mk.injEq] at h
      obtain ⟨rfl, rfl⟩ := h
      obtain ⟨hopen', hclose', rfl⟩ := ih hb
      refine ⟨?_, ?_, rfl⟩
      · -- The character in front is no brace either, or the reading had ended there.
        simpa [hopen'] using fun heq : '\x7b' = c => hopen heq.symm
      · simpa [hclose'] using fun heq : '\x7d' = c => hclose heq.symm

/-- A field in braces is read as far as it goes. -/
theorem BraceFieldText.braceSegments_append (x : BraceFieldText) (hzero : x.ZeroIsFlag)
    (s : List Char) :
    braceSegments (x.text ++ s) = (braceSegments s).map (.field x.decode :: ·) := by
  have hbody : fieldBody (x.body ++ '\x7d' :: s) = .ok (x.body, s) :=
    fieldBody_append (fun h => (x.ne_brace h).1 rfl) (fun h => (x.ne_brace h).2 rfl) s
  have htext : x.text ++ s = '\x7b' :: (x.body ++ '\x7d' :: s) := by simp [text]
  rw [htext, braceSegments]
  · split
    · next heq =>
      rw [hbody] at heq
      cases heq
    · next heq =>
      rw [hbody] at heq
      cases heq
      rw [x.readField_body hzero]
  · -- The name comes first, so no second brace follows the first.
    intro rest heq
    rw [heq, fieldBody] at hbody
    cases hbody

theorem BraceToken.braceSegments_append (token : BraceToken)
    (hzero : ∀ x, token = .field x → x.ZeroIsFlag) (s : List Char) :
    braceSegments (token.text ++ s) = (braceSegments s).map (token.segment :: ·) := by
  cases token with
  | plain c hc =>
    have hspell : Style.brace.spellChar c = [c] := by
      simp [Style.spellChar, Style.isMark, hc]
    have hread := readsBack_brace.char c s
    rwa [hspell] at hread
  | opening => exact readsBack_brace.char '\x7b' s
  | closing => exact readsBack_brace.char '\x7d' s
  | field x => exact x.braceSegments_append (hzero x rfl) s

/-- A text is made of tokens that stand for given segments. -/
def BraceTokenizes (s : List Char) (segs : List (Segment BraceField)) : Prop :=
  ∃ tokens : List BraceToken, s = tokens.flatMap BraceToken.text ∧ ZerosAreFlags tokens ∧
    segs = tokens.map BraceToken.segment

theorem BraceTokenizes.cons {s : List Char} {segs : List (Segment BraceField)}
    (token : BraceToken) (hzero : ∀ x, token = .field x → x.ZeroIsFlag)
    (h : BraceTokenizes s segs) : BraceTokenizes (token.text ++ s) (token.segment :: segs) := by
  obtain ⟨tokens, rfl, hzeros, rfl⟩ := h
  refine ⟨token :: tokens, rfl, ?_, rfl⟩
  intro x hx
  rcases List.mem_cons.mp hx with heq | hx
  · exact hzero x heq.symm
  · exact hzeros x hx

/-- What is read behind an opening brace is a field and what follows it. -/
theorem field_of_braceSegments {rest : List Char} {segs : List (Segment BraceField)}
    (hne : ∀ s, rest = '\x7b' :: s → False) (h : braceSegments ('\x7b' :: rest) = .ok segs) :
    ∃ text rest' field segs', fieldBody rest = .ok (text, rest') ∧ readField text = .ok field ∧
      braceSegments rest' = .ok segs' ∧ segs = .field field :: segs' := by
  rw [braceSegments.eq_3 _ hne] at h
  split at h
  · cases h
  · next text rest' hbody =>
    split at h
    · cases h
    · next field hfield =>
      obtain ⟨segs', hrest, rfl⟩ := map_eq_ok_iff.mp h
      exact ⟨text, rest', field, segs', hbody, hfield, hrest, rfl⟩

/-- A template that is read is made of the tokens that it is read as. -/
theorem braceTokenizes_of_braceSegments {s : List Char} {segs : List (Segment BraceField)}
    (h : braceSegments s = .ok segs) : BraceTokenizes s segs := by
  induction s using braceSegments.induct generalizing segs with
  | case1 =>
    rw [braceSegments] at h
    obtain rfl := Except.ok.inj h
    exact ⟨[], rfl, fun _ hx => (List.not_mem_nil hx).elim, rfl⟩
  | case2 rest ih =>
    rw [braceSegments] at h
    obtain ⟨segs', hrest, rfl⟩ := map_eq_ok_iff.mp h
    exact (ih hrest).cons .opening fun _ heq => by cases heq
  -- A field that cannot be cut out or read is none of a template that is read.
  | case3 rest hne f hbody =>
    obtain ⟨text, rest', field, segs', hbody', -⟩ := field_of_braceSegments hne h
    rw [hbody] at hbody'
    cases hbody'
  | case4 rest hne text rest' hbody f hfield =>
    obtain ⟨text', rest'', field, segs', hbody', hfield', -⟩ := field_of_braceSegments hne h
    rw [hbody] at hbody'
    cases hbody'
    rw [hfield] at hfield'
    cases hfield'
  | case5 rest hne text rest' hbody field hfield ih =>
    obtain ⟨text', rest'', field', segs', hbody', hfield', hrest, rfl⟩ :=
      field_of_braceSegments hne h
    rw [hbody] at hbody'
    cases hbody'
    rw [hfield] at hfield'
    cases hfield'
    -- A field that is read can be written as it stands there.
    obtain ⟨hopen, hclose, rfl⟩ := text_of_fieldBody hbody
    obtain ⟨x, hzero, rfl, rfl⟩ := text_of_readField hopen hclose hfield
    have htokens : BraceTokenizes (x.text ++ rest') (.field x.decode :: segs') :=
      (ih hrest).cons (.field x) fun _ heq => BraceToken.field.inj heq ▸ hzero
    simpa [BraceFieldText.text] using htokens
  | case6 rest ih =>
    rw [braceSegments] at h
    obtain ⟨segs', hrest, rfl⟩ := map_eq_ok_iff.mp h
    exact (ih hrest).cons .closing fun _ heq => by cases heq
  | case7 rest hne =>
    rw [braceSegments.eq_5 _ hne] at h
    cases h
  | case8 c rest hne hopen hne' hclose ih =>
    rw [braceSegments.eq_6 _ _ hne hopen hne' hclose] at h
    obtain ⟨segs', hrest, rfl⟩ := map_eq_ok_iff.mp h
    exact (ih hrest).cons (.plain c ⟨hopen, hclose⟩) fun _ heq => by cases heq

/-- A sequence of tokens in which zeros in front of widths are flags is read as far as it
    goes. -/
theorem ZerosAreFlags.braceSegments_append {tokens : List BraceToken} (h : ZerosAreFlags tokens)
    (s : List Char) :
    braceSegments (tokens.flatMap BraceToken.text ++ s) =
      (braceSegments s).map (tokens.map BraceToken.segment ++ ·) := by
  refine read_flatMap ?_ s
  intro token htoken s
  exact token.braceSegments_append (fun x heq => h x (heq ▸ htoken)) s

/-- **A brace template is read as its tokens.** -/
theorem braceSegments_eq_ok_iff {s : List Char} {segs : List (Segment BraceField)} :
    braceSegments s = .ok segs ↔ BraceTokenizes s segs := by
  constructor
  · exact braceTokenizes_of_braceSegments
  · rintro ⟨tokens, rfl, hzeros, rfl⟩
    have hread := hzeros.braceSegments_append []
    rw [List.append_nil, braceSegments] at hread
    rw [hread, Except.map, List.append_nil]

/-! ## Zeros in front of a width -/

/-- The same specifier with a zero in front of its width as the zero flag. -/
def SpecifierText.zeroAsFlag (x : SpecifierText) : SpecifierText :=
  if x.zero = false ∧ x.width.head? = some '0' then
    { x with zero := true, width := x.width.tail,
             width_digit := fun c hc => x.width_digit c (List.mem_of_mem_tail hc) }
  else x

theorem SpecifierText.text_zeroAsFlag (x : SpecifierText) : x.zeroAsFlag.text = x.text := by
  rw [zeroAsFlag]
  split
  · next h =>
    obtain ⟨hzero, hhead⟩ := h
    obtain ⟨ds, hds⟩ := List.head?_eq_some_iff.mp hhead
    simp [text, unaligned, measures, tail, hzero, hds]
  · rfl

theorem SpecifierText.zeroIsFlag_zeroAsFlag (x : SpecifierText) : x.zeroAsFlag.ZeroIsFlag := by
  rw [zeroAsFlag]
  split
  · exact fun h => by cases h
  · next h => exact fun hzero hhead => h ⟨hzero, hhead⟩

/-- The same token with zeros in front of a width as zero flags. -/
def BraceToken.zeroAsFlag : BraceToken → BraceToken
  | field x => .field { x with spec? := x.spec?.map SpecifierText.zeroAsFlag }
  | token => token

theorem BraceToken.text_zeroAsFlag (token : BraceToken) : token.zeroAsFlag.text = token.text := by
  cases token with
  | plain c h => rfl
  | opening => rfl
  | closing => rfl
  | field x =>
    simp only [zeroAsFlag, text, BraceFieldText.text, BraceFieldText.body, BraceFieldText.head]
    cases x.spec? with
    | none => rfl
    | some y => simp [y.text_zeroAsFlag]

/-- Every sequence of tokens has a form in which zeros in front of widths are flags. -/
theorem exists_zerosAreFlags (tokens : List BraceToken) :
    ∃ tokens', ZerosAreFlags tokens' ∧
      tokens'.flatMap BraceToken.text = tokens.flatMap BraceToken.text := by
  refine ⟨tokens.map BraceToken.zeroAsFlag, ?_, ?_⟩
  · intro x hx
    obtain ⟨token, -, htoken⟩ := List.mem_map.mp hx
    cases token with
    | plain c h => cases htoken
    | opening => cases htoken
    | closing => cases htoken
    | field x' =>
      obtain rfl := BraceToken.field.inj htoken
      intro y hy
      obtain ⟨y', -, rfl⟩ := Option.map_eq_some_iff.mp hy
      exact y'.zeroIsFlag_zeroAsFlag
  · simp only [List.flatMap_map, BraceToken.text_zeroAsFlag]

/-! ## Reading templates -/

/-- A template is read exactly as its tokens with zeros in front of widths as flags. -/
theorem bracePieces_eq_ok_iff {t : String} {ps : List (Piece BraceField)} :
    bracePieces t = .ok ps ↔
      ∃ tokens : List BraceToken, t.toList = tokens.flatMap BraceToken.text ∧
        ZerosAreFlags tokens ∧ Merged ps ∧
        ps.flatMap Piece.segments = tokens.map BraceToken.segment := by
  rw [bracePieces, map_merge_eq_ok_iff, braceSegments_eq_ok_iff]
  constructor
  · rintro ⟨hmerged, tokens, htext, hzeros, hsegs⟩
    exact ⟨tokens, htext, hzeros, hmerged, hsegs⟩
  · rintro ⟨tokens, htext, hzeros, hmerged, hsegs⟩
    exact ⟨hmerged, tokens, htext, hzeros, hsegs⟩

/-- A sign of an alignment in second place makes the first character the fill. -/
theorem SpecifierText.fill_of_second (x : SpecifierText) {c : Char} {a : Align} {rest : List Char}
    (h : x.text = c :: a.char :: rest) : x.decode.fill = c ∧ x.decode.align? = some a := by
  have hread := x.readAlign_text
  rw [h, readAlign, a.ofChar?_char] at hread
  obtain ⟨hfill, halign, -⟩ : c = x.align.fill ∧ some a = x.align.align? ∧ rest = x.unaligned := by
    simpa using hread
  exact ⟨hfill.symm, halign.symm⟩

/-- **The grammar of brace templates.**  A template is read if it is a sequence of tokens, and
    not otherwise.  The pieces are then what the tokens stand for, in order, with neighbouring
    literals merged and no empty literal, where a zero in front of a width is the zero flag.
    A sign of an alignment in second place of a specifier always makes the first character
    the fill. -/
theorem bracePieces_grammar :
    (∀ t : String,
      ((∃ ps, bracePieces t = .ok ps) ↔
        ∃ tokens : List BraceToken, t.toList = tokens.flatMap BraceToken.text) ∧
      ∀ ps, bracePieces t = .ok ps ↔
        ∃ tokens : List BraceToken, t.toList = tokens.flatMap BraceToken.text ∧
          ZerosAreFlags tokens ∧ Merged ps ∧
          ps.flatMap Piece.segments = tokens.map BraceToken.segment) ∧
    ∀ (x : SpecifierText) (c : Char) (a : Align) (rest : List Char),
      x.text = c :: a.char :: rest → x.decode.fill = c ∧ x.decode.align? = some a := by
  refine ⟨?_, fun x c a rest h => x.fill_of_second h⟩
  intro t
  refine ⟨⟨?_, ?_⟩, fun ps => bracePieces_eq_ok_iff⟩
  · rintro ⟨ps, hps⟩
    obtain ⟨tokens, htext, -⟩ := bracePieces_eq_ok_iff.mp hps
    exact ⟨tokens, htext⟩
  · rintro ⟨tokens, htext⟩
    obtain ⟨tokens', hzeros, htext'⟩ := exists_zerosAreFlags tokens
    exact ⟨merge (tokens'.map BraceToken.segment), bracePieces_eq_ok_iff.mpr
      ⟨tokens', htext.trans htext'.symm, hzeros, eq_merge_iff.mp rfl⟩⟩

/-- Braces that stand for themselves around a field whose fill is itself a sign of an
    alignment, and a zero as a flag in front of a width. -/
theorem bracePieces_grammar_fill_of_align :
    let spec : SpecifierText :=
      { align := .filled '<' .right (by decide), sign? := some .plus, zero := true, width := ['8'],
        precision? := some ['3'], kind? := some .f, width_digit := by simp,
        precision_digit := by simp }
    bracePieces "\x7b\x7b\x7bx!r:<>+08.3f\x7d\x7d\x7d" =
        .ok [.literal ['\x7b'],
          .field ⟨"x", { repr := true, fill := '<', align? := some .right, sign? := some .plus,
                         zero := true, width? := some 8, precision? := some 3, kind? := some .f }⟩,
          .literal ['\x7d']] ∧
      spec.decode.fill = '<' ∧ spec.decode.align? = some .right := by
  intro spec
  let field : BraceFieldText :=
    { name := ['x'], shown? := some .r, spec? := some spec,
      name_identifier := isIdentifier_iff.mp (by decide) }
  refine ⟨?_, bracePieces_grammar.2 spec '<' .right _ rfl⟩
  refine ((bracePieces_grammar.1 _).2 _).mpr
    ⟨[.opening, .field field, .closing], by decide, ?_, ⟨by decide, by decide⟩, by decide⟩
  intro x hx
  obtain rfl : x = field := by simpa using hx
  intro y hy
  obtain rfl := Option.mem_some_iff.mp hy
  exact fun h => by cases h

end Logbook.Template
