import Logbook.Proofs.Template.BraceTokens
import Logbook.Proofs.Template.Tokens
import Logbook.Proofs.Template.Unsigned

/-! # One presentation in two styles

    A conversion puts zeros in front of the body of a number, while sign and body are still
    apart.  A field has only the text that a conversion without a width has made of the
    number, so it puts its zeros behind the signs and blanks that the text begins with.  The
    two places are one place, because no body begins with a sign or a blank.

    So a field without an alignment writes numbers as the conversion with the same letter
    does.  A field that is aligned to the left or to the right writes texts as a conversion
    with or without the flag `-`.
-/

namespace Logbook.Template

/-! ## Numbers and texts -/

/-- **Two ways to put zeros**: a number that has been written without a width is padded by a
    field as a conversion pads it in the first place. -/
theorem Written.IsNumber.pad_eq {w : Written} (h : w.IsNumber) {spec : FieldSpec}
    (halign : spec.align? = none) (hfill : spec.fill = ' ') {flags : Flags}
    (hleft : flags.left = false) (hzero : flags.zero = spec.zero) (flags' : Flags) :
    spec.pad true (w.pad flags' 0) = w.pad flags (spec.width?.getD 0) := by
  obtain ⟨hnumeric, hmark, hsign, hbody⟩ := h
  obtain ⟨htake, hdrop⟩ := span_append hsign hbody
  have hlength : w.length = (w.sign ++ w.body).length := by simp [Written.length, hmark]
  rw [w.pad_zero, hmark, List.append_nil]
  simp only [FieldSpec.pad, FieldSpec.layout, Written.pad, halign, hfill, hleft, hzero, hnumeric,
    hmark, hlength, List.append_nil, Bool.and_true, Bool.false_eq_true, if_false, if_true]
  cases spec.zero with
  | true =>
    -- The signs that a text begins with are its sign, because the body begins with none.
    show (w.sign ++ w.body).takeWhile isSign ++ List.replicate _ '0' ++
      (w.sign ++ w.body).dropWhile isSign = _
    rw [htake, hdrop]
    rfl
  | false =>
    show List.replicate _ ' ' ++ (w.sign ++ w.body) = _
    rw [← List.append_assoc]
    rfl

/-- A number kind of a field has the conversion with its letter. -/
theorem FieldKind.conversion?_of_letter {k : FieldKind} {kind : Kind} (h : k.letter = kind.letter)
    (hs : k ≠ .s) : k.conversion? = some kind := by
  have hfind : k.conversion? = Kind.ofLetter? k.letter := by
    cases k <;> first | rfl | exact absurd rfl hs
  rw [hfind, h, Kind.ofLetter?_letter]

theorem FieldKind.isNumber_of_conversion? {k : FieldKind} {kind : Kind}
    (h : k.conversion? = some kind) : kind.isNumber = true := by
  cases k <;> cases h <;> rfl

namespace FieldSpec

variable {spec : FieldSpec} {k : FieldKind} {kind : Kind}

/-- The conversion that presents a number as a field does. -/
def conversion (spec : FieldSpec) (kind : Kind) : Conversion where
  flags := { spec.flags with zero := spec.zero }
  width? := spec.width?
  precision? := spec.precision?
  kind

/-- A field writes a number, not yet padded, as the conversion does. -/
theorem body_number (hkind : spec.kind? = some k) (hletter : k.conversion? = some kind) (v : Value) :
    spec.body v = ((spec.conversion kind).write v).map fun w => (w.pad spec.flags 0, true) := by
  let bare : Conversion :=
    { flags := spec.flags, precision? := if kind = .d then none else spec.precision?, kind }
  have hbody : spec.body v = (bare.render v).map fun text => (text, true) := by
    cases k <;> cases hletter <;> (rw [body, hkind]; rfl)
  -- Flags and width that decide on the padding do not decide on what is padded.
  have hwrite : bare.write v = (spec.conversion kind).write v := by
    cases k <;> cases hletter <;> rfl
  rw [hbody, Conversion.render, hwrite]
  cases (spec.conversion kind).write v <;> rfl

/-- **Numbers**: a field without an alignment renders every value as the conversion with
    its letter does. -/
theorem render_number (hkind : spec.kind? = some k) (hletter : k.conversion? = some kind)
    (halign : spec.align? = none) (hfill : spec.fill = ' ') (v : Value) :
    spec.render v = (spec.conversion kind).render v := by
  rw [render, spec.body_number hkind hletter, Conversion.render]
  cases hw : (spec.conversion kind).write v with
  | error e => rfl
  | ok w =>
    have hnumber : w.IsNumber :=
      Conversion.write_isNumber (FieldKind.isNumber_of_conversion? hletter) rfl hw
    exact congrArg Except.ok (hnumber.pad_eq halign hfill rfl rfl spec.flags)

/-- **Texts**: a field that is aligned to the left or to the right renders a text, plain or
    visible, as a conversion with or without the flag `-` does. -/
theorem render_text (spec : FieldSpec) (left : Bool) {v : Value}
    (halign : spec.align? = some (if left then .left else .right)) (hfill : spec.fill = ' ')
    (htext : spec.kind? = some .s ∨ spec.kind? = none ∧ ∃ s, v = .str s) :
    spec.render v = Conversion.render
      { flags := { left, zero := spec.zero }, width? := spec.width?, precision? := spec.precision?,
        kind := if spec.repr then .r else .s } v := by
  let body := cut spec.precision? (if spec.repr then v.repr else v.text).toList
  have hbody : ∃ numeric, spec.body v = .ok (body, numeric) := by
    rcases htext with hkind | ⟨hkind, s, rfl⟩
    · exact ⟨false, by simp [FieldSpec.body, textBody, hkind, body]⟩
    · exact ⟨false, by simp [FieldSpec.body, textBody, isNumber, hkind, body]⟩
  obtain ⟨numeric, hbody⟩ := hbody
  let c : Conversion :=
    { flags := { left, zero := spec.zero }, width? := spec.width?, precision? := spec.precision?,
      kind := if spec.repr then .r else .s }
  have hwrite : c.write v = .ok { body, numeric := false } := by
    cases hrepr : spec.repr <;> simp [Conversion.write, c, body, hrepr]
  show spec.render v = c.render v
  rw [render, hbody, Conversion.render, hwrite]
  cases left <;> simp [Except.map, pad, layout, Written.pad, Written.length, c, halign, hfill]

end FieldSpec

/-! ## Canonical texts of fields -/

/-- The canonical text of a specifier: a fill is written only if it is no blank. -/
def FieldSpec.printed (spec : FieldSpec) : List Char :=
  (spec.align?.elim [] fun a => if spec.fill = ' ' then [a.char] else [spec.fill, a.char]) ++
    ((spec.sign?.elim [] fun o => [o.char]) ++ ((if spec.zero then ['0'] else []) ++
      (spec.width?.elim [] (Nat.toDigits 10) ++
        (spec.precision?.elim [] (fun p => '.' :: Nat.toDigits 10 p) ++
          spec.kind?.elim [] fun k => [k.letter]))))

namespace BraceField

/-- The canonical text of a field. -/
def printed (f : BraceField) : List Char :=
  '\x7b' :: (f.name.toList ++ (if f.spec.repr then ['!', 'r'] else []) ++ ':' :: f.spec.printed ++
    ['\x7d'])

example :
    printed ⟨"x", { align? := some .left, width? := some 8, precision? := some 3, kind? := some .s }⟩ =
      "\x7bx:<8.3s\x7d".toList := by
  decide

/-- A field that a template can say: its name is an identifier, its fill is no brace, and a
    blank without an alignment, its width is not zero, and its numbers are below `2 ^ 64`. -/
structure Printable (f : BraceField) : Prop where
  name : Identifier f.name.toList
  fill : f.spec.fill ≠ '\x7b' ∧ f.spec.fill ≠ '\x7d'
  blank : f.spec.align? = none → f.spec.fill = ' '
  width : ∀ w ∈ f.spec.width?, 1 ≤ w ∧ w < 2 ^ 64
  precision : ∀ p ∈ f.spec.precision?, p < 2 ^ 64

namespace Printable

variable {f : BraceField} (h : f.Printable)

/-- The parts of the canonical text of a specifier. -/
def spec : SpecifierText where
  align :=
    match f.spec.align? with
    | none => .absent
    | some a => if f.spec.fill = ' ' then .bare a else .filled f.spec.fill a h.fill
  sign? := f.spec.sign?
  zero := f.spec.zero
  width := f.spec.width?.elim [] (Nat.toDigits 10)
  precision? := f.spec.precision?.map (Nat.toDigits 10)
  kind? := f.spec.kind?
  width_digit := fun _ hc => isDigit_of_mem_decimal hc
  precision_digit := by
    intro ds hds
    obtain ⟨p, -, rfl⟩ := Option.map_eq_some_iff.mp hds
    exact ⟨Nat.toDigits_ne_nil, fun c hc => Nat.isDigit_of_mem_toDigits (by decide) (by decide) hc⟩

theorem text_spec : h.spec.text = f.spec.printed := by
  have halign : h.spec.align.text =
      f.spec.align?.elim [] fun a => if f.spec.fill = ' ' then [a.char] else [f.spec.fill, a.char] := by
    simp only [spec]
    cases f.spec.align? with
    | none => rfl
    | some a => by_cases hfill : f.spec.fill = ' ' <;> simp [hfill, AlignText.text]
  have hprecision : precisionText h.spec.precision? =
      f.spec.precision?.elim [] fun p => '.' :: Nat.toDigits 10 p := by
    simp only [spec]
    cases f.spec.precision? <;> rfl
  rw [SpecifierText.text, SpecifierText.unaligned, SpecifierText.measures, SpecifierText.tail, halign,
    hprecision]
  rfl

theorem decode_spec : h.spec.decode = { f.spec with repr := false } := by
  have hfill : h.spec.align.fill = f.spec.fill ∧ h.spec.align.align? = f.spec.align? := by
    simp only [spec]
    cases halign : f.spec.align? with
    | none => exact ⟨(h.blank halign).symm, rfl⟩
    | some a => by_cases hfill : f.spec.fill = ' ' <;> simp [hfill, AlignText.fill, AlignText.align?]
  have hwidth : number? h.spec.width = f.spec.width? :=
    number?_decimal fun w hw => (h.width w hw).2
  have hprecision : h.spec.precision?.bind number? = f.spec.precision? := by
    simp only [spec]
    cases hp : f.spec.precision? with
    | none => rfl
    | some p => exact number?_toDigits (h.precision p hp)
  rw [SpecifierText.decode, hfill.1, hfill.2, hwidth, hprecision]
  rfl

theorem zeroIsFlag_spec : h.spec.ZeroIsFlag :=
  fun _ => head?_decimal fun w hw => (h.width w hw).1

/-- The parts of the canonical text of a field. -/
def text : BraceFieldText where
  name := f.name.toList
  shown? := if f.spec.repr then some .r else none
  spec? := some h.spec
  name_identifier := h.name

theorem text_text : h.text.text = f.printed := by
  rw [BraceFieldText.text, BraceFieldText.body, BraceFieldText.head]
  simp only [text, Option.elim_some, h.text_spec, printed]
  cases f.spec.repr <;> rfl

theorem decode_text : h.text.decode = f := by
  have hrepr : (if f.spec.repr then some Shown.r else none).elim false Shown.isVisible =
      f.spec.repr := by
    cases f.spec.repr <;> rfl
  simp only [BraceFieldText.decode, text, Option.elim_some, h.decode_spec, String.ofList_toList,
    hrepr]

theorem zeroIsFlag_text : h.text.ZeroIsFlag := by
  intro y hy
  obtain rfl := Option.mem_some_iff.mp hy
  exact h.zeroIsFlag_spec

end Printable

/-- The canonical text of a field is a template of this field alone. -/
theorem Printable.fragments {f : BraceField} (h : f.Printable) :
    Style.brace.fragments (String.ofList f.printed) = .ok [.field ⟨f.name, .field f.spec⟩] := by
  have hread := h.text.braceSegments_append h.zeroIsFlag_text []
  rw [List.append_nil, h.text_text, h.decode_text, braceSegments] at hread
  rw [Style.fragments, bracePieces, String.toList_ofList, hread]
  rfl

end BraceField

/-- The canonical text of a conversion with a key is a template of this conversion alone. -/
theorem Conversion.Printable.fragments {c : Conversion} (h : c.Printable) {key : String}
    (hkey : c.key? = some key) : Style.percent.fragments (String.ofList c.printed) =
      .ok [.field ⟨key, .conversion c⟩] := by
  have hread := (Token.conversion h.text).percentSegments_append (Text.byteLength c.printed)
    (fun x heq => Token.conversion.inj heq ▸ h.longestFlags_text) []
  rw [Token.text, Token.segment, List.append_nil, h.text_text, h.decode_text, percentSegments] at hread
  rw [Style.fragments, percentPieces, String.toList_ofList, hread]
  show mapFields ofConversion [.field c] = _
  rw [mapFields, ofConversion, hkey]
  rfl

/-! ## Agreement -/

/-- **Fields and conversions agree.**  A field of a number kind without an alignment renders
    every value to the same text as the conversion with its letter, sign, zeros, width and
    precision, or fails with the same error.  A field of a text that is aligned to the left
    or to the right, plain or visible, renders it as the conversion `s` or `r` with or without
    the flag `-`; without a kind the value must be a string.  Templates can say all these
    fields and conversions, as far as a width is not zero and numbers are below `2 ^ 64`. -/
theorem presentations_agree :
    (∀ (v : Value) (width? precision? : Option Nat) (sign? : Option SignOption) (zero : Bool)
        (k : FieldKind) (kind : Kind), k.letter = kind.letter → k ≠ .s →
      FieldSpec.render { sign?, zero, width?, precision?, kind? := some k } v =
        Conversion.render
          { flags := { zero, plus := sign? = some .plus, space := sign? = some .space }, width?,
            precision?, kind } v) ∧
    (∀ (v : Value) (width? precision? : Option Nat) (repr left zero : Bool)
        (kind? : Option FieldKind), (kind? = some .s ∨ kind? = none ∧ ∃ s, v = .str s) →
      FieldSpec.render
          { repr, align? := some (if left then .left else .right), zero, width?, precision?, kind? } v =
        Conversion.render
          { flags := { left, zero }, width?, precision?, kind := if repr then .r else .s } v) ∧
    (∀ f : BraceField, f.Printable →
      Style.brace.fragments (String.ofList f.printed) = .ok [.field ⟨f.name, .field f.spec⟩]) ∧
    ∀ (c : Conversion) (key : String), c.Printable → c.key? = some key →
      Style.percent.fragments (String.ofList c.printed) = .ok [.field ⟨key, .conversion c⟩] := by
  refine ⟨?_, ?_, fun f h => h.fragments, fun c key h hkey => h.fragments hkey⟩
  · intro v width? precision? sign? zero k kind hletter hs
    exact FieldSpec.render_number rfl (k.conversion?_of_letter hletter hs) rfl rfl v
  · intro v width? precision? repr left zero kind? htext
    exact FieldSpec.render_text _ left rfl rfl htext

/-- Zeros between the sign and the letters of an infinity, and a quoted string that is cut,
    each in both styles. -/
theorem presentations_agree_infinite_and_quoted :
    let spec : FieldSpec :=
      { sign? := some .plus, zero := true, width? := some 8, precision? := some 3, kind? := some .F }
    let c : Conversion :=
      { key? := some "x", flags := { zero := true, plus := true }, width? := some 8,
        precision? := some 3, kind := .F }
    let minusInfinity : Value := .float ⟨0xFFF0000000000000⟩
    Style.brace.fragments "\x7bx:+08.3F\x7d" = .ok [.field ⟨"x", .field spec⟩] ∧
      Style.percent.fragments "%(x)0+8.3F" = .ok [.field ⟨"x", .conversion c⟩] ∧
      spec.render minusInfinity = .ok "-0000INF".toList ∧
      c.render minusInfinity = .ok "-0000INF".toList ∧
      FieldSpec.render { repr := true, align? := some .left, width? := some 5, precision? := some 3 }
        (.str "abc") = .ok "\"ab  ".toList ∧
      Conversion.render
        { flags := { left := true }, width? := some 5, precision? := some 3, kind := .r }
        (.str "abc") = .ok "\"ab  ".toList := by
  intro spec c minusInfinity
  obtain ⟨hnumber, htext, hbrace, hpercent⟩ := presentations_agree
  have hspec : spec.render minusInfinity = .ok "-0000INF".toList := by rfl
  have hfield : FieldSpec.render
      { repr := true, align? := some .left, width? := some 5, precision? := some 3 } (.str "abc") =
        .ok "\"ab  ".toList := by
    rfl
  have hfields : BraceField.Printable ⟨"x", spec⟩ :=
    ⟨isIdentifier_iff.mp (by decide), by decide, by decide, by decide, by decide⟩
  have hconversion : c.Printable := ⟨by decide, by decide, by decide⟩
  have hbrace' : String.ofList (BraceField.printed ⟨"x", spec⟩) = "\x7bx:+08.3F\x7d" := by decide
  have hpercent' : String.ofList c.printed = "%(x)0+8.3F" := by decide
  refine ⟨hbrace' ▸ hbrace ⟨"x", spec⟩ hfields, hpercent' ▸ hpercent c "x" hconversion rfl, hspec, ?_,
    hfield, ?_⟩
  · exact (hnumber minusInfinity (some 8) (some 3) (some .plus) true .F .F rfl (by decide)).symm.trans
      hspec
  · exact (htext (.str "abc") (some 5) (some 3) true true false none (.inr ⟨rfl, "abc", rfl⟩)).symm.trans
      hfield

end Logbook.Template
