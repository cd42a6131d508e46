import Logbook.Formatter
import Logbook.Proofs.Template.Spelling

/-! # One text from three spellings

    The spellings of one template differ in their rules and in the way they are searched
    for the readable time.  Neither shows: each rule writes its value as it stands, and a
    readable time that is asked for in vain and can be written leaves no trace.

    So the spellings are accepted together or refused together, and what is accepted
    renders every record to the same text, or fails with the same error.
-/

namespace Logbook

namespace Template

/-- A part shows something of the record. -/
def Part.isField : Part → Bool
  | .text _ => false
  | .field _ => true

/-- What a template writes when each field is looked up and written as it stands. -/
def written (look : String → Except LogError Value) :
    List (Segment String) → Except LogError (List Char)
  | [] => .ok []
  | .char c :: segs => (written look segs).map (c :: ·)
  | .field name :: segs => do
    let v ← look name
    let rest ← written look segs
    return v.text.toList ++ rest

end Template

namespace Formatter

open Template

variable {f f' : Formatter} {o : FormatterOptions} {style : Style} {parts : List Part}

/-! ## Filling in -/

/-- A character in front of pieces is a character in front of their text. -/
theorem fill_consChar (f : Formatter) (r : Record) (message : String) (c : Char)
    (ps : Fragments) :
    f.fill r message (consChar c ps) = (f.fill r message ps).map (c :: ·) := by
  cases ps with
  | nil => rfl
  | cons p ps =>
    cases p with
    | literal text =>
      rw [consChar, fill, fill]
      cases f.fill r message ps <;> rfl
    | field a =>
      rw [consChar, fill]
      · rfl
      · exact fun _ _ heq => by cases heq

/-- Plain fields are filled in as they stand, whatever the style. -/
theorem fill_plain (f : Formatter) (r : Record) (message : String) (style : Style)
    (segs : List (Segment String)) :
    f.fill r message (merge (segs.map (.withField style.plainField))) =
      written (f.lookup r message) segs := by
  induction segs with
  | nil => rfl
  | cons seg segs ih =>
    cases seg with
    | char c =>
      have hcons : f.fill r message (consChar c (merge (segs.map (.withField style.plainField)))) =
          (written (f.lookup r message) segs).map (c :: ·) := by
        rw [fill_consChar, ih]
      exact hcons
    | field name =>
      -- The styles write a plain field in three ways and look it up in one.
      have hname : (style.plainField name).name = name := by cases style <;> rfl
      have hcons : f.fill r message
          (.field (style.plainField name) :: merge (segs.map (.withField style.plainField))) =
          written (f.lookup r message) (.field name :: segs) := by
        rw [fill, written, ih, hname]
        cases f.lookup r message name with
        | error e => rfl
        | ok v =>
          have hrender : (style.plainField name).rule.render v = .ok v.text.toList :=
            style.render_plainField name v
          exact congrArg (fun x => x >>= fun text => written (f.lookup r message) segs >>= fun rest =>
            pure (text ++ rest)) hrender
      exact hcons

/-! ## The readable time -/

/-- The default date format can always be written. -/
theorem formatTime_default (f : Formatter) (r : Record) :
    ∃ text, f.formatTime r none = .ok text := by
  have hitems : Time.Pattern.items? defaultDateFormat = some
      [.number .year .zero, .char '-', .number .month .zero, .char '-', .number .day .zero,
        .char ' ', .number .hour .zero, .char ':', .number .minute .zero, .char ':',
        .number .second .zero] := by
    decide
  simp [formatTime, hitems, Time.Reading.render?, Time.Reading.itemText?]

/-! ## Making a formatter from a spelling -/

/-- What is read of a template shows a field if and only if the template does. -/
theorem any_isField_merge {α : Type} (field : String → α) (parts : List Part) :
    (merge ((parts.flatMap Part.segments).map (.withField field))).any isField =
      parts.any Part.isField := by
  have hchar : ∀ c (ps : List (Piece α)), (consChar c ps).any isField = ps.any isField := by
    intro c ps
    rcases ps with _ | ⟨_ | _, ps⟩ <;> simp [consChar, isField]
  -- Texts are merged with what is next to them, so fields are counted past whole texts.
  have htext : ∀ (cs : List Char) (segs : List (Segment String)),
      (merge ((cs.map Segment.char ++ segs).map (.withField field))).any isField =
        (merge (segs.map (.withField field))).any isField := by
    intro cs segs
    induction cs with
    | nil => rfl
    | cons c cs ih => exact (hchar c _).trans ih
  induction parts with
  | nil => rfl
  | cons p parts ih =>
    rw [List.flatMap_cons, List.any_cons]
    cases p with
    | text s => rw [Part.segments, htext, ih, Part.isField, Bool.false_or]
    | field name => rfl

end Formatter

namespace FormatterOptions

open Template

/-- The options with a template in the spelling of a style. -/
def spelled (o : FormatterOptions) (parts : List Part) (style : Style) : FormatterOptions :=
  { o with format? := some (style.spell parts), style }

/-- What decides whether a template is accepted: with validation it must have a field, and
    the date format must be one. -/
def accepts (o : FormatterOptions) (parts : List Part) : Bool :=
  !(o.validate && !parts.any Part.isField) &&
    o.dateFormat?.all fun d => (Time.Pattern.items? d).isSome

end FormatterOptions

namespace Formatter

open Template

variable {f f' : Formatter} {o : FormatterOptions} {style style' : Style} {parts : List Part}
  {r : Record}

/-- **Made from a spelling**: a formatter has the template as it is read back, and all
    else as it was asked for. -/
structure Spelled (o : FormatterOptions) (parts : List Part) (style : Style) (f : Formatter) :
    Prop where
  fragments : f.fragments =
    .ok (merge ((parts.flatMap Part.segments).map (.withField style.plainField)))
  dateFormat? : f.dateFormat? = o.dateFormat?
  zone : f.zone = o.zone
  defaults : f.defaults = o.defaults
  exceptionHook? : f.exceptionHook? = o.exceptionHook?
  stackHook? : f.stackHook? = o.stackHook?

/-- A spelling is read, with validation if it has a field. -/
theorem readTemplate_spell (style : Style) (validate : Bool)
    (hnames : ∀ name, .field name ∈ parts → isIdentifier name.toList = true) :
    readTemplate style (style.spell parts) validate =
      if validate && !parts.any Part.isField then
        .error (invalidFormat (style.spell parts) style none)
      else .ok (.ok (merge ((parts.flatMap Part.segments).map (.withField style.plainField)))) := by
  rw [readTemplate, style.fragments_spell hnames]
  simp only [any_isField_merge]

/-- A spelling is accepted exactly when the template is, whatever the style. -/
theorem build_spelled (o : FormatterOptions) (style : Style)
    (hnames : ∀ name, .field name ∈ parts → isIdentifier name.toList = true) :
    if o.accepts parts then ∃ f, build (o.spelled parts style) = .ok f ∧ f.Spelled o parts style
    else ∃ e, build (o.spelled parts style) = .error e := by
  have hread := readTemplate_spell style o.validate hnames
  simp only [build, FormatterOptions.spelled, Option.getD_some, hread, FormatterOptions.accepts]
  cases hfield : o.validate && !parts.any Part.isField with
  | true => simp
  | false =>
    cases hdate : o.dateFormat? with
    | none => exact ⟨_, rfl, rfl, hdate.symm, rfl, rfl, rfl, rfl⟩
    | some d =>
      cases hitems : (Time.Pattern.items? d).isSome with
      | true =>
        simp only [Bool.not_false, Option.all_some, Bool.and_true, if_true, hitems]
        exact ⟨_, rfl, rfl, hdate.symm, rfl, rfl, rfl, rfl⟩
      | false => simp [hitems]

/-! ## Rendering by a spelling -/

/-- A readable time that can be written leaves no trace, so a record shows what is written
    of the template. -/
theorem Spelled.formatMessage_eq (h : f.Spelled o parts style)
    (htime : ∃ text, f.formatTime r f.dateFormat? = .ok text) :
    f.formatMessage r = r.message.bind fun message =>
      (written (f.lookup r.keepMessage message) (parts.flatMap Part.segments)).map String.ofList := by
  obtain ⟨time, htime⟩ := htime
  cases hmessage : r.message with
  | error e =>
    rw [formatMessage, hmessage]
    rfl
  | ok message =>
    have hfill := fill_plain f r.keepMessage message style (parts.flatMap Part.segments)
    have hwritten := congrArg (Except.map String.ofList) hfill
    -- Whether the time is written first makes no difference, since it can be written.
    cases huses : f.usesTime with
    | false =>
      simp only [formatMessage, hmessage, huses, h.fragments, Bool.false_eq_true, if_false]
      exact hwritten
    | true =>
      simp only [formatMessage, hmessage, huses, htime, h.fragments, if_true]
      exact hwritten

/-- Spellings of one template find the same values. -/
theorem Spelled.lookup_eq (h : f.Spelled o parts style) (h' : f'.Spelled o parts style') :
    f.lookup = f'.lookup := by
  funext r message name
  simp only [lookup, formatTime, h.zone, h'.zone, h.dateFormat?, h'.dateFormat?, h.defaults,
    h'.defaults]

/-- Spellings of one template render a record to the same text, if the readable time can
    be written. -/
theorem Spelled.render_eq (h : f.Spelled o parts style) (h' : f'.Spelled o parts style')
    (htime : ∃ text, f.formatTime r f.dateFormat? = .ok text) : f.render r = f'.render r := by
  have htime' : ∃ text, f'.formatTime r f'.dateFormat? = .ok text := by
    obtain ⟨text, htext⟩ := htime
    refine ⟨text, ?_⟩
    rw [← htext]
    simp only [formatTime, h.zone, h'.zone, h.dateFormat?, h'.dateFormat?]
  -- The formatters share all but their templates, and those say the same.
  have hmessage : f.formatMessage r = f'.formatMessage r := by
    rw [h.formatMessage_eq htime, h'.formatMessage_eq htime', h.lookup_eq h']
  have hexception : f.exceptionText? r = f'.exceptionText? r := by
    have hhook : f.formatException = f'.formatException := by
      funext e
      simp only [formatException, h.exceptionHook?, h'.exceptionHook?]
    rw [exceptionText?, exceptionText?, hhook]
  have hstack : f.formatStack = f'.formatStack := by
    funext stack
    simp only [formatStack, h.stackHook?, h'.stackHook?]
  rw [render, render, hmessage, hexception, hstack]

/-- **The spellings of a template agree.**  For texts of any kind and fields whose names
    are identifiers, either all three styles accept the template or none does; and the
    formatters that are made of it render every record to the same text, or fail with the
    same error, as long as the date format, if there is one, can be written. -/
theorem spellings_agree (o : FormatterOptions) (parts : List Part)
    (hnames : ∀ name, .field name ∈ parts → isIdentifier name.toList = true) :
    ((∀ style, ∃ f, build (o.spelled parts style) = .ok f) ∨
        ∀ style, ∃ e, build (o.spelled parts style) = .error e) ∧
      ∀ style style' f f' r, build (o.spelled parts style) = .ok f →
        build (o.spelled parts style') = .ok f' →
        (∀ d, o.dateFormat? = some d → ∃ text, f.formatTime r (some d) = .ok text) →
        f.render r = f'.render r := by
  have hbuilt := fun style => build_spelled o style hnames
  -- Whether a template is accepted is a matter of its parts and the options alone.
  cases haccepts : o.accepts parts with
  | false =>
    simp only [haccepts, Bool.false_eq_true, if_false] at hbuilt
    refine ⟨.inr hbuilt, ?_⟩
    intro style style' f f' r hf
    obtain ⟨e, he⟩ := hbuilt style
    rw [he] at hf
    cases hf
  | true =>
    simp only [haccepts, if_true] at hbuilt
    refine ⟨.inl fun style => (hbuilt style).imp fun _ h => h.1, ?_⟩
    intro style style' f f' r hf hf' hdate
    have hspelled : f.Spelled o parts style := by
      obtain ⟨_, heq, h⟩ := hbuilt style
      cases hf.symm.trans heq
      exact h
    have hspelled' : f'.Spelled o parts style' := by
      obtain ⟨_, heq, h⟩ := hbuilt style'
      cases hf'.symm.trans heq
      exact h
    refine hspelled.render_eq hspelled' ?_
    rw [hspelled.dateFormat?]
    cases hformat : o.dateFormat? with
    | none => exact formatTime_default f r
    | some d => exact hdate d hformat

/-- A template whose texts hold the marks of every style, with the readable time and an
    extra of the record. -/
theorem spellings_agree_with_marks :
    let parts : List Part :=
      [.text "100% of $\x7basctime\x7d", .field "asctime", .text "\x7d%(name)s", .field "user"]
    let o : FormatterOptions := { dateFormat? := some "%H:%M", zone := .utc }
    let origin : Origin :=
      { created := ⟨0, 0⟩, relativeCreated := Inhabited.default, thread := 1, threadName? := none,
        process := 1, processName := "main" }
    let r : Record :=
      { Record.simple "app" Level.info "text" origin with extra := [("user", .str "$me")] }
    ∀ style, ∃ f, build (o.spelled parts style) = .ok f ∧
      f.render r = .ok "100% of $\x7basctime\x7d00:00\x7d%(name)s$me" := by
  intro parts o origin r style
  have hnames : ∀ name, .field name ∈ parts → isIdentifier name.toList = true := by
    intro name hname
    obtain rfl | rfl : name = "asctime" ∨ name = "user" := by simpa [parts] using hname
    all_goals decide
  obtain ⟨hbuilt, hagree⟩ := spellings_agree o parts hnames
  have hpercent : (build (o.spelled parts .percent)).toOption.map (fun f =>
      ((f.formatTime r (some "%H:%M")).toOption, (f.render r).toOption)) =
        some (some "00:00", some "100% of $\x7basctime\x7d00:00\x7d%(name)s$me") := by
    decide +kernel
  have hok : ∀ {x : Except LogError String} {text}, x.toOption = some text → x = .ok text := by
    intro x text hx
    cases x with
    | error e => cases hx
    | ok text' => exact congrArg Except.ok (Option.some.inj hx)
  cases hf : build (o.spelled parts .percent) with
  | error e =>
    rw [hf] at hpercent
    cases hpercent
  | ok f =>
    rw [hf] at hpercent
    obtain ⟨htime, hrender⟩ := Prod.mk.inj (Option.some.inj hpercent)
    have hdate : ∀ d, o.dateFormat? = some d → ∃ text, f.formatTime r (some d) = .ok text := by
      intro d hd
      cases hd
      exact ⟨"00:00", hok htime⟩
    rcases hbuilt with hall | hnone
    · obtain ⟨f', hf'⟩ := hall style
      exact ⟨f', hf', hagree .percent style f f' r hf hf' hdate ▸ hok hrender⟩
    · obtain ⟨e, he⟩ := hnone .percent
      rw [hf] at he
      cases he

end Formatter

end Logbook
