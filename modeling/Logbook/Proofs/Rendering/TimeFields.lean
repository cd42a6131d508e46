import Logbook.Proofs.Rendering.Resolution
import Logbook.Proofs.Template.Marks

/-! # Templates that show the readable time

    A formatter looks for the readable time in the text of its template, not among the
    fields that have been read: the template shows the time if the mark of such a field
    occurs in it.  The mark occurs wherever there is a field of that name, so no template
    that shows the time is missed.

    It also occurs where the sign that begins a field is escaped, in the key of another
    percent field, and in front of a longer name in the other two styles.  For such a
    template the time is formatted, and a date format that does not fit the record fails,
    though the text does not show it.
-/

namespace Logbook

namespace Template

/-! ## Fields and literals -/

section

variable {α β : Type}

/-- Merging keeps the fields. -/
theorem field_mem_merge {segs : List (Segment α)} {a : α} :
    .field a ∈ merge segs ↔ .field a ∈ segs := by
  have hpiece : ∀ p : Piece α, .field a ∈ p.segments ↔ p = .field a := by
    intro p
    cases p <;> simp [Piece.segments, eq_comm]
  conv_rhs => rw [← segments_merge segs]
  simp [List.mem_flatMap, hpiece]

variable {f : α → Except Fault β} {ps : List (Piece α)} {qs : List (Piece β)}

/-- The fields that come out are what is made of those that went in. -/
theorem field_mem_of_mapFields (h : mapFields f ps = .ok qs) {b : β} :
    .field b ∈ qs ↔ ∃ a, .field a ∈ ps ∧ f a = .ok b := by
  induction ps generalizing qs with
  | nil =>
    obtain rfl := Except.ok.inj h
    simp
  | cons p ps ih =>
    cases p with
    | literal text =>
      obtain ⟨qs', hrest, rfl⟩ := map_eq_ok_iff.mp h
      simp [ih hrest]
    | field a =>
      rw [mapFields] at h
      cases ha : f a with
      | error e =>
        rw [ha] at h
        cases h
      | ok b' =>
        rw [ha] at h
        obtain ⟨qs', hrest, rfl⟩ := map_eq_ok_iff.mp h
        simp [ih hrest, or_and_right, exists_or, ha, eq_comm]

/-- The literals stay as they are. -/
theorem literal_mem_of_mapFields (h : mapFields f ps = .ok qs) {text : List Char} :
    .literal text ∈ qs ↔ .literal text ∈ ps := by
  induction ps generalizing qs with
  | nil =>
    obtain rfl := Except.ok.inj h
    simp
  | cons p ps ih =>
    cases p with
    | literal text' =>
      obtain ⟨qs', hrest, rfl⟩ := map_eq_ok_iff.mp h
      simp [ih hrest]
    | field a =>
      rw [mapFields] at h
      cases ha : f a with
      | error e =>
        rw [ha] at h
        cases h
      | ok b' =>
        rw [ha] at h
        obtain ⟨qs', hrest, rfl⟩ := map_eq_ok_iff.mp h
        simp [ih hrest]

end

/-- The texts between the fields of a template, in order. -/
def literals : Fragments → List (List Char)
  | [] => []
  | .literal text :: ps => text :: literals ps
  | .field _ :: ps => literals ps

theorem mem_literals {ps : Fragments} {text : List Char} :
    text ∈ literals ps ↔ .literal text ∈ ps := by
  fun_induction literals ps <;> simp_all

theorem mem_fieldNames {ps : Fragments} {n : String} :
    n ∈ fieldNames ps ↔ ∃ field, .field field ∈ ps ∧ field.name = n := by
  fun_induction fieldNames ps with
  | case1 => simp
  | case2 text ps ih => simp [ih]
  | case3 field ps ih => simp [ih, or_and_right, exists_or, eq_comm]

/-- The names of the fields that come out. -/
theorem mem_fieldNames_of_mapFields {α : Type} {f : α → Except Fault Field}
    {segs : List (Segment α)} {ps : Fragments} (h : mapFields f (merge segs) = .ok ps)
    {n : String} :
    n ∈ fieldNames ps ↔ ∃ a, .field a ∈ segs ∧ ∃ field, f a = .ok field ∧ field.name = n := by
  simp only [mem_fieldNames, field_mem_of_mapFields h, field_mem_merge]
  constructor
  · rintro ⟨field, ⟨a, hmem, hfield⟩, hname⟩
    exact ⟨a, hmem, field, hfield, hname⟩
  · rintro ⟨a, hmem, field, hfield, hname⟩
    exact ⟨field, ⟨a, hmem, hfield⟩, hname⟩

/-! ## Where a mark occurs -/

variable {name : List Char} {format : String} {ps : Fragments}

/-- A conversion is taken for the field that its key names. -/
theorem exists_ofConversion {c : Conversion} {n : String} :
    (∃ field, ofConversion c = .ok field ∧ field.name = n) ↔ c.key? = some n := by
  unfold ofConversion
  cases c.key? with
  | none => simp
  | some key => simp [eq_comm]

/-- **The mark of a name in a percent template** occurs at a field of that name, in a longer
    key, or in a text. -/
theorem percentMark_infix_format (h : Identifier name)
    (hread : Style.percent.fragments format = .ok ps) :
    percentMark name <:+: format.toList ↔
      String.ofList name ∈ fieldNames ps ∨
        (∃ n ∈ fieldNames ps, percentMark name <:+: n.toList) ∨
          ∃ text ∈ literals ps, percentMark name <:+: text := by
  simp only [Style.fragments] at hread
  split at hread
  · cases hread
  · next pieces hpieces =>
    obtain ⟨segs, hsegs, rfl⟩ := map_eq_ok_iff.mp hpieces
    obtain ⟨tokens, htext, -, rfl⟩ := tokenizes_of_percentSegments hsegs
    -- Every field comes from a conversion, under the key of that conversion.
    have hfields : ∀ n, n ∈ fieldNames ps ↔
        ∃ x, .conversion x ∈ tokens ∧ x.key?.map String.ofList = some n := by
      intro n
      simp only [mem_fieldNames_of_mapFields hread, exists_ofConversion, List.mem_map,
        Token.segment_eq_field_iff]
      constructor
      · rintro ⟨_, ⟨_, hx, x, rfl, rfl⟩, hkey⟩
        exact ⟨x, hx, hkey⟩
      · rintro ⟨x, hx, hkey⟩
        exact ⟨x.decode, ⟨_, hx, x, rfl, rfl⟩, hkey⟩
    have hfits : (∃ token ∈ tokens, token.Fits name) ↔
        String.ofList name ∈ fieldNames ps ∨
          ∃ n ∈ fieldNames ps, percentMark name <:+: n.toList := by
      simp only [hfields, Token.fits_iff]
      constructor
      · rintro ⟨_, hx, x, rfl, k, hk, rfl | hmark⟩
        · exact .inl ⟨x, hx, by rw [hk]; rfl⟩
        · refine .inr ⟨String.ofList k, ⟨x, hx, by rw [hk]; rfl⟩, ?_⟩
          rwa [String.toList_ofList]
      · rintro (⟨x, hx, hkey⟩ | ⟨n, ⟨x, hx, hkey⟩, hmark⟩)
        · obtain ⟨k, hk, hname⟩ := Option.map_eq_some_iff.mp hkey
          exact ⟨_, hx, x, rfl, k, hk, .inl (String.ofList_injective hname)⟩
        · obtain ⟨k, hk, rfl⟩ := Option.map_eq_some_iff.mp hkey
          rw [String.toList_ofList] at hmark
          exact ⟨_, hx, x, rfl, k, hk, .inr hmark⟩
    rw [htext, percentMark_infix_iff h, hfits, map_char_infix_iff (by simp [percentMark]), or_assoc]
    simp only [mem_literals, literal_mem_of_mapFields hread]

/-- **The mark of a name in a brace template** occurs at a field whose name begins with it, or
    in a text. -/
theorem braceMark_infix_format (h : Identifier name)
    (hread : Style.brace.fragments format = .ok ps) :
    braceMark name <:+: format.toList ↔
      (∃ n ∈ fieldNames ps, name <+: n.toList) ∨
        ∃ text ∈ literals ps, braceMark name <:+: text := by
  -- The template is cut into tokens; the mark is found within one field or within one text.
  simp only [Style.fragments] at hread
  cases hpieces : bracePieces format with
  | error e =>
    rw [hpieces] at hread
    cases hread
  | ok pieces =>
    rw [hpieces] at hread
    replace hread : mapFields _ pieces = .ok ps := hread
    obtain ⟨segs, hsegs, rfl⟩ := map_eq_ok_iff.mp hpieces
    obtain ⟨tokens, htext, -, rfl⟩ := braceTokenizes_of_braceSegments hsegs
    have hfits : (∃ token ∈ tokens, token.Fits name) ↔
        ∃ n ∈ fieldNames ps, name <+: n.toList := by
      simp only [mem_fieldNames_of_mapFields hread, List.mem_map, BraceToken.fits_iff,
        BraceToken.segment_eq_field_iff]
      constructor
      · rintro ⟨_, hx, x, rfl, hname⟩
        refine ⟨String.ofList x.name, ⟨x.decode, ⟨_, hx, x, rfl, rfl⟩, _, rfl, rfl⟩, ?_⟩
        rwa [String.toList_ofList]
      · rintro ⟨_, ⟨_, ⟨_, hx, x, rfl, rfl⟩, field, hfield, rfl⟩, hname⟩
        obtain rfl := Except.ok.inj hfield
        refine ⟨_, hx, x, rfl, ?_⟩
        rwa [BraceFieldText.decode, String.toList_ofList] at hname
    rw [htext, braceMark_infix_iff h, hfits, map_char_infix_iff (by simp [braceMark])]
    simp only [mem_literals, literal_mem_of_mapFields hread]

/-- A placeholder without braces whose name goes on behind the given one. -/
def DollarToken.Extends (name : List Char) : DollarToken → Prop
  | bare name' _ => name <+: name' ∧ name ≠ name'
  | _ => False

theorem DollarToken.fitsBare_of_extends {name : List Char} (token : DollarToken)
    (h : token.Extends name) : token.FitsBare name := by
  cases token with
  | bare name' _ => exact h.1
  | _ => exact h

/-- The template has a placeholder without braces whose name goes on behind the given one. -/
def HasLongerPlaceholder (name : List Char) (format : String) : Prop :=
  ∃ tokens : List DollarToken, format.toList = tokens.flatMap DollarToken.text ∧
    LongestNames tokens ∧ ∃ token ∈ tokens, token.Extends name

/-- **The marks of a name in a dollar template** occur at a field of that name, at a
    placeholder without braces whose name is longer, or in a text. -/
theorem dollarMarks_infix_format (h : Identifier name)
    (hread : Style.dollar.fragments format = .ok ps) :
    (bareMark name <:+: format.toList ∨ bracedMark name <:+: format.toList) ↔
      String.ofList name ∈ fieldNames ps ∨ HasLongerPlaceholder name format ∨
        ∃ text ∈ literals ps, bareMark name <:+: text ∨ bracedMark name <:+: text := by
  simp only [Style.fragments] at hread
  cases hpieces : dollarPieces format with
  | error e =>
    rw [hpieces] at hread
    cases hread
  | ok pieces =>
    rw [hpieces] at hread
    replace hread : mapFields _ pieces = .ok ps := hread
    obtain ⟨segs, hsegs, rfl⟩ := map_eq_ok_iff.mp hpieces
    obtain ⟨tokens, htext, hlongest, rfl⟩ := dollarTokenizes_of_dollarSegments hsegs
    have hliterals : (∃ text ∈ literals ps, bareMark name <:+: text ∨ bracedMark name <:+: text) ↔
        (bareMark name).map .char <:+: tokens.map DollarToken.segment ∨
          (bracedMark name).map .char <:+: tokens.map DollarToken.segment := by
      rw [map_char_infix_iff (by simp [bareMark]), map_char_infix_iff (by simp [bracedMark])]
      simp only [mem_literals, literal_mem_of_mapFields hread, and_or_left, exists_or]
    have hnamed : String.ofList name ∈ fieldNames ps ↔
        ∃ token ∈ tokens, ∃ h, token = .bare name h ∨ token = .braced name h := by
      simp only [mem_fieldNames_of_mapFields hread, List.mem_map,
        ← DollarToken.segment_eq_field_iff]
      constructor
      · rintro ⟨n, htoken, field, hfield, hname⟩
        obtain rfl := Except.ok.inj hfield
        exact hname ▸ htoken
      · exact fun htoken => ⟨_, htoken, _, rfl, rfl⟩
    have hmarks := dollarMarks_infix_iff h hlongest
    rw [← hliterals, ← htext] at hmarks
    rw [hmarks, ← or_assoc]
    simp only [DollarToken.fits_iff]
    constructor
    · rintro (⟨token, htoken, ⟨name', hname', rfl, hbegins⟩ | ⟨hname, rfl⟩⟩ | htexts)
      · by_cases heq : name = name'
        · subst heq
          exact .inl (.inl (hnamed.mpr ⟨_, htoken, hname', .inl rfl⟩))
        · exact .inl (.inr ⟨tokens, htext, hlongest, _, htoken, hbegins, heq⟩)
      · exact .inl (.inl (hnamed.mpr ⟨_, htoken, hname, .inr rfl⟩))
      · exact .inr htexts
    · rintro ((hfield | ⟨tokens', htext', hlongest', token, htoken, hextends⟩) | htexts)
      · obtain ⟨token, htoken, hname, heq | heq⟩ := hnamed.mp hfield
        · exact .inl ⟨token, htoken, .inl ⟨name, hname, heq, List.prefix_rfl⟩⟩
        · exact .inl ⟨token, htoken, .inr ⟨hname, heq⟩⟩
      · -- A longer placeholder of any tokens of the template has the mark at its beginning.
        have hfit := token.fitsBare_of_extends hextends
        have hmark := (dollarMarks_infix_iff h hlongest').mpr (.inl ⟨token, htoken, .inl hfit⟩)
        simpa only [DollarToken.fits_iff] using hmarks.mp (htext' ▸ hmark)
      · exact .inr htexts

end Template

namespace Formatter

open Template

variable {f : Formatter} {r : Record} {m : String}

/-- The texts between the fields, in the order of the template. -/
def texts (f : Formatter) : List (List Char) :=
  match f.fragments with
  | .error _ => []
  | .ok ps => literals ps

/-- The name of the readable time. -/
def timeName : List Char := "asctime".toList

/-- The mark of the readable time occurs in the template where there is no field of that
    name: in a text that stands for itself, in a longer key, or in front of a longer name. -/
def MimicsTime (f : Formatter) : Prop :=
  match f.style with
  | .percent =>
    (∃ n ∈ f.names, percentMark timeName <:+: n.toList) ∨
      ∃ text ∈ f.texts, percentMark timeName <:+: text
  | .brace =>
    (∃ n ∈ f.names, timeName <+: n.toList ∧ n ≠ "asctime") ∨
      ∃ text ∈ f.texts, braceMark timeName <:+: text
  | .dollar =>
    HasLongerPlaceholder timeName f.format ∨
      ∃ text ∈ f.texts, bareMark timeName <:+: text ∨ bracedMark timeName <:+: text

/-- What the text of a template tells of the readable time, once the template has been read. -/
theorem usesTime_eq_true_iff {ps : Fragments} (hread : f.style.fragments f.format = .ok ps)
    (hps : f.fragments = .ok ps) :
    f.style.usesTime f.format = true ↔ "asctime" ∈ f.names ∨ f.MimicsTime := by
  have htime : Identifier timeName := isIdentifier_iff.mp rfl
  have hnames : f.names = fieldNames ps := by rw [names, hps]
  have htexts : f.texts = literals ps := by rw [texts, hps]
  unfold MimicsTime Style.usesTime
  rw [hnames, htexts]
  cases hstyle : f.style with
  | percent =>
    rw [hstyle] at hread
    exact Style.occurs_iff.trans (percentMark_infix_format htime hread)
  | brace =>
    rw [hstyle] at hread
    -- A name that begins in this way is the name itself or a longer one.
    have hsplit : (∃ n ∈ fieldNames ps, timeName <+: n.toList) ↔
        "asctime" ∈ fieldNames ps ∨ ∃ n ∈ fieldNames ps, timeName <+: n.toList ∧ n ≠ "asctime" := by
      constructor
      · rintro ⟨n, hn, hbegins⟩
        by_cases heq : n = "asctime"
        · exact .inl (heq ▸ hn)
        · exact .inr ⟨n, hn, hbegins, heq⟩
      · rintro (hn | ⟨n, hn, hbegins, -⟩)
        · exact ⟨_, hn, List.prefix_rfl⟩
        · exact ⟨n, hn, hbegins⟩
    refine Style.occurs_iff.trans ((braceMark_infix_format htime hread).trans ?_)
    rw [hsplit, or_assoc]
  | dollar =>
    rw [hstyle] at hread
    rw [Bool.or_eq_true, Style.occurs_iff, Style.occurs_iff]
    exact dollarMarks_infix_format htime hread

/-! ## Rendering -/

/-- Fields of other names are filled in without a time, whatever the date format and the
    zone. -/
theorem fill_of_not_mem {ps : Fragments} (h : "asctime" ∉ fieldNames ps) (d? : Option String)
    (z : Time.Zone) (m : String) :
    { f with dateFormat? := d?, zone := z }.fill r m ps = f.fill r m ps := by
  induction ps with
  | nil => rfl
  | cons p ps ih =>
    cases p with
    | literal text => rw [fill, fill, ih h]
    | field field =>
      obtain ⟨hname, hrest⟩ := not_or.mp (mt List.mem_cons.mpr h)
      have hlook : { f with dateFormat? := d?, zone := z }.lookup r m field.name =
          f.lookup r m field.name := by
        simp only [lookup, if_neg (Ne.symm hname)]
      rw [fill, fill, ih hrest, hlook]

/-- A time that cannot be written is the fault of the date format. -/
theorem formatTime_eq_error {d? : Option String} {e : LogError} (h : f.formatTime r d? = .error e) :
    e = .format s!"Invalid date format '{d?.getD defaultDateFormat}'" := by
  unfold formatTime at h
  dsimp only at h
  split at h
  · exact (Except.error.inj h).symm
  · split at h <;> cases h

/-- A template without a field for the time is filled in without it. -/
theorem formatMessage_of_not_usesTime {ps : Fragments} (huses : f.usesTime = false)
    (hps : f.fragments = .ok ps) (hname : "asctime" ∉ fieldNames ps) (d? : Option String)
    (z : Time.Zone) :
    { f with dateFormat? := d?, zone := z }.formatMessage r = f.formatMessage r := by
  cases hm : r.message with
  | error e =>
    unfold formatMessage
    rw [hm]
    rfl
  | ok m =>
    have hown := formatMessage_eq (f := f) hm (fun h => by rw [huses] at h; cases h) hps
    have hother := formatMessage_eq (f := { f with dateFormat? := d?, zone := z }) hm
      (fun h => by rw [huses] at h; cases h) hps
    rw [hown, hother, fill_of_not_mem hname]

/-- **The time is formatted exactly where the text of the template has its mark.**  For a
    formatter that was made with validation this is so if and only if the template has a
    field of the name, or mimics one.  If it is not so, neither the date format nor the zone
    matters to any record.  If it is so, a record whose time cannot be written is not
    rendered at all, whether or not its template shows the time. -/
theorem usesTime_iff {o : FormatterOptions} (hbuild : build o = .ok f)
    (hvalid : o.validate = true) :
    (f.usesTime = true ↔ "asctime" ∈ f.names ∨ f.MimicsTime) ∧
    (f.usesTime = false → ∀ r d? z,
      { f with dateFormat? := d?, zone := z }.render r = f.render r) ∧
    (f.usesTime = true → ∀ r m, r.message = .ok m →
      (∃ time, f.formatTime r f.dateFormat? = .ok time) ∨
        f.render r = .error
          (.format s!"Invalid date format '{f.dateFormat?.getD defaultDateFormat}'")) := by
  obtain ⟨huses, ps, hread, hps⟩ := fragments_of_build hbuild hvalid
  have hiff : f.usesTime = true ↔ "asctime" ∈ f.names ∨ f.MimicsTime := by
    rw [huses]
    exact usesTime_eq_true_iff hread hps
  refine ⟨hiff, fun hnot r d? z => ?_, fun htrue r m hm => ?_⟩
  · have hname : "asctime" ∉ fieldNames ps := by
      intro hmem
      have hnames : f.names = fieldNames ps := by rw [names, hps]
      rw [hiff.mpr (.inl (hnames ▸ hmem))] at hnot
      cases hnot
    unfold render
    rw [formatMessage_of_not_usesTime hnot hps hname]
    rfl
  · cases ht : f.formatTime r f.dateFormat? with
    | ok time => exact .inl ⟨time, rfl⟩
    | error e =>
      right
      -- The time is written before anything is filled in, needed or not.
      have hmessage : f.formatMessage r = .error e := by
        unfold formatMessage
        rw [hm, htrue, ht]
        rfl
      unfold render
      rw [hmessage, formatTime_eq_error ht]
      rfl

/-- A time that is shown and cannot be written. -/
theorem usesTime_iff_unwritable :
    let o : FormatterOptions :=
      { format? := some "%(asctime)s %(message)s", dateFormat? := some "%#z" }
    let r := Record.simple "app" Level.info "m" Inhabited.default
    ∃ f, build o = .ok f ∧ o.validate = true ∧ f.usesTime = true ∧
      f.render r = .error (.format "Invalid date format '%#z'") := by
  intro o r
  -- The parts of the formatter are evaluated; what follows from them is left to the theorem.
  have hrun : ((build o).toOption.map fun f => (f.names, (f.formatTime r f.dateFormat?).toOption,
      f.dateFormat?)) = some (["asctime", "message"], none, some "%#z") := by
    decide +kernel
  cases hbuild : build o with
  | error e =>
    rw [hbuild] at hrun
    cases hrun
  | ok f =>
    rw [hbuild] at hrun
    simp only [Except.toOption, Option.map_some, Option.some.injEq, Prod.mk.injEq] at hrun
    obtain ⟨hnames, htime, hdate⟩ := hrun
    obtain ⟨hiff, -, hfails⟩ := usesTime_iff hbuild rfl
    have huses : f.usesTime = true := hiff.mpr (.inl (by rw [hnames]; decide))
    refine ⟨f, rfl, rfl, huses, ?_⟩
    rcases hfails huses r "m" rfl with ⟨time, ht⟩ | hrender
    · rw [ht] at htime
      cases htime
    · rw [hrender, hdate]
      rfl

/-- Templates without a field for the time that are taken to show it: the mark stands in a
    text, in a longer key, or in front of a longer name.  The first one is not rendered with
    a date format that does not fit the record; by its fields alone it would be. -/
theorem time_formatted_for_text :
    (∀ p ∈ [(Style.percent, "%%(asctime)s %(message)s"), (.percent, "%(a%(asctime)b)s"),
        (.brace, "\x7b\x7basctime\x7d\x7d \x7bmessage\x7d"), (.brace, "\x7basctimes\x7d"),
        (.dollar, "$$asctime $message"), (.dollar, "$asctimes")],
      ((build { format? := some p.2, style := p.1 }).toOption.map fun f =>
        (f.usesTime, decide ("asctime" ∈ f.names))) = some (true, false)) ∧
    ((build { format? := some "%%(asctime)s %(message)s", dateFormat? := some "%#z" }).toOption.map
      fun f =>
        let r := Record.simple "app" Level.info "m" Inhabited.default
        ((f.render r).toOption, ({ f with usesTime := false }.render r).toOption)) =
      some (none, some "%(asctime)s m") := by
  decide +kernel

end Formatter

end Logbook
