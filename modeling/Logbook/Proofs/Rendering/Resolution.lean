import Logbook.Proofs.Rendering.Kept
import Logbook.Proofs.Table

/-! # What a field shows

    The names of attributes fall into two classes.  A built-in name stands for what the
    record knows of its event, or, for the readable time, what the formatter makes of it.
    Any other name stands for an extra attribute of the record, or else for a default of
    the formatter.

    No extra has a built-in name: a record that is made with one is refused, and so is one
    that is added later.  So neither class hides the other, and a template whose fields
    write texts is filled in exactly if every field has a name that is built in, an extra or
    a default; the first other name is the error.
-/

namespace Logbook

namespace Record

variable {r r' : Record} {name key : String} {v : Value}

/-! ## Built-in names and extras -/

/-- A built-in attribute: what the record would know without its extras. -/
def builtIn? (r : Record) (name : String) : Option Value := { r with extra := [] }.attribute? name

/-- Under a built-in name a record shows the built-in attribute.  The readable time is left
    to the formatter. -/
theorem attribute?_of_reserved (h : name ∈ reservedNames) (htime : name ≠ "asctime") :
    r.attribute? name = r.builtIn? name := by
  unfold builtIn? attribute?
  -- Only the last row of the table asks the extras, and no built-in name gets there.
  split <;> first | rfl | simp_all [reservedNames]

/-- A record whose message was asked for has an attribute under each built-in name. -/
theorem isSome_builtIn? (h : name ∈ reservedNames) (htime : name ≠ "asctime")
    (hmessage : r.cachedMessage?.isSome) : (r.builtIn? name).isSome := by
  unfold builtIn? attribute?
  split <;> first | rfl | simpa using hmessage | simp_all [reservedNames]

/-- Under any other name, and under that of the readable time, a record shows its extra. -/
theorem attribute?_of_extra (h : name ∉ reservedNames ∨ name = "asctime") :
    r.attribute? name = r.extra.get? name := by
  unfold attribute?
  split <;> first | rfl | exact absurd h (by decide)

/-- There is no built-in attribute under such a name. -/
theorem builtIn?_eq_none (h : name ∉ reservedNames ∨ name = "asctime") :
    r.builtIn? name = none :=
  attribute?_of_extra (r := { r with extra := [] }) h

/-! ## Names that are refused -/

/-- A record is made of its parts exactly if no extra has a built-in name. -/
theorem ofParts_eq_ok_iff {parts : RecordParts} {origin : Origin} :
    ofParts parts origin = .ok r ↔
      (∀ k ∈ parts.extra.keys, k ∉ reservedNames) ∧ r = build parts origin := by
  have hfind : (parts.extra.keys.find? fun k => reservedNames.contains k) = none ↔
      ∀ k ∈ parts.extra.keys, k ∉ reservedNames := by
    simp [List.find?_eq_none]
  unfold ofParts
  split
  · next key hkey =>
    rw [hkey] at hfind
    simp only [reduceCtorEq, false_iff] at hfind ⊢
    exact fun h => hfind h.1
  · next hnone =>
    rw [Except.ok.injEq, eq_comm]
    exact ⟨fun h => ⟨hfind.mp hnone, h⟩, And.right⟩

/-- An extra is added exactly if its name is not built in. -/
theorem setExtra_eq_ok_iff :
    r.setExtra key v = .ok r' ↔
      key ∉ reservedNames ∧ r' = { r with extra := r.extra.insert key v } := by
  unfold setExtra
  split
  · next h => simp [List.contains_iff_mem.mp h]
  · next h =>
    rw [Except.ok.injEq, eq_comm]
    exact ⟨fun heq => ⟨fun hmem => h (List.contains_iff_mem.mpr hmem), heq⟩, And.right⟩

/-! ## Whatever happens to a record -/

/-- What can be done with a record after it has been made. -/
inductive Change where
  /-- An extra is added, unless it is refused. -/
  | setExtra (key : String) (v : Value)
  /-- Its message is asked for. -/
  | message
  /-- It is rendered. -/
  | format (f : Formatter)
  | withArgs (args : Arguments)
  | withException (e : ExceptionInfo)
  | withStack (stack : String)
  /-- A copy with a finished text takes its place. -/
  | prepared (text : String)

/-- The record afterwards.  An extra that is refused leaves it as it was. -/
def Change.apply (r : Record) : Change → Record
  | setExtra key v => (r.setExtra key v).toOption.getD r
  | message => r.keepMessage
  | format f => f.keep r
  | withArgs args => r.withArgs args
  | withException e => r.withException e
  | withStack stack => r.withStack stack
  | prepared text => r.prepared text

/-- **Made**: a record that a program can have, whatever it has done with it. -/
inductive Made : Record → Prop where
  | ofParts {parts : RecordParts} {origin : Origin} {r : Record}
      (h : ofParts parts origin = .ok r) : Made r
  | simple (name : String) (level : Level) (msg : String) (origin : Origin) :
      Made (simple name level msg origin)
  | change {r : Record} (before : Made r) (c : Change) : Made (c.apply r)

/-- No change but an accepted extra touches the extras. -/
theorem extra_apply (r : Record) (c : Change) :
    (c.apply r).extra = r.extra ∨
      ∃ key v, c = .setExtra key v ∧ key ∉ reservedNames ∧
        (c.apply r).extra = r.extra.insert key v := by
  cases c with
  | setExtra key v =>
    cases hset : r.setExtra key v with
    | error e => exact .inl (by rw [Change.apply, hset]; rfl)
    | ok r' =>
      obtain ⟨hkey, rfl⟩ := setExtra_eq_ok_iff.mp hset
      exact .inr ⟨key, v, rfl, hkey, by rw [Change.apply, hset]; rfl⟩
  | message => exact .inl (congrArg Record.extra r.fresh_keepMessage :)
  | format f => exact .inl (congrArg Record.extra (f.fresh_keep r) :)
  | withArgs args => exact .inl rfl
  | withException e => exact .inl rfl
  | withStack stack => exact .inl rfl
  | prepared text => exact .inl rfl

/-- **No extra ever has a built-in name.** -/
theorem Made.extra_unreserved (h : r.Made) : ∀ k ∈ r.extra.keys, k ∉ reservedNames := by
  induction h with
  | ofParts hmade =>
    obtain ⟨hkeys, rfl⟩ := ofParts_eq_ok_iff.mp hmade
    exact hkeys
  | simple name level msg origin => exact fun k hk => absurd hk List.not_mem_nil
  | @change r before c ih =>
    -- The extras are as they were, or one more has passed the check.
    intro k hk
    rcases r.extra_apply c with hsame | ⟨key, v, -, hkey, hinsert⟩
    · exact ih k (hsame ▸ hk)
    · rw [hinsert, ← Table.isSome_get?_iff, Table.get?_insert] at hk
      split at hk
      · next heq => exact heq ▸ hkey
      · exact ih k (Table.isSome_get?_iff.mp hk)

/-- Every extra of a record is seen under its name. -/
theorem Made.attribute?_eq_extra (h : r.Made) (hv : r.extra.get? name = some v) :
    r.attribute? name = some v := by
  have hkey : name ∈ r.extra.keys := Table.isSome_get?_iff.mp (hv ▸ rfl)
  rw [attribute?_of_extra (.inl (h.extra_unreserved name hkey)), hv]

/-- Every built-in attribute of a record is seen under its name. -/
theorem Made.attribute?_eq_builtIn? (h : r.Made) (hname : name ∈ reservedNames) :
    r.attribute? name = r.builtIn? name := by
  by_cases htime : name = "asctime"
  · have hnone : r.extra.get? name = none := by
      rw [← Option.not_isSome_iff_eq_none, Table.isSome_get?_iff]
      exact fun hkey => h.extra_unreserved name hkey hname
    rw [attribute?_of_extra (.inr htime), builtIn?_eq_none (.inr htime), hnone]
  · exact attribute?_of_reserved hname htime

end Record

namespace Template

/-! ## Fields that write texts -/

/-- The rule writes a value as a text, plain or quoted: the conversions `s`, `r` and `a`,
    brace fields of kind `s` or of none, and placeholders. -/
def Rule.isText : Rule → Bool
  | .conversion c => c.kind = .s || c.kind = .r || c.kind = .a
  | .field spec => spec.kind? = none || spec.kind? = some .s
  | .plain => true

/-- A value of any kind has a text. -/
theorem Rule.exists_render {rule : Rule} (h : rule.isText = true) (v : Value) :
    ∃ text, rule.render v = .ok text := by
  cases rule with
  | conversion c =>
    simp only [isText, Bool.or_eq_true, decide_eq_true_eq] at h
    rcases h with (hkind | hkind) | hkind <;>
      exact ⟨_, by rw [Rule.render, Conversion.render, Conversion.write, hkind]; rfl⟩
  | field spec =>
    simp only [isText, Bool.or_eq_true, decide_eq_true_eq] at h
    rcases h with hkind | hkind <;>
      exact ⟨_, by rw [Rule.render, FieldSpec.render, FieldSpec.body, hkind]; rfl⟩
  | plain => exact ⟨_, rfl⟩

/-- The names of the fields of a template, in order. -/
def fieldNames : Fragments → List String
  | [] => []
  | .literal _ :: ps => fieldNames ps
  | .field field :: ps => field.name :: fieldNames ps

end Template

namespace Formatter

open Template

variable {f : Formatter} {r : Record} {m time name : String} {ps : Fragments}

/-- All fields of the template write texts. -/
def writesTexts (f : Formatter) : Bool :=
  match f.fragments with
  | .error _ => true
  | .ok ps => ps.all fun
    | .literal _ => true
    | .field field => field.rule.isText

/-- The names of the fields, in the order of the template. -/
def names (f : Formatter) : List String :=
  match f.fragments with
  | .error _ => []
  | .ok ps => fieldNames ps

/-! ## The value of a name -/

/-- A built-in attribute as a field shows it: the message has been expanded, and the
    readable time is made by the formatter. -/
def builtIn? (f : Formatter) (r : Record) (name : String) : Option Value :=
  if name = "asctime" then (f.formatTime r f.dateFormat?).toOption.map .str
  else r.keepMessage.builtIn? name

/-- The value that a name stands for: the built-in attribute under a built-in name, else
    the extra of the record, else the default of the formatter. -/
def shown? (f : Formatter) (r : Record) (name : String) : Option Value :=
  if name ∈ Record.reservedNames then f.builtIn? r name
  else (r.extra.get? name).or (f.defaults.get? name)

/-- The name is built in, an extra of the record, or a default of the formatter. -/
def Knows (f : Formatter) (r : Record) (name : String) : Prop :=
  name ∈ Record.reservedNames ∨ name ∈ r.extra.keys ∨ name ∈ f.defaults.keys

instance (f : Formatter) (r : Record) (name : String) : Decidable (f.Knows r name) :=
  inferInstanceAs (Decidable (_ ∨ _ ∨ _))

/-- Only names that are known stand for a value. -/
theorem isSome_shown?_iff (hm : r.message = .ok m) (ht : f.formatTime r f.dateFormat? = .ok time) :
    (f.shown? r name).isSome ↔ f.Knows r name := by
  unfold shown? Knows
  split
  · next hname =>
    refine iff_of_true ?_ (.inl hname)
    unfold builtIn?
    split
    · rw [ht]
      rfl
    · next htime =>
      refine Record.isSome_builtIn? hname htime ?_
      rw [Record.keepMessage_of_ok hm]
      rfl
  · next hname =>
    rw [Option.isSome_or, Bool.or_eq_true, Table.isSome_get?_iff, Table.isSome_get?_iff,
      or_iff_right hname]

/-- The value of a field is looked up under its name. -/
theorem lookup_eq (hm : r.message = .ok m) (ht : f.formatTime r f.dateFormat? = .ok time)
    (name : String) :
    f.lookup r.keepMessage m name =
      match f.shown? r name with
      | some v => .ok v
      | none => .error (.missingAttribute name) := by
  have hkept := Record.keepMessage_of_ok hm
  have htime : f.formatTime r.keepMessage f.dateFormat? = .ok time := by rw [hkept]; exact ht
  unfold lookup shown? builtIn?
  -- The message and the time are tried first, then the record, and the defaults last.
  by_cases hmessage : name = "message"
  · subst hmessage
    rw [if_pos rfl, if_pos (by decide), if_neg (by decide), hkept]
    rfl
  · rw [if_neg hmessage]
    by_cases hasctime : name = "asctime"
    · rw [if_pos hasctime, if_pos (by rw [hasctime]; decide), if_pos hasctime, htime, ht]
      rfl
    · rw [if_neg hasctime, if_neg hasctime]
      by_cases hreserved : name ∈ Record.reservedNames
      · rw [if_pos hreserved, Record.attribute?_of_reserved hreserved hasctime]
        obtain ⟨v, hv⟩ := Option.isSome_iff_exists.mp
          (Record.isSome_builtIn? (r := r.keepMessage) hreserved hasctime (by rw [hkept]; rfl))
        rw [hv]
        rfl
      · rw [if_neg hreserved, Record.attribute?_of_extra (.inl hreserved), hkept]
        cases r.extra.get? name <;> rfl

/-! ## Filling in -/

/-- The characters that stand for a piece: a literal itself, and for a field the value of its
    name, written by its rule. -/
def Fills (f : Formatter) (r : Record) : Piece Field → List Char → Prop
  | .literal text, out => out = text
  | .field field, out => ∃ v, f.shown? r field.name = some v ∧ field.rule.render v = .ok out

/-- A field whose value is found and written is filled in with it. -/
theorem fill_field {field : Field} {v : Value} {out : List Char}
    (hlook : f.lookup r m field.name = .ok v) (hout : field.rule.render v = .ok out) :
    f.fill r m (.field field :: ps) = (f.fill r m ps).map (out ++ ·) := by
  rw [fill, hlook]
  show (field.rule.render v >>= fun text => f.fill r m ps >>= fun rest => pure (text ++ rest)) = _
  rw [hout]
  cases f.fill r m ps <;> rfl

/-- What is filled in, or the first name that is not known. -/
theorem fill_spec (hm : r.message = .ok m) (ht : f.formatTime r f.dateFormat? = .ok time)
    (htexts : ∀ field, .field field ∈ ps → field.rule.isText = true) :
    match (fieldNames ps).find? fun n => ¬ f.Knows r n with
    | some n => f.fill r.keepMessage m ps = .error (.missingAttribute n)
    | none => ∃ outs, List.Forall₂ (f.Fills r) ps outs ∧
        f.fill r.keepMessage m ps = .ok outs.flatten := by
  induction ps with
  | nil => exact ⟨[], .nil, rfl⟩
  | cons p ps ih =>
    have hrest := ih fun field hmem => htexts field (List.mem_cons_of_mem _ hmem)
    -- The first name that is not known is that of this field, or it comes behind.
    cases p with
    | literal text =>
      rw [fieldNames, fill]
      generalize (fieldNames ps).find? (fun n => ¬ f.Knows r n) = first? at hrest
      cases first? with
      | some n =>
        dsimp only at hrest ⊢
        rw [hrest]
        rfl
      | none =>
        obtain ⟨outs, hfills, hfill⟩ := hrest
        exact ⟨text :: outs, .cons rfl hfills, by rw [hfill]; rfl⟩
    | field field =>
      have hlook := lookup_eq hm ht field.name
      rw [fieldNames, List.find?_cons]
      cases hshown : f.shown? r field.name with
      | none =>
        have hunknown : ¬ f.Knows r field.name := by
          rw [← isSome_shown?_iff hm ht, hshown]
          exact Bool.false_ne_true
        rw [hshown] at hlook
        simp only [hunknown, not_false_eq_true, decide_true]
        rw [fill, hlook]
        rfl
      | some v =>
        have hknown : f.Knows r field.name := (isSome_shown?_iff hm ht).mp (hshown ▸ rfl)
        obtain ⟨out, hout⟩ := Rule.exists_render (htexts field List.mem_cons_self) v
        rw [hshown] at hlook
        simp only [hknown, not_true_eq_false, decide_false, fill_field hlook hout]
        generalize (fieldNames ps).find? (fun n => ¬ f.Knows r n) = first? at hrest
        cases first? with
        | some n =>
          dsimp only at hrest ⊢
          rw [hrest]
          rfl
        | none =>
          obtain ⟨outs, hfills, hfill⟩ := hrest
          exact ⟨out :: outs, .cons ⟨v, hshown, hout⟩ hfills, by rw [hfill]; rfl⟩

/-- A template is filled in for a record whose message can be expanded and whose time, if it
    is needed, can be written. -/
theorem formatMessage_eq (hm : r.message = .ok m)
    (ht : f.usesTime = true → ∃ time, f.formatTime r f.dateFormat? = .ok time)
    (hps : f.fragments = .ok ps) :
    f.formatMessage r = (f.fill r.keepMessage m ps).map String.ofList := by
  have hfilled : (f.fill r.keepMessage m ps >>= fun text => pure (String.ofList text)) =
      (f.fill r.keepMessage m ps).map String.ofList := by
    cases f.fill r.keepMessage m ps <;> rfl
  unfold formatMessage
  rw [hm, hps]
  cases huses : f.usesTime with
  | false => exact hfilled
  | true =>
    obtain ⟨time, htime⟩ := ht huses
    rw [htime]
    exact hfilled

/-! ## Rendering -/

/-- What is put on a new line comes behind what was there. -/
theorem prefix_onNewLine (out text : String) : out.toList <+: (onNewLine out text).toList := by
  unfold onNewLine
  split <;> simp [String.toList_append, List.append_assoc]

/-- A record is rendered exactly if its template is filled in, and with that text at the
    beginning. -/
theorem render_cases (f : Formatter) (r : Record) :
    (∃ e, f.formatMessage r = .error e ∧ f.render r = .error e) ∨
      ∃ text out, f.formatMessage r = .ok text ∧ f.render r = .ok out ∧
        text.toList <+: out.toList := by
  unfold render
  cases f.formatMessage r with
  | error e => exact .inl ⟨e, rfl, rfl⟩
  | ok text =>
    right
    -- The exception and the stack are put behind what the template gives, on new lines.
    obtain ⟨below, hbelow, hbegins⟩ : ∃ below, (match f.exceptionText? r with
        | some t => if t.isEmpty then text else onNewLine text t
        | none => text) = below ∧ text.toList <+: below.toList := by
      refine ⟨_, rfl, ?_⟩
      split
      · split
        · exact List.prefix_rfl
        · exact prefix_onNewLine text _
      · exact List.prefix_rfl
    subst hbelow
    cases r.stack? with
    | none => exact ⟨text, _, rfl, rfl, hbegins⟩
    | some stack => exact ⟨text, _, rfl, rfl, hbegins.trans (prefix_onNewLine _ _)⟩

/-! ## Formatters made with validation -/

/-- The template of a formatter that was made with validation has been read, and its text
    tells whether it shows the readable time. -/
theorem fragments_of_build {o : FormatterOptions} (hbuild : build o = .ok f)
    (hvalid : o.validate = true) :
    f.usesTime = f.style.usesTime f.format ∧
      ∃ ps, f.style.fragments f.format = .ok ps ∧ f.fragments = .ok ps := by
  unfold build at hbuild
  dsimp only at hbuild
  split at hbuild
  · cases hbuild
  · next fragments hread =>
    -- With validation a template that cannot be read is refused, and not kept as an error.
    obtain ⟨ps, hps, rfl⟩ : ∃ ps, o.style.fragments (o.format?.getD o.style.defaultFormat) =
        .ok ps ∧ fragments = .ok ps := by
      unfold readTemplate at hread
      rw [hvalid] at hread
      split at hread
      · next ps hps =>
        split at hread
        · cases hread
        · exact ⟨ps, hps, (Except.ok.inj hread).symm⟩
      · cases hread
    split at hbuild
    · obtain rfl := Except.ok.inj hbuild
      exact ⟨rfl, ps, hps, rfl⟩
    · split at hbuild
      · obtain rfl := Except.ok.inj hbuild
        exact ⟨rfl, ps, hps, rfl⟩
      · cases hbuild

/-- **Every name has one meaning.**  A formatter that was made with validation, and whose
    fields write texts, renders a record whose message can be expanded and whose time can be
    written exactly if each of its fields has a name that is built in, an extra of the
    record or a default of the formatter.  If not, the first other name of the template is
    the missing attribute.  If so, the text begins with the template, in which each field
    shows what its name stands for: the built-in attribute, or else the extra, or else the
    default.

    A record is refused if and only if one of its extras has a built-in name, and so is an
    extra that is added, which leaves the record as it was.  So whatever happens to a
    record, none of its extras has a built-in name, and each attribute of either kind is
    seen under its own. -/
theorem attribute_resolution {o : FormatterOptions} (hbuild : build o = .ok f)
    (hvalid : o.validate = true) (htexts : f.writesTexts = true) :
    (∀ r m time, r.message = .ok m → f.formatTime r f.dateFormat? = .ok time →
      ((∃ out, f.render r = .ok out) ↔ ∀ n ∈ f.names, f.Knows r n) ∧
      (∀ e, f.render r = .error e ↔ ∃ n,
        f.names.find? (fun n => ¬ f.Knows r n) = some n ∧ e = .missingAttribute n) ∧
      ∀ out, f.render r = .ok out → ∃ ps outs, f.fragments = .ok ps ∧
        List.Forall₂ (f.Fills r) ps outs ∧ outs.flatten <+: out.toList) ∧
    (∀ parts origin, (∃ r, Record.ofParts parts origin = .ok r) ↔
      ∀ k ∈ parts.extra.keys, k ∉ Record.reservedNames) ∧
    (∀ (r : Record) key v, (∃ r', r.setExtra key v = .ok r') ↔ key ∉ Record.reservedNames) ∧
    (∀ (r : Record) key v, (Record.Change.setExtra key v).apply r =
      if key ∈ Record.reservedNames then r else { r with extra := r.extra.insert key v }) ∧
    ∀ r : Record, r.Made →
      (∀ k ∈ r.extra.keys, k ∉ Record.reservedNames) ∧
      (∀ name v, r.extra.get? name = some v → r.attribute? name = some v) ∧
      ∀ name ∈ Record.reservedNames, r.attribute? name = r.builtIn? name := by
  obtain ⟨-, ps, -, hps⟩ := fragments_of_build hbuild hvalid
  have hnames : f.names = fieldNames ps := by rw [names, hps]
  have htext : ∀ field, .field field ∈ ps → field.rule.isText = true := by
    intro field hmem
    rw [writesTexts, hps] at htexts
    exact List.all_eq_true.mp htexts _ hmem
  refine ⟨?_, ?_, ?_, ?_, fun r hmade => ⟨hmade.extra_unreserved,
    fun _ _ => hmade.attribute?_eq_extra, fun _ => hmade.attribute?_eq_builtIn?⟩⟩
  · intro r m time hm ht
    have hfill := fill_spec hm ht htext
    have hmessage := formatMessage_eq hm (fun _ => ⟨time, ht⟩) hps
    have hall : (f.names.find? fun n => ¬ f.Knows r n) = none ↔ ∀ n ∈ f.names, f.Knows r n := by
      simp [List.find?_eq_none]
    rw [← hnames] at hfill
    rw [← hall]
    -- The first name that is not known, if there is one, decides over all three.
    cases hfirst : f.names.find? fun n => ¬ f.Knows r n with
    | some n =>
      rw [hfirst] at hfill
      dsimp only at hfill
      rw [hfill] at hmessage
      rcases f.render_cases r with ⟨e, he, hrender⟩ | ⟨text, out, htext, -⟩
      · obtain rfl : e = .missingAttribute n := (Except.error.inj (he.symm.trans hmessage))
        rw [hrender]
        simp [eq_comm]
      · cases htext.symm.trans hmessage
    | none =>
      rw [hfirst] at hfill
      obtain ⟨outs, hfills, hfill⟩ := hfill
      rw [hfill] at hmessage
      rcases f.render_cases r with ⟨e, he, -⟩ | ⟨text, out, htext, hrender, hbegins⟩
      · cases he.symm.trans hmessage
      · obtain rfl : text = String.ofList outs.flatten := Except.ok.inj (htext.symm.trans hmessage)
        rw [String.toList_ofList] at hbegins
        rw [hrender]
        refine ⟨by simp, by simp, ?_⟩
        intro out' hout
        obtain rfl := Except.ok.inj hout
        exact ⟨ps, outs, hps, hfills, hbegins⟩
  · intro parts origin
    simp only [Record.ofParts_eq_ok_iff, exists_and_left, exists_eq, and_true]
  · intro r key v
    simp only [Record.setExtra_eq_ok_iff, exists_and_left, exists_eq, and_true]
  · intro r key v
    simp only [Record.Change.apply, Record.setExtra, List.contains_iff_mem]
    split <;> rfl

/-- A field for which there is a default, and one for which there is an extra or nothing. -/
theorem attribute_resolution_with_default :
    let o : FormatterOptions :=
      { format? := some "%(levelname)-8s %(user)r [%(request)s] %(message)s"
        defaults := [("request", .str "none")] }
    let r := Record.simple "app" Level.info "m" Inhabited.default
    ∃ f, build o = .ok f ∧ o.validate = true ∧ f.writesTexts = true ∧
      (∃ time, f.formatTime r f.dateFormat? = .ok time) ∧
      f.render r = .error (.missingAttribute "user") ∧
      ∃ out, f.render { r with extra := [("user", .str "ada")] } = .ok out := by
  intro o r
  have hrun : ((build o).toOption.map fun f => (f.writesTexts, f.names, f.defaults,
      (f.formatTime r f.dateFormat?).toOption.isSome)) =
        some (true, ["levelname", "user", "request", "message"], [("request", .str "none")],
          true) := by
    decide +kernel
  cases hbuild : build o with
  | error e =>
    rw [hbuild] at hrun
    cases hrun
  | ok f =>
    rw [hbuild] at hrun
    simp only [Except.toOption, Option.map_some, Option.some.injEq, Prod.mk.injEq] at hrun
    obtain ⟨htexts, hnames, hdefaults, htime⟩ := hrun
    obtain ⟨time, ht⟩ : ∃ time, f.formatTime r f.dateFormat? = .ok time := by
      cases h : f.formatTime r f.dateFormat? with
      | ok time => exact ⟨time, rfl⟩
      | error e =>
        rw [h] at htime
        cases htime
    obtain ⟨hresolves, -⟩ := attribute_resolution hbuild rfl htexts
    refine ⟨f, rfl, rfl, htexts, ⟨time, ht⟩, ?_, ?_⟩
    · refine ((hresolves r "m" time rfl ht).2.1 _).mpr ⟨"user", ?_, rfl⟩
      rw [hnames]
      simp only [Knows, hdefaults]
      decide
    · refine (hresolves { r with extra := [("user", .str "ada")] } "m" time rfl ht).1.mpr ?_
      rw [hnames]
      simp only [Knows, hdefaults]
      decide

end Formatter

end Logbook
