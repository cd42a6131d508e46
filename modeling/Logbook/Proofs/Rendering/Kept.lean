import Logbook.Formatter
import Logbook.Proofs.Results
import Mathlib.Logic.Function.Iterate

/-! # What is kept with a record

    To render a record fills in what is kept with it: the expanded message and the text
    of its failure.  A later rendering starts from there.

    The message is kept before the template is read, so that no template can tell whether
    it had been there.  The text of the failure is kept after the template has been filled
    in, and the attribute `exc_text` shows what is kept.  A template that names it
    therefore shows nothing for it in the first rendering and the text in the second; from
    then on nothing changes any more.
-/

namespace Logbook

/-! ## Records without what is kept -/

namespace Record

/-- The record without anything kept. -/
def fresh (r : Record) : Record := { r with cachedMessage? := none, cachedException? := none }

/-- What a record knows of an attribute shows what is kept in two places only: the message
    and the text of the failure. -/
theorem attribute?_congr {r r' : Record} {name : String} (hfresh : r.fresh = r'.fresh)
    (hmessage : name ≠ "message")
    (hexception : name = "exc_text" → r.cachedException? = r'.cachedException?) :
    r.attribute? name = r'.attribute? name := by
  obtain ⟨n, l, s, m, a, o, e, st, x, cm, ce⟩ := r
  obtain ⟨n', l', s', m', a', o', e', st', x', cm', ce'⟩ := r'
  simp only [fresh, mk.injEq, and_true] at hfresh
  obtain ⟨rfl, rfl, rfl, rfl, rfl, rfl, rfl, rfl, rfl⟩ := hfresh
  by_cases hname : name = "exc_text"
  · obtain rfl : ce = ce' := hexception hname
    subst hname
    rfl
  · unfold attribute?
    split <;> first | rfl | exact absurd rfl hname | exact absurd rfl hmessage

/-- A message that can be expanded is kept. -/
theorem keepMessage_of_ok {r : Record} {m : String} (h : r.message = .ok m) :
    r.keepMessage = { r with cachedMessage? := some m } := by
  unfold keepMessage
  rw [h]

/-- Nothing is kept of a message that cannot be expanded. -/
theorem keepMessage_of_error {r : Record} {e : LogError} (h : r.message = .error e) :
    r.keepMessage = r := by
  unfold keepMessage
  rw [h]

/-- To ask for the message keeps nothing but the message. -/
@[simp]
theorem fresh_keepMessage (r : Record) : r.keepMessage.fresh = r.fresh := by
  unfold keepMessage
  cases r.message <;> rfl

/-- The text of the failure stays when the message is asked for. -/
@[simp]
theorem cachedException?_keepMessage (r : Record) :
    r.keepMessage.cachedException? = r.cachedException? := by
  unfold keepMessage
  cases r.message <;> rfl

/-- The message is the same when it is asked for again. -/
@[simp]
theorem message_keepMessage (r : Record) : r.keepMessage.message = r.message := by
  cases hmessage : r.message with
  | ok m => rw [keepMessage_of_ok hmessage, message]
  | error e => rw [keepMessage_of_error hmessage, hmessage]

/-- To ask for the message a second time keeps nothing new. -/
@[simp]
theorem keepMessage_keepMessage (r : Record) : r.keepMessage.keepMessage = r.keepMessage := by
  cases hmessage : r.message with
  | ok m =>
    have hkept : r.keepMessage.message = .ok m := by rw [message_keepMessage, hmessage]
    rw [keepMessage_of_ok hkept, keepMessage_of_ok hmessage]
  | error e => rw [keepMessage_of_error hmessage, keepMessage_of_error hmessage]

end Record

namespace Formatter

open Template

variable {f : Formatter} {r r' : Record}

/-! ## What a rendering reads -/

/-- The template has a field of this name. -/
def shows (f : Formatter) (name : String) : Bool :=
  match f.fragments with
  | .error _ => false
  | .ok ps => ps.any fun
    | .literal _ => false
    | .field field => field.name == name

/-- Pieces that do not show the text of the failure are filled in the same way for records
    that differ at most in what is kept; those that show it, if the same text is kept. -/
theorem fill_congr (hfresh : r.fresh = r'.fresh) (message : String) (ps : Fragments)
    (hexception : ∀ field, .field field ∈ ps → field.name = "exc_text" →
      r.cachedException? = r'.cachedException?) :
    f.fill r message ps = f.fill r' message ps := by
  induction ps with
  | nil => rfl
  | cons p ps ih =>
    have hrest := ih fun field hmem => hexception field (List.mem_cons_of_mem _ hmem)
    cases p with
    | literal text => rw [fill, fill, hrest]
    | field field =>
      have horigin : r.origin = r'.origin := (congrArg Record.origin hfresh :)
      have hlook : f.lookup r message field.name = f.lookup r' message field.name := by
        unfold lookup
        split
        · rfl
        split
        · unfold formatTime Record.millis
          rw [horigin]
        · rw [Record.attribute?_congr hfresh ‹_› (hexception field List.mem_cons_self)]
      rw [fill, fill, hrest, hlook]

/-- The template is filled in the same way for records that differ at most in what is kept
    and have the same message; if it shows the text of the failure, the same text has to
    be kept. -/
theorem formatMessage_congr (hfresh : r.fresh = r'.fresh) (hmessage : r.message = r'.message)
    (hexception : f.shows "exc_text" = true → r.cachedException? = r'.cachedException?) :
    f.formatMessage r = f.formatMessage r' := by
  have horigin : r.origin = r'.origin := (congrArg Record.origin hfresh :)
  have htime : f.formatTime r f.dateFormat? = f.formatTime r' f.dateFormat? := by
    unfold formatTime Record.millis
    rw [horigin]
  have hfill : ∀ ps message, f.fragments = .ok ps →
      f.fill r.keepMessage message ps = f.fill r'.keepMessage message ps := by
    intro ps message hps
    refine fill_congr (by simpa using hfresh) message ps ?_
    intro field hmem hname
    have hshows : f.shows "exc_text" = true := by
      simp only [shows, hps, List.any_eq_true]
      exact ⟨.field field, hmem, by simpa using hname⟩
    simpa using hexception hshows
  unfold formatMessage
  rw [hmessage, htime]
  cases hfragments : f.fragments with
  | error text => rfl
  | ok ps => simp only [hfill ps _ hfragments]

/-- Records that agree on what a rendering reads are rendered to the same text, or fail
    with the same error. -/
theorem render_congr (hfresh : r.fresh = r'.fresh) (hmessage : r.message = r'.message)
    (hshown : f.shows "exc_text" = true → r.cachedException? = r'.cachedException?)
    (hexception : f.exceptionText? r = f.exceptionText? r') :
    f.render r = f.render r' := by
  have hstack : r.stack? = r'.stack? := (congrArg Record.stack? hfresh :)
  unfold render
  rw [formatMessage_congr hfresh hmessage hshown, hexception, hstack]

/-! ## What a rendering keeps -/

/-- A rendering changes only what is kept. -/
@[simp]
theorem fresh_keep (f : Formatter) (r : Record) : (f.keep r).fresh = r.fresh := by
  unfold keep
  cases f.formatMessage r with
  | error e => exact r.fresh_keepMessage
  | ok text => exact r.fresh_keepMessage

/-- A rendering does not change the message. -/
@[simp]
theorem message_keep (f : Formatter) (r : Record) : (f.keep r).message = r.message := by
  unfold keep
  cases f.formatMessage r with
  | error e => exact r.message_keepMessage
  | ok text => exact r.message_keepMessage

/-- The text of the failure that is kept: what had been kept, or else, if the template
    could be filled in, the failure rendered now. -/
theorem cachedException?_keep (f : Formatter) (r : Record) :
    (f.keep r).cachedException? =
      match f.formatMessage r with
      | .error _ => r.cachedException?
      | .ok _ => f.exceptionText? r := by
  unfold keep
  cases f.formatMessage r with
  | error e => exact r.cachedException?_keepMessage
  | ok text => rfl

/-- A rendering does not change the text of the failure that is shown at the end. -/
@[simp]
theorem exceptionText?_keep (f : Formatter) (r : Record) :
    f.exceptionText? (f.keep r) = f.exceptionText? r := by
  have hgone : (f.keep r).exception? = r.exception? :=
    (congrArg Record.exception? (f.fresh_keep r) :)
  unfold exceptionText?
  rw [hgone, cachedException?_keep]
  cases f.formatMessage r with
  | error e => rfl
  | ok text =>
    unfold exceptionText?
    cases r.cachedException? <;> cases r.exception? <;> rfl

/-- A template is filled in only for a record whose message can be expanded. -/
theorem message_of_formatMessage {text : String} (h : f.formatMessage r = .ok text) :
    ∃ m, r.message = .ok m := by
  cases hmessage : r.message with
  | ok m => exact ⟨m, rfl⟩
  | error e =>
    unfold formatMessage at h
    rw [hmessage] at h
    cases h

/-- After a rendering nothing is left to do about the message. -/
@[simp]
theorem keepMessage_keep (f : Formatter) (r : Record) : (f.keep r).keepMessage = f.keep r := by
  unfold keep
  cases hformat : f.formatMessage r with
  | error e => exact r.keepMessage_keepMessage
  | ok text =>
    obtain ⟨m, hm⟩ := message_of_formatMessage hformat
    simp only [Record.keepMessage_of_ok hm]
    exact Record.keepMessage_of_ok rfl

/-! ## Rendering again -/

/-- A second rendering cannot show more than the first: the template does not name the
    text of the failure, or there is no failure, or its text has been kept before, or the
    template cannot be filled in. -/
def Settled (f : Formatter) (r : Record) : Prop :=
  f.shows "exc_text" = true → r.exception?.isSome = true → r.cachedException? = none →
    ∃ e, f.formatMessage r = .error e

/-- What a settled record keeps of its failure is what its template has shown. -/
theorem Settled.cachedException?_keep (h : f.Settled r) (hshows : f.shows "exc_text" = true) :
    (f.keep r).cachedException? = r.cachedException? := by
  rw [Formatter.cachedException?_keep]
  cases hformat : f.formatMessage r with
  | error e => rfl
  | ok text =>
    unfold exceptionText?
    cases hkept : r.cachedException? with
    | some kept => rfl
    | none =>
      cases hfailure : r.exception? with
      | none => rfl
      | some e =>
        obtain ⟨e', he'⟩ := h hshows (by rw [hfailure]; rfl) hkept
        cases hformat.symm.trans he'

/-- A record whose template cannot be filled in is settled. -/
theorem Settled.of_error {e : LogError} (h : f.formatMessage r = .error e) : f.Settled r :=
  fun _ _ _ => ⟨e, h⟩

/-- A settled record has its template filled in again as it was. -/
theorem Settled.formatMessage_keep (h : f.Settled r) :
    f.formatMessage (f.keep r) = f.formatMessage r :=
  formatMessage_congr (f.fresh_keep r) (f.message_keep r) h.cachedException?_keep

/-- A settled record is rendered again as it was. -/
theorem Settled.render_keep (h : f.Settled r) : f.render (f.keep r) = f.render r :=
  render_congr (f.fresh_keep r) (f.message_keep r) h.cachedException?_keep
    (f.exceptionText?_keep r)

/-- A second rendering keeps nothing new. -/
theorem keep_keep (f : Formatter) (r : Record) : f.keep (f.keep r) = f.keep r := by
  rw [keep, keepMessage_keep, exceptionText?_keep]
  cases hagain : f.formatMessage (f.keep r) with
  | error e => rfl
  | ok text =>
    -- The first filling in cannot have failed, for the second would have failed as well.
    have hkept : (f.keep r).cachedException? = f.exceptionText? r := by
      rw [cachedException?_keep]
      cases hformat : f.formatMessage r with
      | ok text' => rfl
      | error e =>
        have hsame := (Settled.of_error hformat).formatMessage_keep
        cases hagain.symm.trans (hsame.trans hformat)
    simp only [← hkept]

/-- After any further renderings a record is as it was after the first. -/
theorem keep_iterate (f : Formatter) (r : Record) (n : Nat) : f.keep^[n + 1] r = f.keep r := by
  induction n with
  | zero => rfl
  | succ n ih => rw [Function.iterate_succ_apply', ih, keep_keep]

/-- **Rendering again gives the same text.**  From the second rendering on, every rendering
    of a record gives the same text or fails with the same error.  The first does so too,
    unless its template shows the text of a failure that it is the first to render; the
    later ones are then the rendering of a record that has had this text from the start. -/
theorem render_again (f : Formatter) (r : Record) :
    (∀ n, f.render (f.keep^[n + 1] r) = f.render (f.keep r)) ∧
      (f.Settled r → f.render (f.keep r) = f.render r) ∧
      ((∃ text, f.formatMessage r = .ok text) →
        f.render (f.keep r) = f.render { r with cachedException? := f.exceptionText? r }) := by
  refine ⟨fun n => by rw [keep_iterate], Settled.render_keep, ?_⟩
  rintro ⟨text, hformat⟩
  have hkept : (f.keep r).cachedException? = f.exceptionText? r := by
    rw [cachedException?_keep, hformat]
  refine render_congr (f.fresh_keep r) (f.message_keep r) (fun _ => hkept) ?_
  rw [exceptionText?_keep]
  unfold exceptionText?
  cases r.cachedException? <;> cases r.exception? <;> rfl

/-- A failure below the message: the second rendering and all later ones show what the first
    has shown. -/
theorem render_again_failure_below :
    let r : Record :=
      { Record.simple "app" Level.info "m" Inhabited.default with
        exception? := some { typeName := "E", message := "boom" } }
    default.render r = .ok "m\nE: boom" ∧
      ∀ n, default.render (default.keep^[n + 1] r) = .ok "m\nE: boom" := by
  intro r
  have hfirst : default.render r = .ok "m\nE: boom" := eq_ok_of_toOption (by decide +kernel)
  have hsettled : default.Settled r := by
    intro hshows
    exact absurd hshows (by decide +kernel)
  obtain ⟨hlater, hsecond, -⟩ := render_again default r
  exact ⟨hfirst, fun n => (hlater n).trans ((hsecond hsettled).trans hfirst)⟩

/-- A template that names the text of the failure shows nothing for it in the first
    rendering and the text in the second. -/
theorem exception_text_shown_late :
    let r : Record :=
      { Record.simple "app" Level.info "m" Inhabited.default with
        exception? := some { typeName := "E", message := "boom" } }
    ∃ f, build { format? := some "%(message)s|%(exc_text)s" } = .ok f ∧
      f.render r = .ok "m|None\nE: boom" ∧
      f.render (f.keep r) = .ok "m|E: boom\nE: boom" := by
  intro r
  have hrun : ((build { format? := some "%(message)s|%(exc_text)s" }).toOption.map fun f =>
      ((f.render r).toOption, (f.render (f.keep r)).toOption)) =
        some (some "m|None\nE: boom", some "m|E: boom\nE: boom") := by
    decide +kernel
  cases hbuild : build { format? := some "%(message)s|%(exc_text)s" } with
  | error e =>
    rw [hbuild] at hrun
    cases hrun
  | ok f =>
    rw [hbuild] at hrun
    obtain ⟨hfirst, hsecond⟩ := Prod.mk.inj (Option.some.inj hrun)
    exact ⟨f, rfl, eq_ok_of_toOption hfirst, eq_ok_of_toOption hsecond⟩

end Formatter

end Logbook
