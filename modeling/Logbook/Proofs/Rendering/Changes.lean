import Logbook.Proofs.Rendering.Kept

/-! # Records that change between renderings

    What is kept with a record was computed from its arguments and from its failure.  Other
    arguments throw away the message that was kept; another failure leaves the text that
    was kept where it is.

    So the message of a record is always the one that its present arguments give, and a
    record is rendered as one that has just been made of the same parts, as long as no
    other failure is attached to it once the text of one has been kept.
-/

namespace Logbook

/-! ## Plain formatters -/

/-- The text of a failure, as it is usually written. -/
def ExceptionInfo.usualText (e : ExceptionInfo) : String := Formatter.default.formatException e

/-- A formatter that writes failures in the usual way and whose template does not name
    their text. -/
structure PlainFormatter extends Formatter where
  noHook : exceptionHook? = none
  unnamed : toFormatter.shows "exc_text" = false

/-- A plain formatter writes every failure in the usual way. -/
theorem PlainFormatter.formatException_eq (f : PlainFormatter) (e : ExceptionInfo) :
    f.formatException e = e.usualText := by
  unfold ExceptionInfo.usualText Formatter.formatException
  rw [f.noHook]
  rfl

namespace Record

/-! ## What can happen to a record -/

/-- What can be done with a record between two renderings. -/
inductive Touch where
  /-- Its message is asked for. -/
  | message
  /-- It is rendered. -/
  | format (f : PlainFormatter)
  /-- A copy of it, with all that is kept, takes its place. -/
  | clone
  /-- It gets other arguments. -/
  | withArgs (args : Arguments)
  /-- It gets another failure. -/
  | withException (e : ExceptionInfo)
  /-- It gets another call stack. -/
  | withStack (stack : String)

namespace Touch

/-- The record afterwards. -/
def apply (r : Record) : Touch → Record
  | message => r.keepMessage
  | format f => f.keep r
  | clone => r
  | withArgs args => r.withArgs args
  | withException e => r.withException e
  | withStack stack => r.withStack stack

/-- The arguments that are set. -/
def args? : Touch → Option Arguments
  | withArgs args => some args
  | _ => none

/-- The failure that is set. -/
def exception? : Touch → Option ExceptionInfo
  | withException e => some e
  | _ => none

/-- The call stack that is set. -/
def stack? : Touch → Option String
  | withStack stack => some stack
  | _ => none

end Touch

/-- The record after all of this has been done with it, in order. -/
def touched (r : Record) (ts : List Touch) : Record := ts.foldl Touch.apply r

/-- A record made anew: of the fields and extras of another, and of the arguments, the
    failure and the call stack that were set last. -/
def madeAnew (r : Record) (ts : List Touch) : Record :=
  build
    { name := r.name, level := r.level, site := r.site, msg := r.msg,
      args := (ts.filterMap Touch.args?).getLast?.getD r.args,
      exception? := (ts.filterMap Touch.exception?).getLast?.or r.exception?,
      stack? := (ts.filterMap Touch.stack?).getLast?.or r.stack?,
      extra := r.extra }
    r.origin

variable {r : Record} {t : Touch} {ts : List Touch}

/-- What was set last, when one more comes first. -/
theorem getLast?_filterMap_cons {α β : Type} (g : α → Option β) (a : α) (as : List α) :
    ((a :: as).filterMap g).getLast? = ((as.filterMap g).getLast?).or (g a) := by
  cases hg : g a with
  | none => rw [List.filterMap_cons_none hg, Option.or_none]
  | some b =>
    rw [List.filterMap_cons_some hg, List.getLast?_cons]
    cases (as.filterMap g).getLast? <;> rfl

/-- A record that is touched once more is made anew from what the first touch has made of
    it. -/
theorem madeAnew_cons (r : Record) (t : Touch) (ts : List Touch) :
    r.madeAnew (t :: ts) = (t.apply r).madeAnew ts := by
  -- Made anew, a record forgets what it has kept, so a touch that only keeps something changes
  -- nothing; what a touch sets counts unless a later one sets it again.
  have hfresh : ∀ r' : Record, r'.fresh = r.fresh → r.madeAnew ts = r'.madeAnew ts := by
    intro r' h
    have hanew : ∀ r : Record, r.madeAnew ts = r.fresh.madeAnew ts := fun _ => rfl
    rw [hanew r, hanew r', h]
  cases t with
  | message => exact hfresh _ r.fresh_keepMessage
  | format f => exact hfresh _ (f.fresh_keep r)
  | clone => rfl
  | withArgs args =>
    unfold madeAnew
    rw [getLast?_filterMap_cons]
    cases (ts.filterMap Touch.args?).getLast? <;> rfl
  | withException e =>
    unfold madeAnew
    rw [getLast?_filterMap_cons Touch.exception?]
    cases (ts.filterMap Touch.exception?).getLast? <;> rfl
  | withStack stack =>
    unfold madeAnew
    rw [getLast?_filterMap_cons Touch.stack?]
    cases (ts.filterMap Touch.stack?).getLast? <;> rfl

/-- Apart from what is kept, a record that has been touched is the one made anew. -/
theorem fresh_touched (r : Record) (ts : List Touch) : (r.touched ts).fresh = r.madeAnew ts := by
  induction ts generalizing r with
  | nil => rfl
  | cons t ts ih => rw [madeAnew_cons, ← ih]; rfl

/-! ## What is kept is right -/

/-- The message that is kept is the one that the present template and arguments give. -/
def MessageRight (r : Record) : Prop :=
  ∀ m, r.cachedMessage? = some m → Message.expand r.msg r.args = .ok m

/-- The text of a failure that is kept is that of the present failure. -/
def ExceptionRight (r : Record) : Prop :=
  ∀ text, r.cachedException? = some text → ∃ e, r.exception? = some e ∧ text = e.usualText

/-- What is kept is what would be computed now. -/
structure Faithful (r : Record) : Prop where
  message : r.MessageRight
  exception : r.ExceptionRight

/-- Nothing is kept with a record that has just been made. -/
theorem faithful_build (parts : RecordParts) (origin : Origin) :
    (build parts origin).Faithful where
  message := fun _ h => by cases h
  exception := fun _ h => by cases h

/-- A copy that carries a finished text keeps it as the message that it has. -/
theorem faithful_prepared (r : Record) (text : String) : (r.prepared text).Faithful where
  message := fun _ h => congrArg Except.ok (Option.some.inj h)
  exception := fun _ h => by cases h

/-- A message that is right is the one that is expanded anew. -/
theorem MessageRight.message_eq (h : r.MessageRight) :
    r.message = Message.expand r.msg r.args := by
  unfold message
  cases hkept : r.cachedMessage? with
  | none => rfl
  | some m => exact (h m hkept).symm

/-- A message that is asked for is kept as it is. -/
theorem MessageRight.keepMessage (h : r.MessageRight) : r.keepMessage.MessageRight := by
  cases hmessage : r.message with
  | error e => rwa [keepMessage_of_error hmessage]
  | ok m =>
    rw [keepMessage_of_ok hmessage]
    intro m' hm'
    obtain rfl : m = m' := Option.some.inj hm'
    show Message.expand r.msg r.args = .ok m
    rw [← h.message_eq, hmessage]

/-- A rendering keeps the message and nothing else in its place. -/
theorem cachedMessage?_keep (f : Formatter) (r : Record) :
    (f.keep r).cachedMessage? = r.keepMessage.cachedMessage? := by
  unfold Formatter.keep
  cases f.formatMessage r <;> rfl

/-- Whatever is done with a record, the message that is kept stays right: other arguments
    throw it away. -/
theorem MessageRight.apply (h : r.MessageRight) (t : Touch) : (t.apply r).MessageRight := by
  cases t with
  | message => exact h.keepMessage
  | format f =>
    intro m hm
    -- A rendering keeps the message of the template and arguments that are there.
    have hsame : (f.keep r).fresh = r.keepMessage.fresh :=
      (f.fresh_keep r).trans r.fresh_keepMessage.symm
    have hmsg : (f.keep r).msg = r.keepMessage.msg := (congrArg Record.msg hsame :)
    have hargs : (f.keep r).args = r.keepMessage.args := (congrArg Record.args hsame :)
    show Message.expand (f.keep r).msg (f.keep r).args = .ok m
    rw [hmsg, hargs]
    exact h.keepMessage m (cachedMessage?_keep f.toFormatter r ▸ hm)
  | clone => exact h
  | withArgs args => exact fun m hm => by cases hm
  | withException e => exact h
  | withStack stack => exact h

/-- A plain rendering keeps the text of the present failure. -/
theorem ExceptionRight.keep (h : r.ExceptionRight) (f : PlainFormatter) :
    (f.keep r).ExceptionRight := by
  intro text htext
  have hfailure : (f.keep r).exception? = r.exception? :=
    (congrArg Record.exception? (f.fresh_keep r) :)
  rw [hfailure]
  rw [Formatter.cachedException?_keep] at htext
  cases hformat : f.formatMessage r with
  | error e =>
    rw [hformat] at htext
    exact h text htext
  | ok out =>
    rw [hformat] at htext
    replace htext : f.exceptionText? r = some text := htext
    unfold Formatter.exceptionText? at htext
    -- A text that was kept is kept on, and a new one is that of the present failure.
    cases hkept : r.cachedException? with
    | some text' =>
      rw [hkept] at htext
      exact h text (hkept.trans htext)
    | none =>
      rw [hkept] at htext
      obtain ⟨e, he, rfl⟩ := Option.map_eq_some_iff.mp htext
      exact ⟨e, he, f.formatException_eq e⟩

/-- Whatever is done with a record, what is kept of its failure stays right, unless another
    failure is attached that is written in another way. -/
theorem ExceptionRight.apply (h : r.ExceptionRight)
    (ht : ∀ e, t = .withException e →
      ∀ text, r.cachedException? = some text → text = e.usualText) :
    (t.apply r).ExceptionRight := by
  cases t with
  | message =>
    intro text htext
    have hfailure : r.keepMessage.exception? = r.exception? :=
      (congrArg Record.exception? r.fresh_keepMessage :)
    show ∃ e, r.keepMessage.exception? = some e ∧ text = e.usualText
    rw [hfailure]
    exact h text (r.cachedException?_keepMessage ▸ htext)
  | format f => exact h.keep f
  | clone => exact h
  | withArgs args => exact h
  | withException e => exact fun text htext => ⟨e, rfl, ht e rfl text htext⟩
  | withStack stack => exact h

/-- The text of a failure that has been kept stays, whatever is done with the record. -/
theorem cachedException?_apply {text : String} (h : r.cachedException? = some text)
    (t : Touch) : (t.apply r).cachedException? = some text := by
  cases t with
  | message => exact r.cachedException?_keepMessage.trans h
  | format f =>
    show (f.keep r).cachedException? = some text
    rw [Formatter.cachedException?_keep]
    -- A rendering that fails at the message gets to no failure.
    cases f.formatMessage r with
    | error e => exact h
    | ok out =>
      show f.exceptionText? r = some text
      unfold Formatter.exceptionText?
      rw [h]
  | clone => exact h
  | withArgs args => exact h
  | withException e => exact h
  | withStack stack => exact h

/-! ## Along all that is done with a record -/

/-- No failure is attached once the text of another one has been kept. -/
def Timely (r : Record) (ts : List Touch) : Prop :=
  ∀ before e after, ts = before ++ .withException e :: after →
    ∀ text, (r.touched before).cachedException? = some text → text = e.usualText

/-- Nothing that is not done comes too late. -/
@[simp]
theorem timely_nil (r : Record) : r.Timely [] := by
  intro before e after hts
  cases before <;> cases hts

/-- All is timely if the first touch is, and the others are after it. -/
theorem timely_cons : r.Timely (t :: ts) ↔
    (∀ e, t = .withException e → ∀ text, r.cachedException? = some text → text = e.usualText) ∧
      (t.apply r).Timely ts := by
  constructor
  · intro h
    refine ⟨?_, ?_⟩
    · rintro e rfl
      exact h [] e ts rfl
    · intro before e after hts
      exact h (t :: before) e after (by rw [hts, List.cons_append])
  · rintro ⟨hfirst, hrest⟩ before e after hts
    -- The failure is attached by the first touch, or by a later one.
    cases before with
    | nil =>
      obtain ⟨rfl, rfl⟩ := List.cons.inj hts
      exact hfirst e rfl
    | cons t' before =>
      obtain ⟨rfl, rfl⟩ := List.cons.inj hts
      exact hrest before e after rfl

/-- The message that is kept is right all along. -/
theorem MessageRight.touched (h : r.MessageRight) (ts : List Touch) :
    (r.touched ts).MessageRight := by
  induction ts generalizing r with
  | nil => exact h
  | cons t ts ih => exact ih (h.apply t)

/-- What is kept of the failure is right all along, if all is timely. -/
theorem ExceptionRight.touched (h : r.ExceptionRight) (hts : r.Timely ts) :
    (r.touched ts).ExceptionRight := by
  induction ts generalizing r with
  | nil => exact h
  | cons t ts ih =>
    obtain ⟨hfirst, hrest⟩ := timely_cons.mp hts
    exact ih (h.apply hfirst) hrest

/-- The text of a failure that has been kept stays all along. -/
theorem cachedException?_touched {text : String} (h : r.cachedException? = some text)
    (ts : List Touch) : (r.touched ts).cachedException? = some text := by
  induction ts generalizing r with
  | nil => exact h
  | cons t ts ih => exact ih (cachedException?_apply h t)

/-- A record that has been touched has the message of the one made anew. -/
theorem MessageRight.message_touched (h : r.MessageRight) (ts : List Touch) :
    (r.touched ts).message = (r.madeAnew ts).message := by
  have hsame := r.fresh_touched ts
  have hmsg : (r.touched ts).msg = (r.madeAnew ts).msg := (congrArg Record.msg hsame :)
  have hargs : (r.touched ts).args = (r.madeAnew ts).args := (congrArg Record.args hsame :)
  rw [(h.touched ts).message_eq, hmsg, hargs]
  rfl

/-- **A record is rendered as one made anew.**  Take a record with which only what is right
    is kept, and let its message be asked for, let it be rendered by plain formatters,
    copied, and given other arguments, failures and call stacks, in any order.  Its message
    is then the one that its present arguments give.  A plain formatter renders it as a
    record that has just been made of its fields and of what was set last, as long as no
    failure was attached once the text of another had been kept; where one was, the text
    that was kept first is shown. -/
theorem render_touched (f : PlainFormatter) (ts : List Touch) (h : r.Faithful) :
    (r.touched ts).message = (r.madeAnew ts).message ∧
      (r.Timely ts → f.render (r.touched ts) = f.render (r.madeAnew ts)) ∧
      ∀ before after text, ts = before ++ after →
        (r.touched before).cachedException? = some text →
        f.render (r.touched ts) =
          f.render { r.madeAnew ts with cachedException? := some text } := by
  have hmessage := h.message.message_touched ts
  have hfresh : (r.touched ts).fresh = (r.madeAnew ts).fresh := r.fresh_touched ts
  have hunseen : ∀ {p : Prop}, f.shows "exc_text" = true → p := by
    intro p hshows
    rw [f.unnamed] at hshows
    cases hshows
  refine ⟨hmessage, ?_, ?_⟩
  · intro hts
    refine Formatter.render_congr hfresh hmessage hunseen ?_
    have hfailure : (r.touched ts).exception? = (r.madeAnew ts).exception? :=
      (congrArg Record.exception? hfresh :)
    show f.exceptionText? (r.touched ts) = (r.madeAnew ts).exception?.map f.formatException
    unfold Formatter.exceptionText?
    rw [← hfailure]
    cases hkept : (r.touched ts).cachedException? with
    | none => rfl
    | some text =>
      -- The text that is kept was written by some plain formatter, and all write alike.
      obtain ⟨e, he, rfl⟩ := h.exception.touched hts text hkept
      rw [he, Option.map_some, f.formatException_eq]
  · rintro before after text rfl hkept
    have hstays : (r.touched (before ++ after)).cachedException? = some text := by
      unfold touched
      rw [List.foldl_append]
      exact cachedException?_touched hkept after
    refine Formatter.render_congr hfresh hmessage hunseen ?_
    unfold Formatter.exceptionText?
    rw [hstays]

/-- The usual formatter is a plain one. -/
def plain : PlainFormatter :=
  { Formatter.default with noHook := rfl, unnamed := by decide +kernel }

/-- Arguments that are set a second time, a failure that is attached before the first
    rendering and a call stack after it: all are shown as they were set last. -/
theorem render_touched_in_time :
    let r : Record := simple "app" Level.info "%s" Inhabited.default
    let ts : List Touch :=
      [.withArgs (.positional [.str "one"]), .message, .withArgs (.positional [.str "two"]),
        .withException { typeName := "E", message := "boom" }, .format plain, .clone,
        .withStack "main"]
    plain.render (r.touched ts) = .ok "two\nE: boom\nmain" := by
  intro r ts
  have hts : r.Timely ts := by
    simp only [ts, timely_cons, timely_nil, reduceCtorEq, false_implies, implies_true, true_and,
      and_true]
    intro e he text htext
    have hnone : (r.touched (ts.take 3)).cachedException? = none := by decide +kernel
    cases hnone.symm.trans htext
  have hr : r.Faithful := faithful_build _ _
  have hanew : plain.render (r.madeAnew ts) = .ok "two\nE: boom\nmain" :=
    eq_ok_of_toOption (by decide +kernel)
  obtain ⟨-, hsame, -⟩ := render_touched plain ts hr
  rw [hsame hts, hanew]

/-- A failure that is attached after another one has been rendered is not shown: the text of
    the former stays. -/
theorem render_touched_former_failure :
    let r : Record := simple "app" Level.info "m" Inhabited.default
    let ts : List Touch :=
      [.withException { typeName := "A", message := "first" }, .format plain,
        .withException { typeName := "B", message := "second" }]
    plain.render (r.touched ts) = .ok "m\nA: first" ∧
      plain.render (r.madeAnew ts) = .ok "m\nB: second" :=
  ⟨eq_ok_of_toOption (by decide +kernel), eq_ok_of_toOption (by decide +kernel)⟩

end Record

end Logbook
