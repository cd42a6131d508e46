import Logbook.Proofs.Queue.Feed

/-! # Records that cross a queue

    A handler that feeds a queue renders each record itself and puts in a copy that
    carries the text.  The copy has the text for its message and nothing else that
    could be shown: no arguments, no failure, no call stack, nothing kept from an
    earlier rendering.  So whoever renders the copy finds exactly the text, as it
    stands, where a message would be, and appends nothing to it.

    A copy that is prepared once more, for a further queue, is a copy of the first
    record with another text.  A chain of queues is therefore no different from one.
-/

namespace Logbook

namespace Record

variable (r : Record) (text : String)

/-- The record with a text for its message and with nothing else to show: no
    arguments, no failure, no call stack, and nothing kept with it. -/
def bare : Record :=
  { r with
    msg := text, args := .none, exception? := none, stack? := none,
    cachedMessage? := none, cachedException? := none }

/-- The attributes that speak of the message, the failure or the call stack. -/
def payloadNames : List String := ["msg", "args", "exc_info", "exc_text", "stack_info", "message"]

/-- Every other attribute, built-in or extra, is that of the record. -/
theorem attribute?_bare {name : String} (hname : name ∉ payloadNames) :
    (r.bare text).attribute? name = r.attribute? name := by
  unfold attribute?
  split <;> first
    | rfl
    | exact absurd (by decide) hname

/-- A text is the message of a bare record as it stands, percent signs included. -/
@[simp] theorem message_bare : (r.bare text).message = .ok text := rfl

/-- A prepared record is a bare one whose message has been asked for. -/
theorem keepMessage_bare : (r.bare text).keepMessage = r.prepared text := rfl

@[simp] theorem message_prepared : (r.prepared text).message = .ok text := rfl

@[simp] theorem keepMessage_prepared : (r.prepared text).keepMessage = r.prepared text := rfl

/-- A record that is prepared again carries the new text only. -/
@[simp] theorem prepared_prepared (text' : String) :
    (r.prepared text).prepared text' = r.prepared text' := rfl

end Record

namespace Formatter

open Template

variable (f : Formatter) (r : Record) (text : String)

/-! ## Rendering a prepared record -/

/-- What rendering keeps with a record is not in the copy that carries the text. -/
@[simp] theorem prepared_keep : (f.keep r).prepared text = r.prepared text := by
  have hkept : r.keepMessage.prepared text = r.prepared text := by
    unfold Record.keepMessage
    cases r.message with
    | ok m => rfl
    | error e => rfl
  unfold keep
  cases f.formatMessage r with
  | ok out => exact hkept
  | error e => exact hkept

/-- A template shows of a prepared record what it shows of a bare one. -/
theorem formatMessage_prepared : f.formatMessage (r.prepared text) = f.formatMessage (r.bare text) := by
  -- Both have the text for their message, and the record whose fields are shown is
  -- the prepared one either way.
  unfold formatMessage
  rw [Record.message_prepared, Record.message_bare, Record.keepMessage_prepared,
    Record.keepMessage_bare]
  rfl

/-- Every formatter renders a prepared record as it renders a bare one: no failure
    and no call stack is left to be appended. -/
theorem render_prepared : f.render (r.prepared text) = f.render (r.bare text) := by
  unfold render
  rw [formatMessage_prepared]
  rfl

/-- The template of the default formatter shows the message and nothing else. -/
theorem fragments_default :
    Formatter.default.fragments =
      .ok [.field ⟨"message", .conversion { key? := some "message", kind := .s }⟩] := by
  decide +kernel

/-- A text is written by a plain conversion as it stands. -/
theorem render_plain_str (key? : Option String) :
    ({ key?, kind := .s } : Conversion).render (.str text) = .ok text.toList := by
  unfold Conversion.render Conversion.write Written.pad
  simp [Value.text, cut, Except.map]

/-- The default formatter shows the message alone. -/
theorem formatMessage_default : Formatter.default.formatMessage r = r.message := by
  have hlookup : ∀ message,
      Formatter.default.fill r.keepMessage message
        [.field ⟨"message", .conversion { key? := some "message", kind := .s }⟩] =
      .ok message.toList := by
    intro message
    simp only [fill, lookup, Rule.render]
    simp [render_plain_str, bind, Except.bind, pure, Except.pure]
  unfold formatMessage
  rw [fragments_default]
  cases r.message with
  | error e => rfl
  | ok message =>
    have htime : Formatter.default.usesTime = false := rfl
    simp [htime, hlookup, bind, Except.bind, pure, Except.pure]

/-- The default formatter renders a prepared record to exactly its text. -/
theorem render_default_prepared : Formatter.default.render (r.prepared text) = .ok text := by
  unfold render
  rw [formatMessage_default]
  rfl

/-! ## Further queues -/

/-- A record on its way through queues, one after the other, each fed by a handler
    with a formatter of its own. -/
def throughQueues : List Formatter → Record → Except LogError Record
  | [], r => .ok r
  | f :: fs, r => do
    let text ← f.render r
    throughQueues fs ((f.keep r).prepared text)

variable {r text}

/-- However many queues a prepared record goes through, what arrives is the first
    record prepared with one text: by induction on the queues, since to prepare a
    copy is to prepare the record that it was made of. -/
theorem throughQueues_prepared {fs : List Formatter} {r' : Record}
    (h : throughQueues fs (r.prepared text) = .ok r') : ∃ text', r' = r.prepared text' := by
  induction fs generalizing text with
  | nil =>
    injection h with h
    exact ⟨text, h.symm⟩
  | cons f fs ih =>
    unfold throughQueues at h
    cases hrender : f.render (r.prepared text) with
    | error e =>
      rw [hrender] at h
      cases h
    | ok text' =>
      rw [hrender] at h
      have hrest : throughQueues fs (r.prepared text') = .ok r' := by
        rw [← h, ← r.prepared_prepared text text', ← f.prepared_keep]
        rfl
      exact ih hrest

/-- Handlers without a formatter of their own hand a prepared record on as it is. -/
theorem throughQueues_default (n : Nat) :
    throughQueues (List.replicate n Formatter.default) (r.prepared text) = .ok (r.prepared text) := by
  induction n with
  | zero => rfl
  | succ n ih =>
    unfold List.replicate throughQueues
    rw [render_default_prepared]
    show throughQueues _ ((default.keep (r.prepared text)).prepared text) = _
    rw [prepared_keep, Record.prepared_prepared]
    exact ih

end Formatter

/-! ## The handlers before and behind a queue -/

/-- The sink shows the text of every record: it writes texts, or it is a probe that
    keeps them. -/
def Sink.ShowsText : Sink → Prop
  | .probe p => ∀ r, p.react r = .keep
  | s => s.writesText = true

/-- A text shown by such a sink. -/
def Sink.shown (text : String) (w : World) : Sink → Except LogError Delivery × Sink × World
  | .probe p => (.ok .written, .probe (p.note text), w)
  | s => s.writeText text w

namespace Store

variable {s : Store} {k : HandlerId} {handler : Handler} {r : Record} {text : String}

/-- A sink that shows texts shows the text that the formatter of its handler makes
    of a record, and the store is changed in nothing else. -/
theorem emit_shown (hk : s.handlers[k]? = some handler) (hsink : handler.sink.ShowsText)
    (hrender : handler.formatter.render r = .ok text) :
    s.emit k handler r =
      ((handler.sink.shown text s.world).1, handler.formatter.keep r,
        { s with world := (handler.sink.shown text s.world).2.2 }.setSink k
          (handler.sink.shown text s.world).2.1) := by
  unfold emit
  cases hkind : handler.sink with
  | null | memory _ | queue _ =>
    rw [hkind] at hsink
    cases hsink
  | stream _ | file _ | socket _ =>
    unfold emitText
    rw [hrender, hkind]
    rfl
  | probe p =>
    rw [hkind] at hsink
    have hkeep : p.react r = .keep := hsink r
    -- The probe stands in the store as the handler says, so the note goes to it.
    have hnote : s.note k text = s.setSink k (.probe (p.note text)) := by
      unfold note setSink modify
      congr 1
      apply Array.ext_getElem?
      intro i
      rw [Array.getElem?_modify, Array.getElem?_modify]
      split
      · next heq =>
        rw [← heq, hk]
        simp [hkind]
      · rfl
    show s.emitProbe k handler p r = _
    unfold emitProbe
    rw [hkeep, hrender]
    show (Except.ok Delivery.written, handler.formatter.keep r, s.note k text) = _
    rw [hnote]
    rfl

/-- A queue handler puts in the copy that carries the text, if there is room. -/
theorem emitQueued_prepared {sink : QueueSink} (hroom : (s.queueAt sink.queue).isFull = false)
    (hrender : handler.formatter.render r = .ok text) :
    s.emitQueued k handler sink r =
      (.ok .written, handler.formatter.keep r,
        s.setQueue sink.queue ((s.queueAt sink.queue).push (.record (r.prepared text)))) := by
  unfold emitQueued
  rw [hrender]
  simp [LogQueue.put, hroom]

/-- A record that no filter stands before goes to the sink, and the result is
    counted. -/
theorem deliver_unfiltered (hk : s.handlers[k]? = some handler) (hfilters : handler.filters = [])
    (hkind : ∀ sink, handler.sink ≠ .memory sink) :
    (s.deliver k r).2.2 =
      (s.emit k handler r).2.2.settle k (s.emit k handler r).2.1 (s.emit k handler r).1 := by
  have hidle : k ∈ s.everyone := mem_everyone hk
  rw [deliver, handle, hk]
  simp only [hfilters, screen, hidle, dif_pos]

/-- Counting a result touches no sink. -/
theorem sink_settle (s : Store) (k : HandlerId) (r : Record) (result : Except LogError Delivery) :
    (s.settle k r result).handlers[k]?.map Handler.sink = s.handlers[k]?.map Handler.sink := by
  have hcount : ∀ f : Fate,
      (s.count k f).handlers[k]?.map Handler.sink = s.handlers[k]?.map Handler.sink := by
    intro f
    rw [count, modify, Array.getElem?_modify, if_pos rfl, Option.map_map]
    rfl
  unfold settle
  split
  · exact hcount .failed
  · exact hcount _

/-- What a sink that shows texts is after a delivery, and the world if the text was
    taken: a failure is reported besides. -/
theorem deliver_shown (hk : s.handlers[k]? = some handler) (hfilters : handler.filters = [])
    (hsink : handler.sink.ShowsText) (hrender : handler.formatter.render r = .ok text) :
    (s.deliver k r).2.2.handlers[k]?.map Handler.sink =
        some (handler.sink.shown text s.world).2.1 ∧
      ∀ d, (handler.sink.shown text s.world).1 = .ok d →
        (s.deliver k r).2.2.world = (handler.sink.shown text s.world).2.2 := by
  have hkind : ∀ sink, handler.sink ≠ .memory sink := by
    intro sink heq
    rw [heq] at hsink
    cases hsink
  rw [deliver_unfiltered hk hfilters hkind, emit_shown hk hsink hrender]
  refine ⟨?_, ?_⟩
  · rw [sink_settle]
    simp [setSink, modify, Array.getElem?_modify, hk]
  · intro d hd
    rw [hd]
    cases d <;> rfl

end Store

/-! ## The whole crossing -/

open Store in
/-- **Crossing a queue changes no output.**  Let a formatter render a record to a
    text, and prepare the record with it.

    A handler with this formatter that feeds a queue with room puts in exactly the
    prepared record.  The default formatter renders that to the text; so a handler
    without a formatter of its own that is given it does to its sink what it would do
    with the first formatter and the first record, and to the world too unless the
    sink fails.  Every formatter renders it as a bare record with the text for its
    message, whose other attributes are those of the record.  This holds as well of
    what it becomes in further queues, which is the first record prepared with another
    text, or with the same if the handlers on the way have no formatter of their own. -/
theorem Formatter.crossing_changes_no_output {f : Formatter} {r : Record} {text : String}
    (hrender : f.render r = .ok text) :
    (∀ (s : Store) (h : HandlerId) (producer : Handler) (sink : QueueSink),
      producer.formatter = f → (s.queueAt sink.queue).isFull = false →
      s.emitQueued h producer sink r =
        (.ok .written, f.keep r,
          s.setQueue sink.queue ((s.queueAt sink.queue).push (.record (r.prepared text))))) ∧
    Formatter.default.render (r.prepared text) = .ok text ∧
    (∀ (s s' : Store) (k : HandlerId) (target : Handler),
      target.formatter? = none → target.filters = [] → target.sink.ShowsText →
      s.handlers[k]? = some target → s'.handlers[k]? = some { target with formatter? := some f } →
      s'.world = s.world →
      (s.deliver k (r.prepared text)).2.2.handlers[k]?.map Handler.sink =
          (s'.deliver k r).2.2.handlers[k]?.map Handler.sink ∧
        ∀ d, (target.sink.shown text s.world).1 = .ok d →
          (s.deliver k (r.prepared text)).2.2.world = (s'.deliver k r).2.2.world) ∧
    (∀ g : Formatter, g.render (r.prepared text) = g.render (r.bare text)) ∧
    (∀ name ∉ Record.payloadNames, (r.bare text).attribute? name = r.attribute? name) ∧
    (∀ (gs : List Formatter) (p : Record),
      Formatter.throughQueues gs (r.prepared text) = .ok p →
      ∃ text', p = r.prepared text' ∧ Formatter.default.render p = .ok text' ∧
        ∀ g : Formatter, g.render p = g.render (r.bare text')) ∧
    ∀ n, Formatter.throughQueues (List.replicate n Formatter.default) (r.prepared text) =
      .ok (r.prepared text) := by
  refine ⟨?_, render_default_prepared r text, ?_, fun g => g.render_prepared r text,
    fun _ => r.attribute?_bare text, ?_, throughQueues_default⟩
  · intro s h producer sink hproducer hroom
    rw [← hproducer] at hrender ⊢
    exact emitQueued_prepared hroom hrender
  · intro s s' k target hplain hfilters hsink hk hk' hworld
    have hdefault : target.formatter.render (r.prepared text) = .ok text := by
      unfold Handler.formatter
      rw [hplain]
      exact render_default_prepared r text
    obtain ⟨hqueued, hqueuedWorld⟩ := deliver_shown hk hfilters hsink hdefault
    obtain ⟨hdirect, hdirectWorld⟩ := deliver_shown hk' hfilters hsink hrender
    rw [hworld] at hdirect hdirectWorld
    refine ⟨hqueued.trans hdirect.symm, ?_⟩
    intro d hd
    exact (hqueuedWorld d hd).trans (hdirectWorld d hd).symm
  · intro gs p hp
    obtain ⟨text', rfl⟩ := throughQueues_prepared hp
    exact ⟨text', rfl, render_default_prepared r text', fun g => g.render_prepared r text'⟩

/-- Percent signs and line ends of a text that crosses a queue stay as they are, and
    the failure that it already tells of is not told of again. -/
theorem Record.crossing_of_percent_signs :
    let r : Record :=
      { name := "a", level := Level.error, site := CallSite.unknown, msg := "100%s\n%(x)d",
        args := .none, origin := default, exception? := some { typeName := "E", message := "%d" },
        stack? := some "at %s", extra := [] }
    let text := "100%s\n%(x)d\nE: %d\nat %s"
    Formatter.default.render r = .ok text ∧
      Formatter.default.render (r.prepared text) = .ok text := by
  intro r text
  have hfailure : Formatter.default.exceptionText? r = some "E: %d" := by decide
  have hrender : Formatter.default.render r = .ok text := by
    unfold Formatter.render
    rw [Formatter.formatMessage_default, hfailure]
    refine congrArg Except.ok ?_
    show Formatter.onNewLine (if "E: %d".isEmpty then r.msg else Formatter.onNewLine r.msg "E: %d")
      (Formatter.default.formatStack "at %s") = text
    decide
  exact ⟨hrender, (Formatter.crossing_changes_no_output hrender).2.1⟩

end Logbook
