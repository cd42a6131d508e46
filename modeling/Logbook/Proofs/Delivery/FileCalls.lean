import Logbook.Proofs.Delivery.Buffering
import Logbook.Proofs.Files.Carried

/-! # Calls on a handler with a plain file

    A file sink without a policy writes each record that the filters of its handler accept
    and its formatter renders.  A call on the handler has one of three effects on the file:
    a line goes behind what is carried along, or the file is closed, or nothing happens.
-/

namespace Logbook

open LogFile

/-! ## File sinks without a policy -/

namespace FileSink

variable {s : FileSink} {w w' : World} {o : FileSinkOptions}

/-- Without a policy a line is written at once. -/
theorem emit_never (hnever : s.policy = .never) (text : String) (w : World) :
    s.emit text w =
      match s.file.writeLine text s.terminator w.files with
      | (.error e, fs) => (.error e, s, { w with files := fs })
      | (.ok file, fs) => (.ok (), { s with file }, { w with files := fs }) := by
  obtain ⟨file, policy, terminator⟩ := s
  obtain rfl : policy = .never := hnever
  rfl

/-- **Plain**: a file sink without a policy, with the path and the mode asked for, whose
    path holds the given bytes. -/
structure Plain (o : FileSinkOptions) (s : FileSink) (bytes : List UInt8) (fs : FileSystem) :
    Prop where
  never : s.policy = .never
  path : s.file.path = o.path
  mode : s.file.mode = o.mode
  carries : s.file.Carries bytes fs

/-- A sink that is made without a policy.  Unless that is to wait, its file is open, and
    begun anew in truncate mode. -/
theorem build_plain (hfiles : w.files.ToldApart) (hplain : o.policy? = none)
    (hbuild : FileSink.build o w = (.ok s, w')) :
    s.file.isOpen = !o.delay ∧
      Plain o s (if o.delay = true ∨ o.mode = .append then holding o.path w.files else [])
        w'.files := by
  have hmode : o.openingMode = o.mode := by rw [FileSinkOptions.openingMode, hplain]; rfl
  unfold FileSink.build at hbuild
  rw [hplain, hmode] at hbuild
  unfold LogFile.make at hbuild
  dsimp only at hbuild
  have hcarries : LogFile.Carries { path := o.path, mode := o.mode, delay := o.delay }
      (holding o.path w.files) w.files := carries_of_closed hfiles rfl
  split at hbuild
  · cases (Prod.mk.inj hbuild).1
  · next file fs hmake =>
    -- A delayed sink carries what the path holds; else the reopening says what is carried.
    obtain ⟨hs, hw⟩ := Prod.mk.inj hbuild
    obtain rfl := Except.ok.inj hs
    subst hw
    split at hmake
    · next hdelay =>
      obtain ⟨hfile, rfl⟩ := Prod.mk.inj hmake
      obtain rfl := Except.ok.inj hfile
      rw [if_pos (.inl hdelay), hdelay]
      exact ⟨rfl, rfl, rfl, rfl, hcarries.apart, hcarries.held, hcarries.open_⟩
    · next hdelay =>
      obtain ⟨hsettings, hopen, hopened⟩ := (hcarries.reopen hmake).2 file rfl
      have hbytes : LogFile.carried { path := o.path, mode := o.mode, delay := o.delay }
          (holding o.path w.files) =
          if o.delay = true ∨ o.mode = .append then holding o.path w.files else [] := by
        simp [LogFile.carried, LogFile.isOpen, hdelay]
      rw [hbytes] at hopened
      have hclosed : o.delay = false := by simpa using hdelay
      rw [hclosed] at hopened ⊢
      exact ⟨hopen, rfl, hsettings.path, hsettings.mode, hopened.apart, hopened.held, hopened.open_⟩

/-- What a line does to a plain file.  A line that is written goes behind what is carried,
    and the file is open after it; a line that cannot be written changes nothing that the
    path holds. -/
theorem Plain.emit {r : Except LogError Unit} {s' : FileSink} {bytes : List UInt8} {text : String}
    (h : Plain o s bytes w.files) (hemit : s.emit text w = (r, s', w')) :
    (∀ e, r = .error e → s' = s ∧ Plain o s bytes w'.files ∧
      ((∃ id, FileSystem.Named o.path id w.files) → ∃ id, FileSystem.Named o.path id w'.files)) ∧
    (r = .ok () → s'.file.isOpen = true ∧
      Plain o s' (s.file.carried bytes ++ lineBytes text s.terminator) w'.files) := by
  -- Without a policy nothing happens before the line, so the file's own lemma decides.
  rw [emit_never h.never] at hemit
  cases hwrite : s.file.writeLine text s.terminator w.files with
  | mk r₁ fs =>
    obtain ⟨hfailed, hwritten⟩ := h.carries.writeLine hwrite
    rw [hwrite] at hemit
    cases r₁ with
    | error e =>
      obtain ⟨rfl, rfl, rfl⟩ : _ ∧ s = s' ∧ _ := by simpa using hemit
      refine ⟨fun e' _ => ⟨rfl, ⟨h.never, h.path, h.mode, hfailed e rfl⟩, ?_⟩, nofun⟩
      intro hnamed
      rw [← h.path] at hnamed ⊢
      exact h.carries.named_writeLine hnamed hwrite
    | ok file =>
      obtain ⟨hsettings, hopen, hcarries⟩ := hwritten file rfl
      obtain ⟨rfl, rfl, rfl⟩ : _ ∧ { s with file } = s' ∧ _ := by simpa using hemit
      exact ⟨nofun, fun _ => ⟨hopen, h.never, hsettings.path.trans h.path,
        hsettings.mode.trans h.mode, hcarries⟩⟩

/-- A plain file that is closed holds what it held. -/
theorem Plain.close {bytes : List UInt8} {fs : FileSystem} (h : Plain o s bytes fs) :
    Plain o s.close bytes fs :=
  ⟨h.never, h.path, h.mode, h.carries.close⟩

end FileSink

/-! ## Calls on a handler -/

/-- A call on a handler. -/
inductive HandlerCall where
  | handle (r : Record)
  | flush
  | close

/-- A handler after it has been closed, if its sink is a file sink. -/
def Handler.shut (x : Handler) : Handler :=
  match x.closed, x.sink with
  | false, .file sink => { x with closed := true, sink := .file sink.close }
  | _, _ => x

namespace Store

variable {s : Store} {h : HandlerId} {x : Handler} {sink : FileSink} {bytes : List UInt8}
  {o : FileSinkOptions} {c : HandlerCall} {r : Record}

/-- The store after a call. -/
def call (s : Store) (h : HandlerId) : HandlerCall → Store
  | .handle r => (s.deliver h r).2.2
  | .flush => (s.flush h).2
  | .close => (s.close h).2

/-- The line that a call writes to the file of a handler: none unless its filters accept
    the record and the sink does not fail on it. -/
def line? (s : Store) (h : HandlerId) : HandlerCall → Option (List UInt8)
  | .handle r =>
    match s.handlers[h]? with
    | none => none
    | some x =>
      match screen x.filters r s with
      | (false, _, _) => none
      | (true, r, s) =>
        match x.sink, x.formatter.render r, (s.emit h x r).1 with
        | .file sink, .ok text, .ok _ => some (lineBytes text sink.terminator)
        | _, _, _ => none
  | .flush | .close => none

/-- The store after calls, one after the other. -/
def calls (s : Store) (h : HandlerId) (cs : List HandlerCall) : Store := cs.foldl (·.call h ·) s

/-- The lines that calls write, in order. -/
def lines (s : Store) (h : HandlerId) : List HandlerCall → List (List UInt8)
  | [] => []
  | c :: cs => (s.line? h c).toList ++ (s.call h c).lines h cs

theorem calls_append (s : Store) (h : HandlerId) (as bs : List HandlerCall) :
    s.calls h (as ++ bs) = (s.calls h as).calls h bs := List.foldl_append

theorem lines_append (s : Store) (h : HandlerId) (as bs : List HandlerCall) :
    s.lines h (as ++ bs) = s.lines h as ++ (s.calls h as).lines h bs := by
  induction as generalizing s with
  | nil => rfl
  | cons c as ih =>
    show (s.line? h c).toList ++ (s.call h c).lines h (as ++ bs) = _
    rw [ih, ← List.append_assoc]
    rfl

/-! ## One call -/

/-- **Serves**: a handler stands in the store with a plain file sink, whose path holds the
    given bytes. -/
structure Serves (o : FileSinkOptions) (s : Store) (h : HandlerId) (x : Handler)
    (sink : FileSink) (bytes : List UInt8) : Prop where
  found : s.handlers[h]? = some x
  isFile : x.sink = .file sink
  plain : sink.Plain o bytes s.world.files

/-- The path names a file. -/
def Names (o : FileSinkOptions) (s : Store) : Prop :=
  ∃ id, FileSystem.Named o.path id s.world.files

/-- What a call does to a plain file: the line that it writes, if any, and the store
    after it. -/
inductive Effect (o : FileSinkOptions) (s : Store) (h : HandlerId) (x : Handler)
    (sink : FileSink) (bytes : List UInt8) (c : HandlerCall) (line? : Option (List UInt8))
    (s' : Store) : Prop where
  /-- A line goes behind what is carried. -/
  | line {l : List UInt8} {x' : Handler} {sink' : FileSink} (hline : line? = some l)
    (hserves : Serves o s' h x' sink' (sink.file.carried bytes ++ l))
    (hopen : sink'.file.isOpen = true) (hclosed : x'.closed = x.closed)
    (hcount : x'.metrics.emitted = x.metrics.emitted + 1)
  /-- Nothing is written, and the file stays as it is. -/
  | idle {x' : Handler} (hline : line? = none) (hserves : Serves o s' h x' sink bytes)
    (hclosed : x'.closed = x.closed) (hcount : x'.metrics.emitted = x.metrics.emitted)
    (hnames : Names o s → Names o s')
  /-- The file is closed, which happens once. -/
  | close {x' : Handler} (hcall : c = .close) (hfirst : x.closed = false) (hline : line? = none)
    (hserves : Serves o s' h x' sink.close bytes) (hclosed : x'.closed = true)
    (hcount : x'.metrics.emitted = x.metrics.emitted) (hnames : Names o s → Names o s')

/-- A handler that has counted a record. -/
theorem handlers_count (hx : s.handlers[h]? = some x) (f : Fate) :
    (s.count h f).handlers[h]? = some (x.count f) := handlers_modify hx _

/-- To report something changes no file. -/
theorem files_report (s : Store) (lines : List String) :
    (s.report lines).world.files = s.world.files := by
  unfold report
  dsimp only
  generalize s.world = w
  induction lines generalizing w with
  | nil => rfl
  | cons line lines ih => exact ih (w.report line)

/-- A sink that fails is not counted among those that wrote, and changes no file after it. -/
theorem settle_error (hx : s.handlers[h]? = some x) (r : Record) (e : LogError) :
    (s.settle h r (.error e)).world.files = s.world.files ∧
      ∃ f, f ≠ .emitted ∧ (s.settle h r (.error e)).handlers[h]? = some (x.count f) := by
  -- A reentrant call counts as dropped, and every other failure as failed.
  cases e with
  | reentrant name? => exact ⟨rfl, .dropped, nofun, handlers_count hx .dropped⟩
  | _ => exact ⟨files_report _ _, .failed, nofun, handlers_count hx .failed⟩

theorem emitted_count_of_ne {f : Fate} (x : Handler) (hf : f ≠ .emitted) :
    (x.count f).metrics.emitted = x.metrics.emitted := by
  cases f with
  | emitted => exact absurd rfl hf
  | filtered | failed | dropped => rfl

/-- A file sink is given the text of a record, if there is one. -/
theorem emit_file (s : Store) (h : HandlerId) (r : Record) (hsink : x.sink = .file sink) :
    s.emit h x r =
      match x.formatter.render r with
      | .error e => (.error e, x.formatter.keep r, s)
      | .ok text =>
        match sink.emit text s.world with
        | (r', sink', w) =>
          (r'.map fun _ => .written, x.formatter.keep r,
            { s with world := w }.setSink h (.file sink')) := by
  unfold Store.emit
  rw [hsink]
  show s.emitText h x r = _
  unfold emitText
  rw [hsink]
  rfl

/-- A file sink that does not write a text is left as it was. -/
theorem Serves.emit_error {e : LogError} {r' : Record} {s' : Store}
    (hs : Serves o s h x sink bytes) (hemit : s.emit h x r = (.error e, r', s')) :
    Serves o s' h x sink bytes ∧ (Names o s → Names o s') := by
  rw [emit_file s h r hs.isFile] at hemit
  cases hrender : x.formatter.render r with
  | error e' =>
    rw [hrender] at hemit
    obtain ⟨-, -, rfl⟩ : _ ∧ _ ∧ s = s' := by simpa using hemit
    exact ⟨hs, id⟩
  | ok text =>
    rw [hrender] at hemit
    dsimp only at hemit
    rcases hwrite : sink.emit text s.world with ⟨r₁, sink', w'⟩
    rw [hwrite] at hemit
    cases r₁ with
    | ok u => cases (Prod.mk.inj hemit).1
    | error e' =>
      obtain ⟨rfl, hplain, hnamed⟩ := (hs.plain.emit hwrite).1 e' rfl
      obtain ⟨-, -, rfl⟩ : _ ∧ _ ∧ { s with world := w' }.setSink h (.file sink') = s' := by
        simpa using hemit
      -- The sink is put back as it was.
      refine ⟨⟨?_, hs.isFile, hplain⟩, hnamed⟩
      rw [handlers_setSink (s := { s with world := w' }) hs.found, ← hs.isFile]

/-- A file sink that writes a text puts the line behind what is carried. -/
theorem Serves.emit_ok {d : Delivery} {r' : Record} {s' : Store}
    (hs : Serves o s h x sink bytes) (hemit : s.emit h x r = (.ok d, r', s')) :
    d = .written ∧ ∃ text sink', x.formatter.render r = .ok text ∧ sink'.file.isOpen = true ∧
      Serves o s' h { x with sink := .file sink' } sink'
        (sink.file.carried bytes ++ lineBytes text sink.terminator) := by
  rw [emit_file s h r hs.isFile] at hemit
  -- A text that is not rendered and a write that fails are no delivery.
  cases hrender : x.formatter.render r with
  | error e =>
    rw [hrender] at hemit
    cases (Prod.mk.inj hemit).1
  | ok text =>
    rw [hrender] at hemit
    dsimp only at hemit
    rcases hwrite : sink.emit text s.world with ⟨r₁, sink', w'⟩
    rw [hwrite] at hemit
    cases r₁ with
    | error e => cases (Prod.mk.inj hemit).1
    | ok u =>
      obtain ⟨hopen, hplain⟩ := (hs.plain.emit hwrite).2 rfl
      obtain ⟨rfl, -, rfl⟩ : .written = d ∧ _ ∧
          { s with world := w' }.setSink h (.file sink') = s' := by
        simpa [Except.map] using hemit
      exact ⟨rfl, text, sink', rfl, hopen, handlers_setSink (s := { s with world := w' }) hs.found _,
        rfl, hplain⟩

/-- A handler with a file sink gives it the records that its filters accept. -/
theorem call_handle (hx : s.handlers[h]? = some x) (hsink : x.sink = .file sink) (r : Record) :
    s.call h (.handle r) =
      match screen x.filters r s with
      | (false, _, s) => s.count h .filtered
      | (true, r, s) =>
        (s.emit h x r).2.2.settle h (s.emit h x r).2.1 (s.emit h x r).1 := by
  have hidle : h ∈ s.everyone := mem_everyone hx
  show (s.handle s.everyone h r).2.2 = _
  rw [handle_eq, hx]
  dsimp only
  rcases screen x.filters r s with ⟨_ | _, r₁, s₁⟩
  · rfl
  · simp only [if_pos hidle, hsink]

theorem line?_handle (hx : s.handlers[h]? = some x) (hsink : x.sink = .file sink) (r : Record) :
    s.line? h (.handle r) =
      match screen x.filters r s with
      | (false, _, _) => none
      | (true, r, s) =>
        match x.formatter.render r, (s.emit h x r).1 with
        | .ok text, .ok _ => some (lineBytes text sink.terminator)
        | _, _ => none := by
  rw [line?, hx]
  dsimp only
  rcases screen x.filters r s with ⟨_ | _, r₁, s₁⟩
  · rfl
  · simp only [hsink]
    cases x.formatter.render r₁ <;> cases (s₁.emit h x r₁).1 <;> rfl

/-- **A record that a handler with a plain file is given.** -/
theorem Serves.handle (hs : Serves o s h x sink bytes) (r : Record) :
    Effect o s h x sink bytes (.handle r) (s.line? h (.handle r)) (s.call h (.handle r)) := by
  have hhandlers := handlers_screen x.filters r s
  have hworld := world_screen x.filters r s
  rw [call_handle hs.found hs.isFile, line?_handle hs.found hs.isFile]
  rcases hscreen : screen x.filters r s with ⟨accepted, r₁, s₁⟩
  rw [hscreen] at hhandlers hworld
  dsimp only at hhandlers hworld
  have hs₁ : Serves o s₁ h x sink bytes := by
    refine ⟨?_, hs.isFile, ?_⟩
    · rw [hhandlers, hs.found]
    · rw [hworld]
      exact hs.plain
  have hnames₁ : Names o s → Names o s₁ := by
    intro hnames
    rwa [Names, hworld]
  cases accepted with
  | false =>
    -- A filter has rejected the record.
    have hserves : Serves o (s₁.count h .filtered) h (x.count .filtered) sink bytes :=
      ⟨handlers_count hs₁.found _, hs.isFile, hs₁.plain⟩
    exact .idle rfl hserves rfl rfl hnames₁
  | true =>
    dsimp only
    rcases hemit : s₁.emit h x r₁ with ⟨result, r₂, s₂⟩
    dsimp only
    cases result with
    | error e =>
      -- The record cannot be rendered, or the line cannot be written.
      obtain ⟨hs₂, hnames₂⟩ := hs₁.emit_error hemit
      obtain ⟨hfiles, f, hf, hfound⟩ := settle_error hs₂.found r₂ e
      have hserves : Serves o (s₂.settle h r₂ (.error e)) h (x.count f) sink bytes :=
        ⟨hfound, hs.isFile, hfiles ▸ hs₂.plain⟩
      have hnames : Names o s → Names o (s₂.settle h r₂ (.error e)) := by
        intro hnames
        rw [Names, hfiles]
        exact hnames₂ (hnames₁ hnames)
      refine .idle ?_ hserves rfl (emitted_count_of_ne x hf) hnames
      cases x.formatter.render r₁ <;> rfl
    | ok d =>
      obtain ⟨rfl, text, sink', hrender, hopen, hs₂⟩ := hs₁.emit_ok hemit
      rw [hrender]
      have hserves : Serves o (s₂.count h .emitted) h
          (Handler.count { x with sink := .file sink' } .emitted) sink'
          (sink.file.carried bytes ++ lineBytes text sink.terminator) :=
        ⟨handlers_count hs₂.found _, rfl, hs₂.plain⟩
      exact .line rfl hserves hopen rfl rfl

/-- To close a handler with a file sink is to close its file, the first time. -/
theorem call_close (hx : s.handlers[h]? = some x) (hsink : x.sink = .file sink) :
    s.call h .close = s.modify h Handler.shut := by
  have hidle : h ∈ s.everyone := mem_everyone hx
  show (s.closeAmong s.everyone h).2 = _
  -- A handler that is closed already is marked again, which changes nothing.
  cases hclosed : x.closed with
  | true =>
    have hsame : x.shut = x := by
      rw [Handler.shut, hclosed]
    rw [modify_same hx hsame, closeAmong, hx]
    simp only [hclosed, if_true]
  | false =>
    have hkind : ∀ m, x.sink ≠ .memory m := by
      intro m heq
      rw [hsink] at heq
      cases heq
    rw [closeAmong_plain hx hclosed hidle hkind, hsink]
    refine (modify_modify s h _ _).trans (modify_congr hx ?_)
    rw [Handler.shut, hclosed, hsink]
    rfl

/-- A handler that is closed for the first time closes its file. -/
theorem Serves.shut (hs : Serves o s h x sink bytes) (hfirst : x.closed = false) :
    Serves o (s.call h .close) h { x with closed := true, sink := .file sink.close } sink.close
      bytes := by
  rw [call_close hs.found hs.isFile]
  refine ⟨?_, rfl, hs.plain.close⟩
  rw [handlers_modify hs.found, Handler.shut, hfirst, hs.isFile]

/-- **Every call** writes a line, or does nothing to the file, or closes it. -/
theorem Serves.call (hs : Serves o s h x sink bytes) (c : HandlerCall) :
    Effect o s h x sink bytes c (s.line? h c) (s.call h c) := by
  -- To flush is idle because a file sink writes each line at once.
  cases c with
  | handle r => exact hs.handle r
  | flush =>
    have hsame : s.call h .flush = s := by
      show (s.flush h).2 = s
      rw [flush, hs.found]
      simp only [hs.isFile]
    rw [hsame]
    exact .idle rfl hs rfl rfl id
  | close =>
    have hnames : Names o s → Names o (s.call h .close) := by
      intro hnames
      rwa [call_close hs.found hs.isFile]
    cases hclosed : x.closed with
    | true =>
      have hsame : x.shut = x := by
        rw [Handler.shut, hclosed]
      have hstill : Serves o (s.call h .close) h x sink bytes := by
        rwa [call_close hs.found hs.isFile, modify_same hs.found hsame]
      exact .idle rfl hstill rfl rfl hnames
    | false => exact .close rfl hclosed rfl (hs.shut hclosed) rfl rfl hnames

end Store

end Logbook
