import Logbook.Proofs.Delivery.FileCalls

/-! # Plain files keep their lines

    A handler with a plain file still takes records after it has been closed, and the next
    line opens the file again in the mode of its sink.  In append mode the file then holds
    every line in order, behind what it held before.  In truncate mode it does so as long
    as no line comes after a close that came after a line.
-/

namespace Logbook

open LogFile

namespace Store

variable {s : Store} {h : HandlerId} {x : Handler} {sink : FileSink} {bytes : List UInt8}
  {o : FileSinkOptions}

/-! ## Runs of calls -/

/-- **A run in which the file is opened at most once**: the lines go one behind the other,
    the first of them behind what was carried then. -/
theorem Serves.steady (hs : Serves o s h x sink bytes) (cs : List HandlerCall)
    (hsteady : o.mode = .append ∨ x.closed = true ∨ HandlerCall.close ∉ cs) :
    ∃ x' sink', Serves o (s.calls h cs) h x' sink'
        ((if s.lines h cs = [] then bytes else sink.file.carried bytes) ++
          (s.lines h cs).flatten) ∧
      (HandlerCall.close ∉ cs → x'.closed = x.closed) := by
  -- By induction on the calls; after the first line the file is open and carries all on.
  induction cs generalizing s x sink bytes with
  | nil =>
    refine ⟨x, sink, ?_, fun _ => rfl⟩
    show Serves o s h x sink (bytes ++ [])
    rwa [List.append_nil]
  | cons c cs ih =>
    have hlines : s.lines h (c :: cs) = (s.line? h c).toList ++ (s.call h c).lines h cs := rfl
    have hrest : ∀ x' : Handler, x'.closed = x.closed →
        o.mode = .append ∨ x'.closed = true ∨ HandlerCall.close ∉ cs := by
      intro x' hclosed
      rw [hclosed]
      exact hsteady.imp id (.imp id fun hnot hmem => hnot (.tail c hmem))
    cases hs.call c with
    | @line l x₁ sink₁ hline hserves hopen hclosed =>
      obtain ⟨x', sink', hend, hend'⟩ := ih hserves (hrest x₁ hclosed)
      rw [carried_of_open hopen, ite_self, List.append_assoc] at hend
      rw [hlines, hline]
      refine ⟨x', sink', hend, fun hnot => ?_⟩
      rw [hend' fun hmem => hnot (.tail c hmem), hclosed]
    | @idle x₁ hline hserves hclosed =>
      obtain ⟨x', sink', hend, hend'⟩ := ih hserves (hrest x₁ hclosed)
      rw [hlines, hline]
      refine ⟨x', sink', hend, fun hnot => ?_⟩
      rw [hend' fun hmem => hnot (.tail c hmem), hclosed]
    | @close x₁ hcall hfirst hline hserves =>
      -- Only a file in append mode is closed in such a run, and it carries all on.
      have happend : o.mode = .append := by
        rcases hsteady with happend | hclosed | hnot
        · exact happend
        · cases hfirst.symm.trans hclosed
        · exact absurd (hcall ▸ .head cs) hnot
      obtain ⟨x', sink', hend, -⟩ := ih hserves (.inl happend)
      have hmode : sink.file.mode = .append := hs.plain.mode.trans happend
      rw [carried_of_append (f := sink.close.file) hmode] at hend
      rw [hlines, hline, carried_of_append hmode]
      exact ⟨x', sink', hend, fun hnot => absurd (hcall ▸ .head cs) hnot⟩

/-- Every line is counted, and once there is one the path names the file. -/
theorem Serves.counted (hs : Serves o s h x sink bytes) (cs : List HandlerCall) :
    ∃ x' sink' bytes', Serves o (s.calls h cs) h x' sink' bytes' ∧
      x'.metrics.emitted = x.metrics.emitted + UInt64.ofNat (s.lines h cs).length ∧
      (Names o s ∨ s.lines h cs ≠ [] → Names o (s.calls h cs)) := by
  induction cs generalizing s x sink bytes with
  | nil => exact ⟨x, sink, bytes, hs, (UInt64.add_zero _).symm, fun hnames => hnames.elim id nofun⟩
  | cons c cs ih =>
    have hlines : s.lines h (c :: cs) = (s.line? h c).toList ++ (s.call h c).lines h cs := rfl
    cases hs.call c with
    | @line l x₁ sink₁ hline hserves hopen _ hcount =>
      obtain ⟨x', sink', bytes', hend, hcount', hnames'⟩ := ih hserves
      refine ⟨x', sink', bytes', hend, ?_, fun _ => hnames' (.inl ?_)⟩
      · rw [hcount', hcount, hlines, hline, UInt64.add_assoc]
        simp [UInt64.ofNat_add, UInt64.add_comm]
      · have hnamed := hserves.plain.carries.named hopen
        rwa [hserves.plain.path] at hnamed
    | idle hline hserves _ hcount hnames | close _ _ hline hserves _ hcount hnames =>
      obtain ⟨x', sink', bytes', hend, hcount', hnames'⟩ := ih hserves
      rw [hlines, hline]
      exact ⟨x', sink', bytes', hend, hcount'.trans (congrArg (· + _) hcount),
        fun h => hnames' (h.imp hnames id)⟩

/-- What the path of a plain file holds. -/
theorem Serves.held (hs : Serves o s h x sink bytes) : holding o.path s.world.files = bytes := by
  rw [← hs.plain.path, hs.plain.carries.held]

/-- The lines around a close. -/
theorem lines_around_close (s : Store) (h : HandlerId) (before after : List HandlerCall) :
    s.lines h (before ++ .close :: after) =
      s.lines h before ++ (s.calls h (before ++ [.close])).lines h after := by
  rw [lines_append, calls_append]
  rfl

/-- A run goes on from the closed handler. -/
theorem Serves.around (hs : Serves o s h x sink bytes) (before after : List HandlerCall) :
    s.calls h (before ++ .close :: after) =
        ((s.calls h before).modify h Handler.shut).calls h after ∧
      s.lines h (before ++ .close :: after) =
        s.lines h before ++ ((s.calls h before).modify h Handler.shut).lines h after := by
  obtain ⟨x', sink', bytes', hs', -⟩ := hs.counted before
  have hclose := call_close hs'.found hs'.isFile
  rw [calls_append, lines_append, ← hclose]
  exact ⟨rfl, rfl⟩

/-- **A run around the first close**: in append mode, and if nothing is written after the
    close, the file holds what it held when it was closed; else it is begun anew. -/
theorem Serves.around_close {before : List HandlerCall} (hs : Serves o s h x sink bytes)
    (after : List HandlerCall) (hfirst : x.closed = false) (hbefore : HandlerCall.close ∉ before) :
    ∃ x' sink' shut, Serves o (s.calls h (before ++ .close :: after)) h x' sink'
        ((if o.mode = .append ∨ (s.calls h (before ++ [.close])).lines h after = [] then shut
          else []) ++ ((s.calls h (before ++ [.close])).lines h after).flatten) ∧
      shut = (if s.lines h before = [] then bytes else sink.file.carried bytes) ++
        (s.lines h before).flatten := by
  obtain ⟨x₁, sink₁, hs₁, hclosed₁⟩ := hs.steady before (.inr (.inr hbefore))
  have hcalls : s.calls h (before ++ .close :: after) =
      (s.calls h (before ++ [.close])).calls h after := by
    rw [← calls_append, List.append_assoc]
    rfl
  have hshut : s.calls h (before ++ [.close]) = (s.calls h before).call h .close :=
    calls_append s h before [.close]
  rw [hcalls, hshut]
  generalize (if s.lines h before = [] then bytes else sink.file.carried bytes) ++
    (s.lines h before).flatten = shut at hs₁ ⊢
  -- The handler is closed from here on, so that the file is not closed a second time.
  have hs₂ := hs₁.shut (hclosed₁ hbefore ▸ hfirst)
  obtain ⟨x', sink', hend, -⟩ := hs₂.steady after (.inr (.inl rfl))
  have hcarried : sink₁.close.file.carried shut = if o.mode = .append then shut else [] := by
    have hmode : sink₁.close.file.mode = o.mode := hs₂.plain.mode
    have hclosed : sink₁.close.file.isOpen = false := rfl
    simp only [carried, hmode, hclosed, Bool.false_eq_true, false_or]
  rw [hcarried] at hend
  refine ⟨x', sink', shut, ?_, rfl⟩
  convert hend using 2
  by_cases hafter : ((s.calls h before).call h .close).lines h after = [] <;> simp [hafter]

/-- **Resumes**: lines are written both before and after the first close. -/
def Resumes (s : Store) (h : HandlerId) (cs : List HandlerCall) : Prop :=
  ∃ before after, cs = before ++ .close :: after ∧ HandlerCall.close ∉ before ∧
    s.lines h before ≠ [] ∧ (s.calls h (before ++ [.close])).lines h after ≠ []

/-- **A run in truncate mode**: unless lines are written on both sides of the first close,
    the file holds them all, and what was there before is gone with the first of them. -/
theorem Serves.truncated (hs : Serves o s h x sink bytes) (htruncate : o.mode = .truncate)
    (hfirst : x.closed = false) (hdropped : sink.file.carried bytes = [])
    {cs : List HandlerCall} (hresumes : ¬ s.Resumes h cs) :
    holding o.path (s.calls h cs).world.files =
      (if s.lines h cs = [] then bytes else []) ++ (s.lines h cs).flatten := by
  by_cases hclose : HandlerCall.close ∈ cs
  · obtain ⟨before, after, rfl, hbefore⟩ := List.eq_append_cons_of_mem hclose
    obtain ⟨x', sink', shut, hend, hshut⟩ := hs.around_close after hfirst hbefore
    rw [hdropped] at hshut
    rw [hend.held, lines_around_close]
    by_cases hafter : (s.calls h (before ++ [.close])).lines h after = []
    · rw [if_pos (.inr hafter), hshut, hafter, List.append_nil, List.flatten_nil, List.append_nil]
    · -- The line that begins the file anew is then the first one that there is.
      have hnothing : s.lines h before = [] := by
        by_contra hlines
        exact hresumes ⟨before, after, rfl, hbefore, hlines, hafter⟩
      simp [htruncate, hnothing, hafter]
  · obtain ⟨x', sink', hend, -⟩ := hs.steady cs (.inr (.inr hclose))
    rw [hend.held, hdropped]

/-- A handler that has just been given a plain file sink. -/
theorem serves_build {w : World} (hfiles : w.files.ToldApart) (hplain : o.policy? = none)
    (hbuild : FileSink.build o w = (.ok sink, s.world)) (hx : s.handlers[h]? = some x)
    (hsink : x.sink = .file sink) :
    sink.file.isOpen = !o.delay ∧ Serves o s h x sink
      (if o.delay = true ∨ o.mode = .append then holding o.path w.files else []) := by
  obtain ⟨hopen, hbuilt⟩ := FileSink.build_plain hfiles hplain hbuild
  exact ⟨hopen, hx, hsink, hbuilt⟩

/-- **A plain file keeps its lines**: a file sink without a policy is made and a handler is
    built around it, which is then given records, flushed and closed in any order.  Its
    path holds the lines of all records that the sink took, in order and each once, behind
    what it held when the sink was made, in append mode; and in truncate mode behind
    nothing, or behind what it held until the first line if the opening waits for it.

    The tree is one in which files are told from directories, as it is to begin with and
    after any change that others make.  What the path holds is read once the missing
    directories of the path have been made.

    This leaves open what becomes in truncate mode of the lines before the first close when
    there are lines after it; those after it are all there, at the end. -/
theorem plain_file_keeps_lines {w : World} (hfiles : w.files.ToldApart) (hplain : o.policy? = none)
    (hbuild : FileSink.build o w = (.ok sink, s.world)) (hx : s.handlers[h]? = some x)
    (hsink : x.sink = .file sink) (hfirst : x.closed = false) (cs : List HandlerCall) :
    (o.mode = .append → holding o.path (s.calls h cs).world.files =
      holding o.path w.files ++ (s.lines h cs).flatten) ∧
    (o.mode = .truncate → ¬ s.Resumes h cs → holding o.path (s.calls h cs).world.files =
      (if o.delay = true ∧ s.lines h cs = [] then holding o.path w.files else []) ++
        (s.lines h cs).flatten) ∧
    (∀ before after, cs = before ++ .close :: after → HandlerCall.close ∉ before →
      ∃ front, holding o.path (s.calls h cs).world.files =
        front ++ ((s.calls h (before ++ [.close])).lines h after).flatten) ∧
    (o.delay = false ∨ s.lines h cs ≠ [] → (s.calls h cs).world.files.readPath o.path =
      .ok (holding o.path (s.calls h cs).world.files)) ∧
    (∃ x', (s.calls h cs).handlers[h]? = some x' ∧
      x'.metrics.emitted = x.metrics.emitted + UInt64.ofNat (s.lines h cs).length) := by
  obtain ⟨hopen, hs⟩ := serves_build hfiles hplain hbuild hx hsink
  obtain ⟨x', sink', bytes', hend, hcount, hnames⟩ := hs.counted cs
  refine ⟨?_, ?_, ?_, ?_, x', hend.found, hcount⟩
  · intro happend
    obtain ⟨x₁, sink₁, hend₁, -⟩ := hs.steady cs (.inl happend)
    rw [hend₁.held, carried_of_append (hs.plain.mode.trans happend), ite_self,
      if_pos (.inr happend)]
  · intro htruncate hresumes
    -- What was there is dropped by the first opening.
    have hdropped : sink.file.carried
        (if o.delay = true ∨ o.mode = .append then holding o.path w.files else []) = [] := by
      cases hdelay : o.delay with
      | true =>
        rw [hdelay] at hopen
        exact carried_of_truncate hopen (hs.plain.mode.trans htruncate)
      | false => simp [carried, htruncate]
    rw [hs.truncated htruncate hfirst hdropped hresumes]
    by_cases hlines : s.lines h cs = [] <;> simp [hlines, htruncate]
  · rintro before after rfl hbefore
    obtain ⟨x₁, sink₁, shut, hend₁, -⟩ := hs.around_close after hfirst hbefore
    exact ⟨_, hend₁.held⟩
  · intro hthere
    have hnamed : Names o (s.calls h cs) := by
      refine hnames (hthere.imp ?_ id)
      intro hdelay
      rw [hdelay] at hopen
      have hnamed := hs.plain.carries.named hopen
      rwa [hs.plain.path] at hnamed
    obtain ⟨id, hid⟩ := hnamed
    rw [FileSystem.readPath_of_status hid.status, holding_of_named hid]

/-- A handler around a file sink, alone in a store. -/
def alone (sink : FileSink) (w : World) : Store :=
  { world := w, origin := Inhabited.default, handlers := #[{ sink := .file sink }] }

/-- The files before a sink is made: one, with a line in it. -/
def oldFiles : FileSystem :=
  (({} : FileSystem).writePath ⟨"app.log"⟩ (lineBytes "old" "\n")).toOption.getD {}

theorem toldApart_oldFiles : oldFiles.ToldApart := by
  rw [oldFiles]
  cases hwrite : ({} : FileSystem).writePath ⟨"app.log"⟩ (lineBytes "old" "\n") with
  | error e => exact FileSystem.toldApart_empty
  | ok fs => exact (FileSystem.Disturbance.write hwrite).outlives.apart FileSystem.toldApart_empty

/-- A message for a handler. -/
def say (msg : String) : HandlerCall :=
  .handle (Record.simple "app" Level.info msg Inhabited.default)

/-- What can be computed of a sink that is made. -/
theorem exists_build {w : World} {P : FileSink → World → Prop} [∀ sink w, Decidable (P sink w)]
    (hrun : ((FileSink.build o w).1.toOption.any fun sink =>
      decide (P sink (FileSink.build o w).2)) = true) :
    ∃ sink w', FileSink.build o w = (.ok sink, w') ∧ P sink w' := by
  rcases hbuild : FileSink.build o w with ⟨_ | sink, w'⟩ <;> rw [hbuild] at hrun
  · cases hrun
  · exact ⟨sink, w', rfl, of_decide_eq_true hrun⟩

/-- In append mode a file that is closed between two lines has both, behind what it held. -/
theorem plain_file_keeps_lines_over_close :
    ∃ sink w, FileSink.build { path := ⟨"app.log"⟩ } { files := oldFiles } = (.ok sink, w) ∧
      ((alone sink w).calls 0 [say "one", .close, .flush, say "two"]).world.files.readPath
        ⟨"app.log"⟩ =
          .ok (lineBytes "old" "\n" ++ (lineBytes "one" "\n" ++ lineBytes "two" "\n")) := by
  obtain ⟨sink, w, hbuild, hheld, hwritten⟩ := exists_build
    (P := fun sink w => holding ⟨"app.log"⟩ oldFiles = lineBytes "old" "\n" ∧
      (alone sink w).lines 0 [say "one"] ++
        (((alone sink w).calls 0 [say "one"]).modify 0 Handler.shut).lines 0 [.flush, say "two"] =
          [lineBytes "one" "\n", lineBytes "two" "\n"])
    (o := { path := ⟨"app.log"⟩ }) (w := { files := oldFiles }) (by decide +kernel)
  obtain ⟨-, hs⟩ := serves_build (s := alone sink w) (h := 0) toldApart_oldFiles rfl hbuild rfl rfl
  have hlines : (alone sink w).lines 0 [say "one", .close, .flush, say "two"] =
      [lineBytes "one" "\n", lineBytes "two" "\n"] :=
    (hs.around [say "one"] [.flush, say "two"]).2.trans hwritten
  obtain ⟨happend, -, -, hread, -⟩ := plain_file_keeps_lines (s := alone sink w) (h := 0)
    (x := { sink := .file sink }) toldApart_oldFiles rfl hbuild rfl rfl rfl
    [say "one", .close, .flush, say "two"]
  refine ⟨sink, w, hbuild, (hread (.inl rfl)).trans (congrArg Except.ok ?_)⟩
  calc holding ⟨"app.log"⟩ _
    _ = holding ⟨"app.log"⟩ oldFiles ++ List.flatten _ := happend rfl
    _ = lineBytes "old" "\n" ++ [lineBytes "one" "\n", lineBytes "two" "\n"].flatten := by
      rw [hheld, hlines]
    _ = _ := by
      simp only [List.flatten_cons, List.flatten_nil, List.append_nil]

/-- **What a plain file holds besides its lines, and what it may lack.**  In truncate mode a
    file that is opened late holds what it held until the first line.  A path through a
    directory that is missing names nothing at first; when the directory has been made it
    names a file that was there.  And in truncate mode the line after a close begins the
    file anew, without the line before. -/
theorem plain_file_besides_lines :
    (∃ sink w, FileSink.build { path := ⟨"app.log"⟩, mode := .truncate, delay := true }
        { files := oldFiles } = (.ok sink, w) ∧
      ((alone sink w).calls 0 []).world.files.readPath ⟨"app.log"⟩ = .ok (lineBytes "old" "\n")) ∧
    (∃ sink w, FileSink.build { path := ⟨"logs/../app.log"⟩, delay := true }
        { files := oldFiles } = (.ok sink, w) ∧
      oldFiles.readPath ⟨"logs/../app.log"⟩ = .error .notFound ∧
      (alone sink w).lines 0 [say "one"] = [lineBytes "one" "\n"] ∧
      ((alone sink w).calls 0 [say "one"]).world.files.readPath ⟨"logs/../app.log"⟩ =
        .ok (lineBytes "old" "\n" ++ lineBytes "one" "\n")) ∧
    ∃ sink w, FileSink.build { path := ⟨"app.log"⟩, mode := .truncate } { files := oldFiles } =
        (.ok sink, w) ∧
      (alone sink w).lines 0 [say "one", .close, say "two"] =
        [lineBytes "one" "\n", lineBytes "two" "\n"] ∧
      ((alone sink w).calls 0 [say "one", .close, say "two"]).world.files.readPath ⟨"app.log"⟩ =
        .ok (lineBytes "two" "\n") := by
  refine ⟨exists_build (by decide +kernel), exists_build (by decide +kernel), ?_⟩
  obtain ⟨sink, w, hbuild, hlines, hread⟩ := exists_build
    (P := fun sink w =>
      let second := ((alone sink w).calls 0 [say "one"]).modify 0 Handler.shut
      (alone sink w).lines 0 [say "one"] ++ second.lines 0 [say "two"] =
          [lineBytes "one" "\n", lineBytes "two" "\n"] ∧
        (second.calls 0 [say "two"]).world.files.readPath ⟨"app.log"⟩ =
          .ok (lineBytes "two" "\n"))
    (o := { path := ⟨"app.log"⟩, mode := .truncate }) (w := { files := oldFiles })
    (by decide +kernel)
  obtain ⟨-, hs⟩ := serves_build (s := alone sink w) (h := 0) toldApart_oldFiles rfl hbuild rfl rfl
  obtain ⟨hcalls, hsame⟩ := hs.around [say "one"] [say "two"]
  exact ⟨sink, w, hbuild, hsame.trans hlines,
    (congrArg (fun s : Store => s.world.files.readPath ⟨"app.log"⟩) hcalls).trans hread⟩

end Store

end Logbook
