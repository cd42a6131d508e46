import Logbook.Proofs.Rotation.Size
import Mathlib.Logic.Relation

/-! # Runs of a sink that rolls over by size

    A sink is made, lines are written to it, it is flushed and closed in any order, and
    time passes.  The directory of its live file may have to be made first: from the
    sink's side this is as if it had been there from the start.
-/

namespace Logbook

open FileSystem LogFile Rotation

/-! ## The directory of the live file -/

variable {path : Path} {d : Location} {x : String} {p : SizeRotation} {fs fs' gs : FileSystem}
  {s s' : FileSink} {w w' : World} {f : LogFile}

/-- A closed file is opened as if its directory had been made before. -/
theorem LogFile.reopen_prepared (hclosed : f.isOpen = false)
    (hmade : prepareDirectory f.path fs = (.ok (), fs'))
    (hthere : prepareDirectory f.path fs' = (.ok (), fs')) : f.reopen fs = f.reopen fs' := by
  unfold reopen
  rw [hclosed, hmade, hthere]
  rfl

namespace Rotation

/-- **Ready**: the directory of the live file can be made if it is missing, and the sink
    is steady once it is there.  Nothing is missing while the file is open. -/
def Ready (p : SizeRotation) (path : Path) (d : Location) (x : String) (s : FileSink)
    (w : World) : Prop :=
  ∃ fs, prepareDirectory path w.files = (.ok (), fs) ∧ Steady p path d x s fs ∧
    (s.file.isOpen = true → fs = w.files)

/-- A steady sink needs no directory made. -/
theorem Steady.ready (h : Steady p path d x s w.files) : Ready p path d x s w :=
  ⟨w.files, prepareDirectory_of_leads h.site.leads h.site.length, h, fun _ => rfl⟩

/-- What is not there yet is nothing special. -/
theorem isSpecial_prepared (hsite : Site path d x (isNumbered x p.backups) fs')
    (hmade : prepareDirectory path fs = (.ok (), fs')) : fs.isSpecial path = false := by
  cases hstatus : fs.status false path with
  | error err => simp [isSpecial, hstatus]
  | ok e =>
    -- The path names something already, so no directory was missing.
    obtain ⟨front, m, hsplits, -⟩ := hsite.leads.way
    obtain ⟨d', hleads⟩ := leads_of_status hsplits hstatus
    rw [prepareDirectory_of_leads hleads hsite.length] at hmade
    obtain rfl : fs = fs' := (Prod.mk.inj hmade).2
    exact hsite.leads.isSpecial_eq_false hsite.plain

/-- A closed file is opened in the tree as it will be. -/
theorem reopen_of_steady (hmade : prepareDirectory path fs = (.ok (), fs'))
    (hsteady : Steady p path d x s fs') (hclosed : s.file.isOpen = false) :
    s.file.reopen fs = s.file.reopen fs' := by
  have hthere := prepareDirectory_of_leads hsteady.site.leads hsteady.site.length
  refine reopen_prepared hclosed ?_ ?_
  · rw [hsteady.file, hmade]
  · rw [hsteady.file, hthere]

/-- What comes before a line is done as if the directory had been made before, or it is
    nothing at all. -/
theorem prepare_prepared (text : String) (hmade : prepareDirectory path w.files = (.ok (), fs))
    (hsteady : Steady p path d x s fs) (hopen : s.file.isOpen = true → fs = w.files) :
    s.prepare text w = s.prepare text { w with files := fs } ∨
      ∀ v, s.prepare text v = (.ok (), { s with policy := .size p }, v) := by
  cases hclosed : s.file.isOpen with
  | true =>
    -- An open file has its directory already.
    obtain rfl := hopen hclosed
    exact .inl rfl
  | false =>
    by_cases hmax : p.maxBytes = 0
    · -- Nothing is ever due.
      right
      intro v
      simp only [FileSink.prepare, FileSink.isDue, hsteady.policy, Policy.isDue,
        SizeRotation.isDue, hmax, decide_true, Bool.true_or, if_true]
    · -- The file is opened to find out whether the line fits.
      left
      have hspecial : w.files.isSpecial s.file.path = false := by
        rw [hsteady.file]
        exact isSpecial_prepared hsteady.site hmade
      have hspecial' : fs.isSpecial s.file.path = false := by
        rw [hsteady.file]
        exact hsteady.site.leads.isSpecial_eq_false hsteady.site.plain
      have hdue : p.isDue s.file (s.lineLength text) w.files =
          p.isDue s.file (s.lineLength text) fs := by
        simp only [SizeRotation.isDue, hmax, hspecial, hspecial',
          reopen_of_steady hmade hsteady hclosed, decide_false, Bool.or_self,
          Bool.false_eq_true, if_false]
      simp only [FileSink.prepare, FileSink.isDue, hsteady.policy, Policy.isDue, hdue]

/-- A line is written as if the directory had been made before. -/
theorem emit_prepared {text : String} (hmade : prepareDirectory path w.files = (.ok (), fs))
    (hsteady : Steady p path d x s fs) (hopen : s.file.isOpen = true → fs = w.files) :
    s.emit text w = s.emit text { w with files := fs } := by
  cases hclosed : s.file.isOpen with
  | true =>
    obtain rfl := hopen hclosed
    rfl
  | false =>
    have hwrite : s.file.writeLine text s.terminator w.files =
        s.file.writeLine text s.terminator fs := by
      rw [writeLine, writeLine, reopen_of_steady hmade hsteady hclosed]
    rcases prepare_prepared text hmade hsteady hopen with hsame | hnothing
    · simp only [FileSink.emit, hsame]
    · simp only [FileSink.emit, hnothing, hwrite]

/-! ## Runs -/

/-- A tree that differs in times alone keeps a sink steady. -/
theorem Steady.alike (h : Steady p path d x s fs) (halike : fs.Alike gs) :
    Steady p path d x s gs :=
  ⟨h.policy, h.file, h.namer, h.rotator, h.tracks.alike halike, h.site.alike halike⟩

/-- A step keeps a sink ready. -/
theorem Ready.step {p : SizeRotation} {a b : FileSink × World} (h : Ready p path d x a.1 a.2)
    (hstep : FileSink.Step a b) : Ready p path d x b.1 b.2 := by
  obtain ⟨fs, hmade, hsteady, hopen⟩ := h
  cases hstep with
  | emit text h =>
    rw [emit_prepared hmade hsteady hopen] at h
    obtain ⟨hsteady', -⟩ := emit_spec hsteady h
    exact hsteady'.ready
  | flush h => exact ⟨fs, hmade, hsteady, hopen⟩
  | @close s s' w r h =>
    obtain ⟨-, hs⟩ := Prod.mk.inj h
    obtain rfl : s.close = s' := Sink.file.inj hs
    have hclosed : s.close.file.isOpen = false := rfl
    refine ⟨fs, hmade, hsteady.update (.close _) (hsteady.tracks.close fs) hsteady.site, ?_⟩
    intro heq
    rw [hclosed] at heq
    cases heq
  | @elsewhere s w w' halike =>
    obtain ⟨hr, halike'⟩ := prepareDirectory_alike halike path
    rw [hmade] at hr halike'
    refine ⟨(prepareDirectory path w'.files).2, Prod.ext hr rfl, hsteady.alike halike', ?_⟩
    intro hisOpen
    -- An open file has its directory, before and after.
    obtain rfl := hopen hisOpen
    have hsite := (hsteady.alike halike).site
    rw [prepareDirectory_of_leads hsite.leads hsite.length]

/-- A sink that has been made is ready. -/
theorem ready_build {o : FileSinkOptions} {s : FileSink} {w w' : World} {fs : FileSystem}
    (hpolicy : o.policy? = some (.size p)) (hnamer : o.namer? = none)
    (hrotator : o.rotator? = none) (hmade : prepareDirectory o.path w.files = (.ok (), fs))
    (hsite : Site o.path d x (isNumbered x p.backups) fs)
    (h : FileSink.build o w = (.ok s, w')) : Ready p o.path d x s w' := by
  obtain ⟨f, hrenewed, hfile, hattached, -⟩ := FileSink.build_ok hpolicy h
  have hthere := prepareDirectory_of_leads hsite.leads hsite.length
  rcases hrenewed with ⟨-, rfl, hsame⟩ | ⟨hdelay, hreopen⟩
  · -- A sink that waits for a line has touched no file.
    refine ⟨fs, hsame ▸ hmade, ⟨hattached, ?_, ?_, ?_, ?_, hsite⟩, ?_⟩
    -- The file has the options' settings as they were given.
    all_goals rw [hfile]
    · rfl
    · exact hnamer
    · exact hrotator
    · exact ⟨rfl, nofun⟩
    · exact nofun
  · -- The file is opened as if its directory had been there.
    have hclosed : o.liveFile.isOpen = false := rfl
    rw [LogFile.reopen_prepared hclosed hmade hthere] at hreopen
    have hrenewed : o.liveFile.Renewed fs f w'.files := .inr ⟨hdelay, hreopen⟩
    obtain ⟨hsettings, htracks, hgrows⟩ := hrenewed.spec rfl hsite o.liveFile_tracks
    have hsite₁ := hsite.grows (isNumbered_name (x := x) (Nat.zero_le p.backups)) hgrows
    refine Steady.ready ⟨hattached, ?_, ?_, ?_, ?_, hsite₁⟩
    all_goals rw [hfile]
    · exact hsettings.path
    · exact hnamer
    · exact hrotator
    · exact ⟨htracks.mode, htracks.handle⟩

/-- **Every line of every run**: whatever the state of the tree and of the backups, and
    whatever fails, the line comes behind the history and at most the oldest backup is
    cut off in front.  Without backups nothing is, and no number beyond the greatest one
    is ever touched.  If nothing fails the live file stays below the limit or holds the
    one line. -/
theorem emit_history {o : FileSinkOptions} {s₀ : FileSink} {w₀ w₁ : World} {fs₁ : FileSystem}
    {text : String} {r : Except LogError Unit}
    (hpolicy : o.policy? = some (.size p)) (hnamer : o.namer? = none)
    (hrotator : o.rotator? = none)
    (hmade : prepareDirectory o.path w₀.files = (.ok (), fs₁)) (hsound : fs₁.Sound)
    (hway : (fs₁.without d (isNumbered x p.backups)).edge o.path = .ok ⟨d, .name x, false⟩)
    (hplain : fs₁.PlainAt (d ++ [x]))
    (hbuild : FileSink.build o w₀ = (.ok s₀, w₁))
    (hrun : Relation.ReflTransGen FileSink.Step (s₀, w₁) (s, w))
    (hemit : s.emit text w = (r, s', w')) :
    ∃ before, prepareDirectory o.path w.files = (.ok (), before) ∧
      (∃ cut, history (shelf before o.path) p.backups ++ s.written text r =
          cut ++ history (shelf w'.files o.path) p.backups ∧
        (cut = [] ∨ IsOldest (shelf before o.path) p.backups cut) ∧ (p.backups = 0 → cut = [])) ∧
      (∀ n, p.backups < n → shelf w'.files o.path n = shelf before o.path n ∧
        ∀ e, w'.files.status false (numbered o.path n) = .ok e ↔
          before.status false (numbered o.path n) = .ok e) ∧
      ((s.prepare text w).1 = .ok () → r = .ok () → 0 < p.backups → 0 < p.maxBytes →
        ∃ live, w'.files.regular? o.path = some live ∧
          (live.length < p.maxBytes ∨ live = lineBytes text s.terminator)) := by
  obtain ⟨hleads, hlen⟩ := leads_of_edge hway
  have hstart : Ready p o.path d x s₀ w₁ :=
    ready_build hpolicy hnamer hrotator hmade ⟨hsound, hleads, hlen, hplain⟩ hbuild
  have hready : Ready p o.path d x s w := by
    -- Being ready is what every step of a run keeps.
    have hall : ∀ a, Relation.ReflTransGen FileSink.Step (s₀, w₁) a → Ready p o.path d x a.1 a.2 := by
      intro a ha
      induction ha with
      | refl => exact hstart
      | tail _ hstep ih => exact ih.step hstep
    exact hall (s, w) hrun
  obtain ⟨before, hbefore, hsteady, hopen⟩ := hready
  rw [emit_prepared hbefore hsteady hopen] at hemit
  obtain ⟨-, -, ⟨cut, hcut, holdest⟩, habove, hsame, hlive⟩ := emit_spec hsteady hemit
  refine ⟨before, hbefore, ⟨cut, hcut, holdest, fun hzero => ?_⟩, fun n hn => ⟨habove n hn, ?_⟩, ?_⟩
  · rcases holdest with hnil | ⟨n, hn, hnb, -⟩
    · exact hnil
    · omega
  · intro e
    -- A number beyond the greatest one is no owned name, so its place has not been touched.
    have hentry : w'.files.entryAt? (d ++ [numberedName x n]) =
        before.entryAt? (d ++ [numberedName x n]) := by
      refine hsame _ ?_
      rw [owned_child, Bool.eq_false_iff]
      intro hnumbered
      obtain ⟨k, hk, heq⟩ := isNumbered_iff.mp hnumbered
      have hnk := numberedName_inj.mp heq
      omega
    rw [(leads_numbered_site hsteady.site hsame n).status_eq_ok_iff,
      (leads_numbered_site hsteady.site (.refl _ _ _) n).status_eq_ok_iff, shown, shown, hentry]
  · intro hok
    refine hlive ?_
    rcases prepare_prepared text hbefore hsteady hopen with hsame | hnothing
    · rw [← hsame]
      exact hok
    · rw [hnothing]

/-- A line at the limit: the old backup is cut off, the live file becomes the backup,
    and the line is alone in the new live file. -/
theorem emit_history_at_limit :
    let s : FileSink := { file := { path := ⟨"app.log"⟩, delay := true }, policy := .size ⟨10, 1⟩ }
    let w : World := { files := {
      entries := [(["app.log"], .file 1), (["app.log.1"], .file 2)]
      data := #[{}, { content := [102, 105, 114, 115, 116, 10] },
        { content := [111, 108, 100, 10] }] } }
    ∃ cut, history (shelf w.files ⟨"app.log"⟩) 1 ++ lineBytes "second" "\n" =
        cut ++ history (shelf (s.emit "second" w).2.2.files ⟨"app.log"⟩) 1 ∧
      IsOldest (shelf w.files ⟨"app.log"⟩) 1 cut := by
  intro s w
  have hmade : prepareDirectory ⟨"app.log"⟩ w.files = (.ok (), w.files) := rfl
  have hsound : w.files.Sound := ⟨by decide, by decide⟩
  have hplain : w.files.PlainAt ([] ++ ["app.log"]) := by
    intro e he
    exact ⟨1, (Option.some.inj he).symm⟩
  have hok : s.written "second" (s.emit "second" w).1 = lineBytes "second" "\n" := by
    decide +kernel
  have hbuild : FileSink.build
      { path := ⟨"app.log"⟩, delay := true, policy? := some (.size ⟨10, 1⟩) } w = (.ok s, w) := rfl
  have hemit : s.emit "second" w =
      ((s.emit "second" w).1, (s.emit "second" w).2.1, (s.emit "second" w).2.2) :=
    Prod.ext rfl (Prod.ext rfl rfl)
  obtain ⟨before, hbefore, ⟨cut, hcut, hcases, -⟩, -⟩ :=
    emit_history (o := { path := ⟨"app.log"⟩, delay := true, policy? := some (.size ⟨10, 1⟩) })
      (d := []) rfl rfl rfl hmade hsound (by decide +kernel) hplain hbuild .refl hemit
  obtain rfl : w.files = before := (Prod.mk.inj (hmade.symm.trans hbefore)).2
  rw [hok] at hcut
  -- With nothing cut off the histories would be equal, and they are not.
  refine ⟨cut, hcut, hcases.resolve_left ?_⟩
  rintro rfl
  revert hcut
  decide +kernel

/-- Lines written one after the other by a sink that has just been made, if nothing
    fails. -/
def writeAll (o : FileSinkOptions) (w : World) (texts : List String) : Option (FileSink × World) :=
  match FileSink.build o w with
  | (.error _, _) => none
  | (.ok s, w) =>
    texts.foldl (fun state? text => state?.bind fun (s, w) =>
      match s.emit text w with
      | (.ok (), s, w) => some (s, w)
      | (.error _, _) => none) (some (s, w))

/-- **A backup on the way**: a path that leads through the name of its own backup is cut
    off by the shift, the live file is not found and grows past its limit though nothing
    fails.  A path that leads through a missing directory names nothing before that is
    made, and a file with a history afterwards. -/
theorem backup_on_the_way :
    (let o : FileSinkOptions := { path := ⟨"app.log.1/../app.log"⟩, policy? := some (.size ⟨10, 2⟩) }
      let w : World := { files := { entries := [(["app.log.1"], .directory 1)], data := #[{}, {}] } }
      (writeAll o w ["first"]).map (fun (s, w) => (s.prepare "second" w).1.isOk) = some true ∧
        ∃ live, (writeAll o w ["first", "second"]).bind (fun (_, w) => w.files.regular? o.path) =
          some live ∧ ¬ (live.length < 10 ∨ live = lineBytes "second" "\n")) ∧
      (let o : FileSinkOptions := { path := ⟨"logs/../app.log"⟩, policy? := some (.size ⟨100, 2⟩) }
        let w : World := { files := {
          entries := [(["app.log"], .file 1)]
          data := #[{}, { content := [111, 108, 100, 10] }] } }
        ∃ after, (writeAll o w ["first"]).map (fun (_, w) => history (shelf w.files o.path) 2) =
          some after ∧ ¬ after <:+ history (shelf w.files o.path) 2 ++ lineBytes "first" "\n") := by
  refine ⟨⟨by decide +kernel, lineBytes "first" "\n" ++ lineBytes "second" "\n", by decide +kernel,
    by decide +kernel⟩, [111, 108, 100, 10] ++ lineBytes "first" "\n", by decide +kernel,
    by decide +kernel⟩

end Rotation

end Logbook
