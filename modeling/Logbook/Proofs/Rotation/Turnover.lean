import Logbook.Proofs.Rotation.Filing
import Logbook.Proofs.Rotation.Size

/-! # Rollovers of a filed directory

    A rollover that does not fail makes of a directory that tells what a sink holds one that
    tells what it holds afterwards, whether archives are filed as they are or compressed.
    Each stage of it is a step on what is held: backups that are shifted, the live file that
    is put aside, archives beyond the number to keep, and the live file that is opened or
    written to.
-/

namespace Logbook

open FileSystem LogFile

namespace Rotation

/-- **Before a line** of a sink that rolls over by size, if nothing fails: it is found out
    whether the line is one too many, and if so the live file is rolled over. -/
theorem prepare_size {p : SizeRotation} {s s' : FileSink} {text : String} {w w' : World}
    (hpolicy : s.policy = .size p) (hprepare : s.prepare text w = (.ok (), s', w')) :
    ∃ due f₁ fs₁, p.isDue s.file (s.lineLength text) w.files = (.ok (due, f₁), fs₁) ∧
      ((due = false ∧ s' = { s with policy := .size p, file := f₁ } ∧ w' = { w with files := fs₁ }) ∨
        due = true ∧ ∃ f₂, p.rollOver f₁ { w with files := fs₁ } = (.ok (), f₂, w') ∧
          s' = { s with policy := .size p, file := f₂ }) := by
  obtain ⟨r₁, fs₁, hdue, ⟨e, -, heq, -⟩ | ⟨due, f₁, rfl, hcases⟩⟩ :=
    prepare_size_cases hpolicy hprepare
  · cases heq
  · rw [← hpolicy]
    refine ⟨due, f₁, fs₁, hdue, ?_⟩
    rcases hcases with ⟨rfl, -, rfl, rfl⟩ | ⟨rfl, f₂, hroll, rfl⟩
    · exact .inl ⟨rfl, rfl, rfl⟩
    · exact .inr ⟨rfl, f₂, hroll, rfl⟩

/-! ## The stages -/

/-- The archives of a live file get the names and the form of a filing. -/
structure FiledBy (g : Filing) (f : LogFile) : Prop where
  namer : f.namer? = g.namer?
  rotator : f.rotator? = g.rotator?

variable {g : Filing} {path : Path} {d : Location} {x k : String} {h : Holdings}
  {fs fs' : FileSystem} {f f' : LogFile} {w w' : World} {bytes : List UInt8}

/-- The path of an archive is what the namer makes of the path with the suffix. -/
theorem FiledBy.archiveName (hfiledBy : FiledBy g f) (k : String) :
    f.archiveName (f.sibling k) = g.path f.path k := by
  rw [LogFile.archiveName, hfiledBy.namer]
  cases g with
  | plain => simp [Filing.namer?, Filing.path, Filing.extension, LogFile.sibling]
  | zipped _ =>
    simp [Filing.namer?, Filing.path, Filing.extension, LogFile.sibling, Compressed.name,
      String.append_assoc]

theorem FiledBy.sameSettings (hfiledBy : FiledBy g f) (hsettings : f.SameSettings f') :
    FiledBy g f' :=
  ⟨hsettings.namer.trans hfiledBy.namer, hsettings.rotator.trans hfiledBy.rotator⟩

namespace Filed

/-- **The live file is put aside** under a suffix that is free. -/
theorem putAside (hfiled : Filed g path d x h w.files) (hpath : f.path = path)
    (hfiledBy : FiledBy g f) (hk : Nameable k) (hfree : k ∉ h.archives)
    (hput : f.putAside f.path (g.path path k) w = (.ok (), w')) :
    Filed g path d x (h.stowed k) w'.files := by
  cases g with
  | plain => exact hfiled.putAside_plain hpath hfiledBy.rotator hk hfree hput
  | zipped compress => exact hfiled.putAside_zipped hpath hfiledBy.rotator hk hfree hput

/-- Room is made, and the live file is put aside. -/
theorem clear_putAside {fs₁ : FileSystem} (hfiled : Filed g path d x h w.files)
    (hpath : f.path = path) (hfiledBy : FiledBy g f) (hk : Nameable k)
    (hclear : SizeRotation.clear (g.path path k) w.files = (.ok (), fs₁))
    (hput : f.putAside f.path (g.path path k) { w with files := fs₁ } = (.ok (), w')) :
    Filed g path d x (h.stowed k) w'.files := by
  have hcleared : Filed g path d x (h.without k) fs₁ := hfiled.clear hk hclear
  rw [← Holdings.stowed_without]
  exact putAside (w := { w with files := fs₁ }) hcleared hpath hfiledBy hk
    Finmap.notMem_erase_self hput

/-- **Bytes behind the live file**, which is made if it is not there. -/
theorem grows {id : FileId} (hfiled : Filed g path d x h fs)
    (hgrows : Grows (d ++ [x]) bytes fs fs') (hshown : fs'.shown path d x = some (.file id)) :
    Filed g path d x (h.written bytes) fs' := by
  obtain ⟨⟨-, hshort⟩, hentry⟩ := shown_eq_some_iff.mp hshown
  refine ⟨hfiled.site.grows (startsWith_self x) hgrows, hgrows.nodup d hfiled.nodup, ?_, ?_, ?_,
    fun _ => hshort, hfiled.fits⟩
  · rw [hgrows.fileAt?_here hfiled.site.plain hentry, hfiled.live]
    rfl
  · intro k
    rw [hgrows.fileAt?_other fun heq => g.name_ne x k (child_inj.mp heq)]
    exact hfiled.held k
  · intro y hy
    by_cases hyx : y = x
    · exact .inl hyx
    · rw [mem_childNames_iff, hgrows.entry _ fun heq => hyx (child_inj.mp heq)] at hy
      exact hfiled.only y (mem_childNames_iff.mpr hy)

/-- **The live file is opened.** -/
theorem reopen (hfiled : Filed g path d x h fs) (hpath : f.path = path)
    (htracks : f.Tracks d x fs) (hreopen : f.reopen fs = (.ok f', fs')) :
    Filed g path d x h.opened fs' ∧ f.SameSettings f' ∧ f'.Tracks d x fs' ∧ f'.isOpen = true ∧
      f'.counted = (h.live?.getD []).length := by
  subst hpath
  obtain ⟨hgrows, -, hopened⟩ := reopen_spec hfiled.site.leads hfiled.site.length hfiled.site.sound
    hfiled.site.plain htracks hreopen
  obtain ⟨hsettings, htracks', handle, hhandle⟩ := hopened f' rfl
  obtain ⟨-, hshown, hcounted⟩ := htracks'.handle handle hhandle
  rw [hsettings.path] at hshown
  have hfiled' := hfiled.grows hgrows hshown
  rw [Holdings.written_nil] at hfiled'
  refine ⟨hfiled', hsettings, htracks', by rw [LogFile.isOpen, hhandle]; rfl, ?_⟩
  -- What is counted is what the file holds.
  have hlive := hfiled'.live
  rw [fileAt?_of_file (shown_eq_some_iff.mp hshown).2] at hlive
  rw [hcounted, Option.some.inj hlive]

/-- **A line** comes behind the live file. -/
theorem writeLine {text terminator : String} (hfiled : Filed g path d x h fs)
    (hpath : f.path = path) (htracks : f.Tracks d x fs)
    (hwrite : f.writeLine text terminator fs = (.ok f', fs')) :
    Filed g path d x (h.written (lineBytes text terminator)) fs' ∧ f.SameSettings f' ∧
      f'.Tracks d x fs' := by
  subst hpath
  obtain ⟨-, hwritten⟩ := writeLine_spec hfiled.site.leads hfiled.site.length hfiled.site.sound
    hfiled.site.plain htracks hwrite
  obtain ⟨hgrows, hsettings, htracks', handle, hhandle⟩ := hwritten f' rfl
  obtain ⟨-, hshown, -⟩ := htracks'.handle handle hhandle
  rw [hsettings.path] at hshown
  exact ⟨hfiled.grows hgrows hshown, hsettings, htracks'⟩

/-- The new live file is opened, if it is not left to the next line. -/
theorem reopened (hfiled : Filed g path d x h fs) (hpath : f.path = path)
    (htracks : f.Tracks d x fs)
    (hrenewed : f.Renewed fs f' fs') :
    Filed g path d x (h.reopened f.delay) fs' ∧ f.SameSettings f' ∧ f'.Tracks d x fs' := by
  unfold Holdings.reopened
  cases hrenewed with
  | inl hlater =>
    obtain ⟨hdelay, rfl, rfl⟩ := hlater
    rw [if_pos hdelay]
    exact ⟨hfiled, .refl f', htracks⟩
  | inr hnow =>
    obtain ⟨hdelay, hreopen⟩ := hnow
    rw [if_neg (by simp [hdelay])]
    obtain ⟨hfiled', hsettings, htracks', -, -⟩ := hfiled.reopen hpath htracks hreopen
    exact ⟨hfiled', hsettings, htracks'⟩

/-! ## By size -/

section Size

variable {p : SizeRotation}

/-- **Whether a line is one too many** is told by what the live file holds, which is opened
    to find out. -/
theorem isDue_size {length : Nat} {due : Bool} (hfiled : Filed g path d x h fs)
    (hpath : f.path = path) (htracks : f.Tracks d x fs) (hmax : p.maxBytes ≠ 0)
    (hdue : p.isDue f length fs = (.ok (due, f'), fs')) :
    Filed g path d x h.opened fs' ∧ f.SameSettings f' ∧ f'.Tracks d x fs' ∧
      due = decide (p.maxBytes ≤ (h.live?.getD []).length + length) := by
  have hspecial : fs.isSpecial f.path = false := by
    rw [hpath]
    exact hfiled.site.leads.isSpecial_eq_false hfiled.site.plain
  rcases isDue_size_cases hspecial hdue with ⟨hzero, -, -⟩ | ⟨-, ⟨e, -, heq⟩ | ⟨f₁, hreopen, heq⟩⟩
  · exact absurd hzero hmax
  · cases heq
  · obtain ⟨rfl, rfl⟩ := Prod.mk.inj (Except.ok.inj heq)
    obtain ⟨hfiled', hsettings, htracks', -, hcounted⟩ := hfiled.reopen hpath htracks hreopen
    rw [hcounted]
    exact ⟨hfiled', hsettings, htracks', rfl⟩

/-- The name of a backup is that of an archive with the number for a suffix. -/
theorem backupName_eq (hpath : f.path = path) (hfiledBy : FiledBy g f) (n : Nat) :
    SizeRotation.backupName f n = g.path path (toString n) := by
  rw [SizeRotation.backupName, hfiledBy.archiveName, hpath]

/-- **One shift.** -/
theorem shiftOne {n : Nat} (hfiled : Filed g path d x h fs) (hpath : f.path = path)
    (hfiledBy : FiledBy g f) (hshift : SizeRotation.shiftOne f n fs = (.ok (), fs')) :
    Filed g path d x (h.moved (toString n) (toString (n + 1))) fs' := by
  have hne : toString n ≠ toString (n + 1) := fun heq => Nat.succ_ne_self n (toString_inj.mp heq).symm
  unfold SizeRotation.shiftOne at hshift
  simp only [backupName_eq hpath hfiledBy] at hshift
  have hsource := hfiled.exists_archive (nameable_toString n)
  split at hshift
  · next hexists =>
    have hmem := hsource.mp hexists
    cases hclear : SizeRotation.clear (g.path path (toString (n + 1))) fs with
    | mk r fs₁ =>
      rw [hclear] at hshift
      cases r with
      | error e => cases (Prod.mk.inj hshift).1
      | ok u =>
        have hcleared := hfiled.clear (nameable_toString (n + 1)) hclear
        obtain ⟨bytes, hbytes⟩ := Finmap.mem_iff.mp hmem
        rw [← Holdings.moved_without hne hbytes]
        have hstill : (h.without (toString (n + 1))).archives.lookup (toString n) = some bytes := by
          rw [Holdings.without, Finmap.lookup_erase_ne hne, hbytes]
        have hfree : fs₁.exists? (g.path path (toString (n + 1))) = false := by
          rw [Bool.eq_false_iff]
          intro hthere
          exact Finmap.notMem_erase_self
            ((hcleared.exists_archive (nameable_toString (n + 1))).mp hthere)
        obtain ⟨e, herror, -⟩ | ⟨-, rfl, -, hfits⟩ := renameReplacing_spec
          (hcleared.leads (nameable_toString n)) (hcleared.leads (nameable_toString (n + 1)))
          (fun heq => hne (Filing.name_inj.mp heq)) hfree hshift
        · cases herror
        · exact hcleared.move hstill hne hfits
  · next hexists =>
    obtain ⟨-, rfl⟩ := Prod.mk.inj hshift
    rw [Holdings.moved_of_not_mem (mt hsource.mpr hexists)]
    exact hfiled

/-- **The shift**, the greatest number first. -/
theorem shift {n : Nat} (hfiled : Filed g path d x h fs) (hpath : f.path = path)
    (hfiledBy : FiledBy g f) (hshift : SizeRotation.shift f n fs = (.ok (), fs')) :
    Filed g path d x (h.shifted n) fs' := by
  induction n generalizing h fs with
  | zero =>
    obtain ⟨-, rfl⟩ := Prod.mk.inj hshift
    exact hfiled
  | succ n ih =>
    unfold SizeRotation.shift at hshift
    cases hone : SizeRotation.shiftOne f (n + 1) fs with
    | mk r fs₁ =>
      rw [hone] at hshift
      cases r with
      | error e => cases (Prod.mk.inj hshift).1
      | ok u => exact ih (hfiled.shiftOne hpath hfiledBy hone) hshift

/-- All backups are moved on, and the live file becomes the first. -/
theorem moveAll (hfiled : Filed g path d x h w.files) (hpath : f.path = path)
    (hfiledBy : FiledBy g f) (hmove : p.moveAll f w = (.ok (), w')) :
    Filed g path d x
      (if p.backups = 0 then h else (h.shifted (p.backups - 1)).stowed (toString 1)) w'.files := by
  unfold SizeRotation.moveAll at hmove
  by_cases hzero : p.backups = 0
  · rw [if_pos hzero] at hmove ⊢
    obtain ⟨-, rfl⟩ := Prod.mk.inj hmove
    exact hfiled
  · rw [if_neg hzero] at hmove ⊢
    rw [backupName_eq hpath hfiledBy] at hmove
    cases hshift : SizeRotation.shift f (p.backups - 1) w.files with
    | mk r fs₁ =>
      rw [hshift] at hmove
      cases r with
      | error e => cases (Prod.mk.inj hmove).1
      | ok u =>
        have hshifted := hfiled.shift hpath hfiledBy hshift
        cases hclear : SizeRotation.clear (g.path path (toString 1)) fs₁ with
        | mk r fs₂ =>
          dsimp only at hmove
          rw [hclear] at hmove
          cases r with
          | error e => cases (Prod.mk.inj hmove).1
          | ok u =>
            exact clear_putAside (w := { w with files := fs₁ }) hshifted hpath hfiledBy
              (nameable_toString 1) hclear hmove

/-- **A rollover by size.** -/
theorem rollOver_size (hfiled : Filed g path d x h w.files) (hpath : f.path = path)
    (hfiledBy : FiledBy g f) (htracks : f.Tracks d x w.files)
    (hroll : p.rollOver f w = (.ok (), f', w')) :
    Filed g path d x (h.rolledBySize p f.delay) w'.files ∧ f.SameSettings f' ∧
      f'.Tracks d x w'.files := by
  obtain ⟨r₁, w₁, hmove, ⟨e, -, heq, -⟩ | ⟨rfl, ⟨e, -, heq, -⟩ | ⟨-, hrenewed⟩⟩⟩ :=
    rollOver_size_cases hroll
  · cases heq
  · cases heq
  · have hmoved := hfiled.moveAll (f := f.close) hpath (hfiledBy.sameSettings (.close f)) hmove
    obtain ⟨hfiled', hsettings, htracks'⟩ :=
      hmoved.reopened (f := f.close) hpath (htracks.close w₁.files) hrenewed
    exact ⟨hfiled', (SameSettings.close f).trans hsettings, htracks'⟩

end Size

/-! ## At set times -/

section Timed

variable {p p' : TimedRotation}

/-- The live file is put aside under the time at which its period began. -/
theorem putAside_timed {now : Int} (hfiled : Filed g path d x h w.files) (hpath : f.path = path)
    (hfiledBy : FiledBy g f) (hput : p.putAside f now w = (.ok (), w')) :
    Filed g path d x (h.stowed (p.schedule.archiveSuffix (p.periodStart now))) w'.files := by
  have hk : Nameable (p.schedule.archiveSuffix (p.periodStart now)) := archiveSuffix_plain _ _
  have htarget : p.archivePath f now =
      g.path path (p.schedule.archiveSuffix (p.periodStart now)) := by
    rw [TimedRotation.archivePath, hfiledBy.archiveName, hpath]
  unfold TimedRotation.putAside at hput
  rw [htarget] at hput
  dsimp only at hput
  split at hput
  · cases (Prod.mk.inj hput).1
  · next fs₁ hcleared =>
    refine hfiled.clear_putAside hpath hfiledBy hk ?_ hput
    -- Room is made as for backups.
    unfold SizeRotation.clear
    split at hcleared
    · next hexists =>
      rw [if_pos hexists]
      cases hremove : w.files.removeFile
          (g.path path (p.schedule.archiveSuffix (p.periodStart now))) with
      | error e =>
        rw [hremove] at hcleared
        cases hcleared
      | ok fs₂ =>
        rw [hremove] at hcleared
        obtain rfl := Except.ok.inj hcleared
        rfl
    · next hnot =>
      rw [if_neg hnot, Except.ok.inj hcleared]

/-- **The archives that retention finds** are those with times for suffixes, in their order. -/
theorem archivesAmong_eq {unit : Period} (hfiled : Filed g path d x h fs)
    (hall : h.AllStamped unit) :
    archivesAmong unit x (fs.childNames d) = (h.times unit).map (g.name x) := by
  refine Rotation.archivesAmong_eq hfiled.nodup ?_ ?_
  · -- Times have one length, so that the names are in the order of the suffixes.
    rw [List.pairwise_map]
    refine List.Pairwise.imp_of_mem ?_ (h.times_sorted unit)
    intro a b ha hb hlt
    have hlen : ∀ k ∈ h.times unit, k.toList.length = width unit.shape := fun k hk =>
      length_of_afterShape (isTime_iff.mp (Holdings.mem_times.mp hk).2)
    exact g.name_lt x ((hlen a ha).trans (hlen b hb).symm) hlt
  · intro y
    rw [List.mem_map]
    constructor
    · intro hy
      obtain ⟨k, hk, rfl⟩ := hy
      obtain ⟨hmem, htime⟩ := Holdings.mem_times.mp hk
      refine ⟨?_, (Filing.isArchiveName_name (hall k hmem)).trans htime⟩
      obtain ⟨id, hid⟩ := hfiled.entry_of_mem hmem
      exact mem_childNames_iff.mpr ⟨_, hid⟩
    · intro hy
      obtain ⟨hthere, hname⟩ := hy
      obtain ⟨k, hk, rfl⟩ := (hfiled.only y hthere).resolve_left (ne_of_isArchiveName hname)
      rw [Filing.isArchiveName_name (hall k hk)] at hname
      exact ⟨k, Holdings.mem_times.mpr ⟨hk, hname⟩, rfl⟩

/-- **Retention** removes the archives with the least times. -/
theorem retain (hfiled : Filed g path d x h fs) (hall : h.AllStamped p.schedule.unit)
    (hpath : f.path = path) (hretain : p.retain f fs = (.ok (), fs')) :
    Filed g path d x (h.retained p.schedule.unit p.backups) fs' := by
  unfold Holdings.retained
  obtain ⟨hzero, rfl⟩ | ⟨hpos, rfl⟩ :=
    retain_removes hpath hfiled.site.leads hfiled.site.length hretain
  · rw [if_pos hzero]
    exact hfiled
  · rw [if_neg hpos, hfiled.archivesAmong_eq hall]
    -- The least names are those of the least times.
    have hsurplus : allButLast p.backups ((h.times p.schedule.unit).map (g.name x)) =
        (allButLast p.backups (h.times p.schedule.unit)).map (g.name x) := by
      rw [allButLast, allButLast, List.length_map, List.map_take]
    rw [hsurplus]
    exact hfiled.takeAll _

/-- **A rollover at a set time.** -/
theorem rollOver_timed (hfiled : Filed g path d x h w.files) (hall : h.AllStamped p.schedule.unit)
    (hpath : f.path = path) (hfiledBy : FiledBy g f) (htracks : f.Tracks d x w.files)
    (hroll : p.rollOver f w = (.ok p', f', w')) :
    Filed g path d x (h.rolledAt p f.delay (w.now p.clock)) w'.files ∧ f.SameSettings f' ∧
      f'.Tracks d x w'.files ∧ p' = { p with dueAt := p.schedule.next (w.now p.clock) } := by
  obtain ⟨w₁, fs₂, hput, hretain, hrenewed, hp'⟩ := rollOver_ok hroll
  have hstowed := hfiled.putAside_timed (f := f.close) hpath (hfiledBy.sameSettings (.close f)) hput
  -- The name that the new archive gets is one that retention reads.
  have hstamped := hall.stowed (stamped_archiveSuffix p.schedule (p.periodStart (w.now p.clock)))
  have hretained := hstowed.retain hstamped (f := f.close) hpath hretain
  obtain ⟨hfiled', hsettings, htracks'⟩ :=
    hretained.reopened (f := f.close) hpath (htracks.close fs₂) hrenewed
  exact ⟨hfiled', (SameSettings.close f).trans hsettings, htracks', hp'⟩

end Timed

end Filed

end Rotation

end Logbook
