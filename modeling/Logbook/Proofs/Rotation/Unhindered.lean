import Logbook.Proofs.Rotation.Generations

/-! # Rollovers that nothing hinders

    A sink that rolls over by size and is alone in the directory of its live file does not
    fail, as long as the names that it gives are short enough.  The greatest number that it
    gives is one more than that of an archive which is there, and at most the number of
    backups.
-/

namespace Logbook

open FileSystem

variable {path : Path} {d : Location} {x k : String} {fs : FileSystem} {f : LogFile}

namespace LogFile

/-- A live file whose name is short enough is opened. -/
theorem reopen_isOk (hleads : fs.Leads f.path d x) (hlen : checkLength f.path = .ok ())
    (hx : isTooLong x = false) (hplain : fs.PlainAt (d ++ [x])) (htracks : f.Tracks d x fs) :
    ∃ f' fs', f.reopen fs = (.ok f', fs') := by
  unfold reopen
  split
  · exact ⟨f, fs, rfl⟩
  · obtain ⟨fs', id, hopen⟩ := hleads.openFile_isOk hlen hx hplain .append
    rw [prepareDirectory_of_leads hleads hlen, htracks.mode]
    dsimp only
    rw [hopen]
    exact ⟨_, _, rfl⟩

/-- A line is written to a live file that can be opened. -/
theorem writeLine_isOk {f' : LogFile} {fs' : FileSystem} (hreopen : f.reopen fs = (.ok f', fs'))
    (text terminator : String) : ∃ f'' fs'', f.writeLine text terminator fs = (.ok f'', fs'') := by
  unfold writeLine
  rw [hreopen]
  dsimp only
  cases f'.handle? with
  | none => exact ⟨_, _, rfl⟩
  | some handle => exact ⟨_, _, rfl⟩

end LogFile

namespace Rotation

variable {h : Holdings} {p : SizeRotation} {n : Nat} {w : World}

/-- A plain archive with a suffix has a name that is short enough. -/
def Fits (path : Path) (x k : String) : Prop :=
  checkLength (Filing.plain.path path k) = .ok () ∧ isTooLong (Filing.plain.name x k) = false

namespace Filed

/-- Under a suffix that is not held there is nothing. -/
theorem entryAt?_eq_none {g : Filing} (hfiled : Filed g path d x h fs) (hfree : k ∉ h.archives) :
    fs.entryAt? (d ++ [g.name x k]) = none := by
  cases hentry : fs.entryAt? (d ++ [g.name x k]) with
  | none => rfl
  | some e => exact absurd (hfiled.mem_of_entry hentry) hfree

/-- Room can be made for an archive. -/
theorem clear_isOk {g : Filing} (hfiled : Filed g path d x h fs) (hk : Nameable k) :
    ∃ fs', SizeRotation.clear (g.path path k) fs = (.ok (), fs') := by
  unfold SizeRotation.clear
  split
  · next hexists =>
    have hmem := (hfiled.exists_archive hk).mp hexists
    obtain ⟨id, hid⟩ := hfiled.entry_of_mem hmem
    have hshown := shown_eq_some_iff.mpr ⟨hfiled.fits k hmem, hid⟩
    rw [(hfiled.leads hk).removeFile_eq_ok hshown]
    exact ⟨_, rfl⟩
  · exact ⟨fs, rfl⟩

/-- A backup gets the next number, if the name is short enough. -/
theorem shiftOne_isOk (hfiled : Filed .plain path d x h fs) (hpath : f.path = path)
    (hfiledBy : FiledBy .plain f)
    (hfits : toString n ∈ h.archives → Fits path x (toString (n + 1))) :
    ∃ fs', SizeRotation.shiftOne f n fs = (.ok (), fs') := by
  have hne : toString n ≠ toString (n + 1) := fun heq => Nat.succ_ne_self n (toString_inj.mp heq).symm
  unfold SizeRotation.shiftOne
  simp only [backupName_eq hpath hfiledBy]
  split
  · next hexists =>
    have hmem := (hfiled.exists_archive (nameable_toString n)).mp hexists
    obtain ⟨fs₁, hclear⟩ := hfiled.clear_isOk (nameable_toString (n + 1))
    have hcleared := hfiled.clear (nameable_toString (n + 1)) hclear
    have hstill : toString n ∈ (h.without (toString (n + 1))).archives :=
      Finmap.mem_erase.mpr ⟨hne, hmem⟩
    obtain ⟨id, hid⟩ := hcleared.entry_of_mem hstill
    obtain ⟨hlen, hshort⟩ := hfits hmem
    have hrename := (hcleared.leads (nameable_toString n)).rename_eq_ok
      (hcleared.leads (nameable_toString (n + 1))) (fun heq => hne (Filing.name_inj.mp heq))
      (shown_eq_some_iff.mpr ⟨hcleared.fits _ hstill, hid⟩) hlen hshort
      (hcleared.entryAt?_eq_none Finmap.notMem_erase_self)
    rw [hclear]
    dsimp only
    rw [renameReplacing, hrename]
    exact ⟨_, rfl⟩
  · exact ⟨fs, rfl⟩

/-- The backups get the next numbers, if these names are short enough. -/
theorem shift_isOk (hfiled : Filed .plain path d x h fs) (hpath : f.path = path)
    (hfiledBy : FiledBy .plain f)
    (hfits : ∀ i, 1 ≤ i → i ≤ n → toString i ∈ h.archives → Fits path x (toString (i + 1))) :
    ∃ fs', SizeRotation.shift f n fs = (.ok (), fs') := by
  induction n generalizing h fs with
  | zero => exact ⟨fs, rfl⟩
  | succ n ih =>
    obtain ⟨fs₁, hone⟩ := hfiled.shiftOne_isOk hpath hfiledBy (hfits (n + 1) (by omega) (by omega))
    have hmoved := hfiled.shiftOne hpath hfiledBy hone
    rw [SizeRotation.shift, hone]
    refine ih hmoved ?_
    intro i hi hin hmem
    -- Below the archive that has been moved there is what was there.
    have hsource : toString i ≠ toString (n + 1) := fun heq => absurd (toString_inj.mp heq) (by omega)
    have htarget : toString i ≠ toString (n + 1 + 1) :=
      fun heq => absurd (toString_inj.mp heq) (by omega)
    rw [Finmap.mem_iff, Holdings.lookup_moved, if_neg htarget, if_neg hsource, ite_self] at hmem
    exact hfits i hi (by omega) (Finmap.mem_iff.mpr hmem)

/-- The live file is put aside under a suffix that is free, if the name is short enough. -/
theorem putAside_isOk (hfiled : Filed .plain path d x h w.files) (hpath : f.path = path)
    (hrotator : f.rotator? = none) (hk : Nameable k) (hfree : k ∉ h.archives)
    (hfits : Fits path x k) :
    ∃ w', f.putAside f.path (Filing.plain.path path k) w = (.ok (), w') := by
  rw [LogFile.putAside, hrotator, hpath]
  dsimp only
  have hexists := hfiled.exists_live
  cases hlive : h.live? with
  | none =>
    rw [hexists, hlive]
    exact ⟨w, rfl⟩
  | some bytes =>
    obtain ⟨id, hshown, -⟩ := hfiled.shown_of_live hlive
    have hrename := hfiled.site.leads.rename_eq_ok (hfiled.leads hk)
      (Filing.plain.name_ne x k).symm hshown hfits.1 hfits.2 (hfiled.entryAt?_eq_none hfree)
    rw [hexists, hlive, Option.isSome_some, if_pos rfl, renameReplacing, hrename]
    exact ⟨_, rfl⟩

/-- The names that a rollover gives are short enough. -/
def Room (path : Path) (x : String) (p : SizeRotation) (h : Holdings) : Prop :=
  Fits path x (toString 1) ∧
    ∀ i, 1 ≤ i → i < p.backups → toString i ∈ h.archives → Fits path x (toString (i + 1))

/-- All backups are moved on, and the live file is put aside. -/
theorem moveAll_isOk (hfiled : Filed .plain path d x h w.files) (hpath : f.path = path)
    (hfiledBy : FiledBy .plain f) (hroom : Room path x p h) :
    ∃ w', p.moveAll f w = (.ok (), w') := by
  unfold SizeRotation.moveAll
  by_cases hzero : p.backups = 0
  · rw [if_pos hzero]
    exact ⟨w, rfl⟩
  · obtain ⟨fs₁, hshift⟩ := hfiled.shift_isOk (n := p.backups - 1) hpath hfiledBy
      fun i hi hin => hroom.2 i hi (by omega)
    have hshifted := hfiled.shift hpath hfiledBy hshift
    obtain ⟨fs₂, hclear⟩ := hshifted.clear_isOk (nameable_toString 1)
    have hcleared := hshifted.clear (nameable_toString 1) hclear
    rw [if_neg hzero, hshift, backupName_eq hpath hfiledBy]
    dsimp only
    rw [hclear]
    exact putAside_isOk (w := { w with files := fs₂ }) hcleared hpath hfiledBy.rotator
      (nameable_toString 1) Finmap.notMem_erase_self hroom.1

/-- The live file is opened, if its name is short enough. -/
theorem reopen_isOk {g : Filing} (hfiled : Filed g path d x h fs) (hpath : f.path = path)
    (hx : isTooLong x = false) (htracks : f.Tracks d x fs) :
    ∃ f' fs', f.reopen fs = (.ok f', fs') := by
  subst hpath
  exact f.reopen_isOk hfiled.site.leads hfiled.site.length hx hfiled.site.plain htracks

/-- **A rollover by size** that nothing hinders. -/
theorem rollOver_isOk (hfiled : Filed .plain path d x h w.files) (hpath : f.path = path)
    (hfiledBy : FiledBy .plain f) (hx : isTooLong x = false) (htracks : f.Tracks d x w.files)
    (hroom : Room path x p h) : ∃ f' w', p.rollOver f w = (.ok (), f', w') := by
  obtain ⟨w₁, hmove⟩ := hfiled.moveAll_isOk (f := f.close) hpath
    (hfiledBy.sameSettings (.close f)) hroom
  have hmoved := hfiled.moveAll (f := f.close) hpath (hfiledBy.sameSettings (.close f)) hmove
  obtain ⟨f', fs', hreopen⟩ := hmoved.reopen_isOk (f := f.close) hpath hx (htracks.close w₁.files)
  unfold SizeRotation.rollOver
  dsimp only
  rw [hmove]
  dsimp only
  split
  · exact ⟨_, _, rfl⟩
  · rw [hreopen]
    exact ⟨_, _, rfl⟩

/-- It can be found out whether a line is one too many. -/
theorem isDue_isOk {g : Filing} (hfiled : Filed g path d x h fs) (hpath : f.path = path)
    (hx : isTooLong x = false) (htracks : f.Tracks d x fs) (p : SizeRotation) (length : Nat) :
    ∃ due f' fs', p.isDue f length fs = (.ok (due, f'), fs') := by
  obtain ⟨f', fs', hreopen⟩ := hfiled.reopen_isOk hpath hx htracks
  unfold SizeRotation.isDue
  split
  · exact ⟨_, _, _, rfl⟩
  · rw [hreopen]
    exact ⟨_, _, _, rfl⟩

end Filed

/-! ## Sinks -/

namespace Account

variable {o : FileSinkOptions} {s : FileSink} {text : String}

/-- **Before a line** that nothing hinders. -/
theorem prepare_isOk (haccount : Account .plain o d x (.size p, h) s w.files)
    (hx : isTooLong x = false) (hroom : Filed.Room o.path x p h) (text : String) :
    ∃ s' w', s.prepare text w = (.ok (), s', w') := by
  obtain ⟨due, f₁, fs₁, hdue⟩ := haccount.filed.isDue_isOk haccount.path hx haccount.tracks p
    (s.lineLength text)
  unfold FileSink.prepare FileSink.isDue
  rw [haccount.policy, Policy.isDue, hdue]
  dsimp only
  cases due with
  | false => exact ⟨_, _, rfl⟩
  | true =>
    have hmax : p.maxBytes ≠ 0 := by
      intro hzero
      rw [SizeRotation.isDue, if_pos (by simp [hzero])] at hdue
      cases hdue
    obtain ⟨hfiled, hsettings, htracks, -⟩ :=
      haccount.filed.isDue_size haccount.path haccount.tracks hmax hdue
    obtain ⟨f₂, w₂, hroll⟩ := Filed.rollOver_isOk (w := { w with files := fs₁ }) hfiled
      (hsettings.path.trans haccount.path) (haccount.filedBy.sameSettings hsettings) hx htracks hroom
    unfold FileSink.rollOver Policy.rollOver
    dsimp only
    rw [hroll]
    exact ⟨_, _, rfl⟩

/-- **A line** that nothing hinders. -/
theorem emit_isOk (haccount : Account .plain o d x (.size p, h) s w.files)
    (hx : isTooLong x = false) (hroom : Filed.Room o.path x p h) (text : String) :
    (s.prepare text w).1.isOk = true ∧ (s.emit text w).1.isOk = true := by
  obtain ⟨s₁, w₁, hprepare⟩ := haccount.prepare_isOk hx hroom text
  have haccount₁ := haccount.prepare hprepare
  obtain ⟨f', fs', hreopen⟩ := haccount₁.filed.reopen_isOk haccount₁.path hx haccount₁.tracks
  obtain ⟨f'', fs'', hwrite⟩ := LogFile.writeLine_isOk hreopen text s₁.terminator
  unfold FileSink.emit
  rw [hprepare]
  dsimp only
  rw [hwrite]
  exact ⟨rfl, rfl⟩

/-- **A text** that nothing hinders is taken. -/
theorem feed_isSome (haccount : Account .plain o d x (.size p, h) s w.files)
    (hx : isTooLong x = false) (hroom : Filed.Room o.path x p h) (e : Feeding) :
    ∃ s' w', Rotation.feed (s, w) e = some (s', w') := by
  unfold Rotation.feed
  dsimp only
  rw [if_pos ((haccount.arrive e).emit_isOk hx hroom e.text)]
  exact ⟨_, _, rfl⟩

/-- **A sink** is made in an empty directory, if the name of its live file is short
    enough. -/
theorem build_isOk (hvacant : Vacant o.path d x w.files) (hx : isTooLong x = false)
    (hpolicy : o.policy? = some (.size p)) :
    ∃ s w', FileSink.build o w = (.ok s, w') ∧ s.policy = .size p := by
  have hmode : o.openingMode = .append := by simp [FileSinkOptions.openingMode, hpolicy]
  have hfiled : Filed .plain o.path d x {} w.files := .of_vacant hvacant
  have htracks : LogFile.Tracks { path := o.path, delay := o.delay } d x w.files :=
    ⟨rfl, fun _ heq => by cases heq⟩
  obtain ⟨f', fs', hreopen⟩ := hfiled.reopen_isOk rfl hx htracks
  unfold FileSink.build LogFile.make
  rw [hmode, hpolicy]
  dsimp only
  cases hdelay : o.delay with
  | true => exact ⟨_, _, rfl, rfl⟩
  | false =>
    rw [hdelay] at hreopen
    rw [if_neg Bool.false_ne_true, hreopen]
    exact ⟨_, _, rfl, rfl⟩

end Account

end Rotation

end Logbook
