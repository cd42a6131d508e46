import Logbook.Proofs.Rotation.Emit
import Logbook.Proofs.Rotation.Retention

/-! # What a timed rollover leaves alone

    A rollover at a set time puts the live file aside, removes surplus archives and opens
    a new file, and may fail at each of these.  Wherever it stops, nothing has lost its
    place but the live file, the file whose name its archive takes, and archives that
    are surplus.
-/

namespace Logbook

open FileSystem LogFile
open Path (Splits)

namespace Rotation

/-! ## The stages of a rollover -/

variable {p : TimedRotation} {f f' : LogFile} {w w' w₁ : World}

/-- The first instant is counted from the last change of the live file, or from now. -/
theorem attach_eq (p : TimedRotation) (f : LogFile) (w : World) :
    ∃ c, p.attach f w = { p with dueAt := p.schedule.next c } ∧
      (c = w.now p.clock ∨ 0 ≤ c ∧ w.files.modified? f.path = some c) := by
  unfold TimedRotation.attach
  cases hmodified : w.files.modified? f.path with
  | none => exact ⟨_, rfl, .inl rfl⟩
  | some t =>
    by_cases ht : 0 ≤ t
    · exact ⟨t, by simp [ht], .inr ⟨ht, rfl⟩⟩
    · exact ⟨w.now p.clock, by simp [ht], .inl rfl⟩

/-- **Rollover**: the file is put aside, archives are removed, a new file is opened; the
    first failure ends it. -/
theorem rollOver_cases {r : Except LogError TimedRotation} (h : p.rollOver f w = (r, f', w')) :
    ∃ r₁ w₁, p.putAside f.close (w.now p.clock) w = (r₁, w₁) ∧
      ((∃ e, r₁ = .error e ∧ r = .error e ∧ f' = f.close ∧ w' = w₁) ∨
        r₁ = .ok () ∧ ∃ r₂ fs₂, p.retain f.close w₁.files = (r₂, fs₂) ∧
          ((∃ e, r₂ = .error e ∧ r = .error e ∧ f' = f.close ∧ w' = { w₁ with files := fs₂ }) ∨
            r₂ = .ok () ∧ ((f.delay = true ∧ f' = f.close ∧ w' = { w₁ with files := fs₂ } ∧
                r = .ok { p with dueAt := p.schedule.next (w.now p.clock) }) ∨
              f.delay = false ∧ ∃ r₃ fs₃, f.close.reopen fs₂ = (r₃, fs₃) ∧
                w' = { w₁ with files := fs₃ } ∧
                ((∃ e, r₃ = .error e ∧ r = .error e ∧ f' = f.close) ∨
                  r₃ = .ok f' ∧ r = .ok { p with dueAt := p.schedule.next (w.now p.clock) })))) := by
  unfold TimedRotation.rollOver at h
  dsimp only at h
  -- The steps run one after the other, so each outcome is taken apart before the next one.
  cases hput : p.putAside f.close (w.now p.clock) w with
  | mk r₁ w₁ =>
    rw [hput] at h
    refine ⟨r₁, w₁, rfl, ?_⟩
    cases r₁ with
    | error e =>
      simp only [Prod.mk.injEq] at h
      exact .inl ⟨e, rfl, h.1.symm, h.2.1.symm, h.2.2.symm⟩
    | ok u =>
      refine .inr ⟨rfl, ?_⟩
      dsimp only at h
      cases hretain : p.retain f.close w₁.files with
      | mk r₂ fs₂ =>
        rw [hretain] at h
        refine ⟨r₂, fs₂, rfl, ?_⟩
        cases r₂ with
        | error e =>
          simp only [Prod.mk.injEq] at h
          exact .inl ⟨e, rfl, h.1.symm, h.2.1.symm, h.2.2.symm⟩
        | ok u =>
          refine .inr ⟨rfl, ?_⟩
          dsimp only at h
          cases hdelay : f.delay with
          | true =>
            -- With a delayed opening the next write reopens the file, and nothing is left to fail.
            rw [if_pos (show f.close.delay = true from hdelay)] at h
            simp only [Prod.mk.injEq] at h
            exact .inl ⟨rfl, h.2.1.symm, h.2.2.symm, h.1.symm⟩
          | false =>
            rw [if_neg (show ¬ f.close.delay = true by simp [close, hdelay])] at h
            refine .inr ⟨rfl, ?_⟩
            cases hreopen : f.close.reopen fs₂ with
            | mk r₃ fs₃ =>
              rw [hreopen] at h
              refine ⟨r₃, fs₃, rfl, ?_⟩
              cases r₃ with
              | error e =>
                simp only [Prod.mk.injEq] at h
                exact ⟨h.2.2.symm, .inl ⟨e, rfl, h.1.symm, h.2.1.symm⟩⟩
              | ok f₃ =>
                simp only [Prod.mk.injEq] at h
                exact ⟨h.2.2.symm, .inr ⟨by rw [h.2.1], h.1.symm⟩⟩

/-- A rollover that does not fail goes through all its steps. -/
theorem rollOver_ok {p' : TimedRotation} (h : p.rollOver f w = (.ok p', f', w')) :
    ∃ w₁ fs₂, p.putAside f.close (w.now p.clock) w = (.ok (), w₁) ∧
      p.retain f.close w₁.files = (.ok (), fs₂) ∧ f.close.Renewed fs₂ f' w'.files ∧
      p' = { p with dueAt := p.schedule.next (w.now p.clock) } := by
  obtain ⟨r₁, w₁, hput, ⟨e, -, heq, -⟩ | ⟨rfl, r₂, fs₂, hretain, hcases⟩⟩ := rollOver_cases h
  · cases heq
  · rcases hcases with ⟨e, -, heq, -⟩ | ⟨rfl, hcases⟩
    · cases heq
    · refine ⟨w₁, fs₂, hput, hretain, ?_⟩
      rcases hcases with ⟨hdelay, rfl, rfl, heq⟩ | ⟨hdelay, r₃, fs₃, hreopen, rfl, hend⟩
      · exact ⟨.inl ⟨hdelay, rfl, rfl⟩, Except.ok.inj heq⟩
      · rcases hend with ⟨e, -, heq, -⟩ | ⟨rfl, heq⟩
        · cases heq
        · exact ⟨.inr ⟨hdelay, hreopen⟩, Except.ok.inj heq⟩

/-- To ask whether a rollover is due at a set time changes the next instant alone. -/
theorem isDue_timed {s : FileSink} (hpolicy : s.policy = .timed p) (text : String) (w : World) :
    s.isDue text w = (.ok (p.isDue s.file w).1,
      { s with policy := .timed (p.isDue s.file w).2 }, w) := by
  unfold FileSink.isDue
  rw [hpolicy]
  rfl

/-- A rollover at a set time sets the next instant if it does not fail. -/
theorem rollOver_timed (s : FileSink) (p : TimedRotation) (w : World) :
    ({ s with policy := .timed p } : FileSink).rollOver w =
      match p.rollOver s.file w with
      | (.error e, f, w) => (.error e, { s with policy := .timed p, file := f }, w)
      | (.ok p', f, w) => (.ok (), { s with policy := .timed p', file := f }, w) := by
  unfold FileSink.rollOver Policy.rollOver
  dsimp only
  rcases p.rollOver s.file w with ⟨r, f, w'⟩
  cases r <;> rfl

/-- **Before a line** of a sink that rolls over at set times: the instant has not come,
    or it is passed over, or there is a rollover. -/
theorem prepare_timed {s s' : FileSink} {text : String} {r : Except LogError Unit}
    (hpolicy : s.policy = .timed p) (h : s.prepare text w = (r, s', w')) :
    (r = .ok () ∧ w' = w ∧ ∃ p', s' = { s with policy := .timed p' } ∧
        ((w.now p.clock < p.dueAt ∧ p' = p) ∨
          p.dueAt ≤ w.now p.clock ∧ w.files.isSpecial s.file.path = true ∧
            p' = { p with dueAt := p.schedule.next (w.now p.clock) })) ∨
      p.dueAt ≤ w.now p.clock ∧ w.files.isSpecial s.file.path = false ∧
        ∃ r₁ f₁, p.rollOver s.file w = (r₁, f₁, w') ∧
          ((∃ e, r₁ = .error e ∧ r = .error e ∧ s' = { s with policy := .timed p, file := f₁ }) ∨
            ∃ p', r₁ = .ok p' ∧ r = .ok () ∧ s' = { s with policy := .timed p', file := f₁ }) := by
  unfold FileSink.prepare at h
  rw [isDue_timed hpolicy] at h
  by_cases hnow : w.now p.clock < p.dueAt
  · have hdue : p.isDue s.file w = (false, p) := by
      rw [TimedRotation.isDue, if_pos hnow]
    rw [hdue] at h
    simp only [Prod.mk.injEq] at h
    exact .inl ⟨h.1.symm, h.2.2.symm, p, h.2.1.symm, .inl ⟨hnow, rfl⟩⟩
  · have hcome : p.dueAt ≤ w.now p.clock := by omega
    cases hspecial : w.files.isSpecial s.file.path with
    | true =>
      have hdue : p.isDue s.file w =
          (false, { p with dueAt := p.schedule.next (w.now p.clock) }) := by
        rw [TimedRotation.isDue, if_neg hnow, if_pos hspecial]
      rw [hdue] at h
      simp only [Prod.mk.injEq] at h
      -- A device is not rolled over; only the due instant moves on.
      exact .inl ⟨h.1.symm, h.2.2.symm, _, h.2.1.symm, .inr ⟨hcome, rfl, rfl⟩⟩
    | false =>
      have hdue : p.isDue s.file w = (true, p) := by
        rw [TimedRotation.isDue, if_neg hnow, if_neg (by simp [hspecial])]
      rw [hdue] at h
      refine .inr ⟨hcome, rfl, ?_⟩
      dsimp only at h
      rw [rollOver_timed s p] at h
      cases hroll : p.rollOver s.file w with
      | mk r₁ rest =>
        obtain ⟨f₁, w₁⟩ := rest
        rw [hroll] at h
        cases r₁ with
        | error e =>
          simp only [Prod.mk.injEq] at h
          exact ⟨_, f₁, by rw [h.2.2], .inl ⟨e, rfl, h.1.symm, h.2.1.symm⟩⟩
        | ok p' =>
          simp only [Prod.mk.injEq] at h
          exact ⟨_, f₁, by rw [h.2.2], .inr ⟨p', rfl, h.1.symm, h.2.1.symm⟩⟩

/-- Without a failure, at a path that leads to an ordinary file, nothing is done before the
    instant has come, and then there is a rollover. -/
theorem prepare_timed_ok {s s' : FileSink} {text : String} (hpolicy : s.policy = .timed p)
    (hordinary : w.files.isSpecial s.file.path = false)
    (h : s.prepare text w = (.ok (), s', w')) :
    (w.now p.clock < p.dueAt ∧ s' = s ∧ w' = w) ∨
      p.dueAt ≤ w.now p.clock ∧ ∃ p' f₁, p.rollOver s.file w = (.ok p', f₁, w') ∧
        s' = { s with policy := .timed p', file := f₁ } := by
  rcases prepare_timed hpolicy h with
    ⟨-, rfl, p', rfl, ⟨hearly, rfl⟩ | ⟨-, hspecial, -⟩⟩ |
    ⟨hdue, -, r₁, f₁, hroll, ⟨e, -, heq, -⟩ | ⟨p', rfl, -, rfl⟩⟩
  · refine .inl ⟨hearly, ?_, rfl⟩
    rw [← hpolicy]
  · rw [hordinary] at hspecial
    cases hspecial
  · cases heq
  · exact .inr ⟨hdue, p', f₁, hroll, rfl⟩

/-! ## The archive of a rollover -/

variable {fs fs' : FileSystem} {path : Path} {front : List Char} {x y k : String} {d : Location}
  {id : FileId} {bytes : List UInt8}

/-- Without a namer the archive has the name of the live file and the time. -/
theorem archivePath_eq (hpath : f.path = path) (hnamer : f.namer? = none) (now : Int) :
    p.archivePath f now =
      ⟨path.text ++ "." ++ p.schedule.archiveSuffix (p.periodStart now)⟩ := by
  subst hpath
  rw [TimedRotation.archivePath, archiveName, hnamer]
  rfl

/-- Without a rotator to put a file aside concerns the files alone. -/
theorem putAside_files (hrotator : f.rotator? = none) (p : TimedRotation) (now : Int) (w : World) :
    p.putAside f now w = ((p.putAside f now { files := w.files }).1,
      { w with files := (p.putAside f now { files := w.files }).2.files }) := by
  unfold TimedRotation.putAside
  dsimp only
  -- Both sides clear the place of the archive by the same call, whatever comes of it.
  generalize (if w.files.exists? (p.archivePath f now) = true then
    (w.files.removeFile (p.archivePath f now)).mapError LogError.system else .ok w.files) = cleared
  cases cleared with
  | error e => rfl
  | ok fs =>
    simp only [LogFile.putAside, hrotator]
    by_cases hthere : fs.exists? f.path = true
    · simp only [hthere, if_true]
    · simp only [if_neg hthere]

/-- A name with a suffix tells the suffix. -/
theorem suffix_inj {k' : String} : x ++ "." ++ k = x ++ "." ++ k' ↔ k = k' := by
  constructor
  · intro h
    have hlist := congrArg String.toList h
    simp only [String.toList_append] at hlist
    exact String.toList_inj.mp (List.append_cancel_left hlist)
  · rintro rfl
    rfl

/-- A name with a suffix is another name. -/
theorem suffix_ne (x k : String) : x ++ "." ++ k ≠ x := by
  intro h
  have hlen := congrArg (fun s => s.toList.length) h
  simp at hlen

/-- **Spares**: in a tree that stays well-formed the data of files and all entries are as
    they were, but for two names, whatever their directory. -/
structure Spares (x z : String) (fs fs' : FileSystem) : Prop where
  wellFormed : fs'.WellFormed
  data : fs'.data = fs.data
  entry : ∀ {d y e}, y ≠ x → y ≠ z → fs.entryAt? (d ++ [y]) = some e →
    fs'.entryAt? (d ++ [y]) = some e

namespace Spares

variable {z : String}

theorem refl (h : fs.WellFormed) (x z : String) : Spares x z fs fs := ⟨h, rfl, fun _ _ he => he⟩

theorem trans {fs'' : FileSystem} (h : Spares x z fs fs') (h' : Spares x z fs' fs'') :
    Spares x z fs fs'' :=
  ⟨h'.wellFormed, h'.data.trans h.data, fun hx hz he => h'.entry hx hz (h.entry hx hz he)⟩

/-- A name that is taken away. -/
theorem take (hwf : fs.WellFormed) {e : Entry} (he : fs.entryAt? (d ++ [z]) = some e)
    (hfile : ∀ id, e ≠ .directory id) (x : String) : Spares x z fs (fs.take (d ++ [z])) := by
  refine ⟨hwf.take (isDirectoryAt_eq_false he hfile), rfl, fun {d' y a} _ hyz ha => ?_⟩
  have hne : d' ++ [y] ≠ d ++ [z] := by
    intro heq
    have hlast := (List.append_inj' heq rfl).2
    exact hyz (by simpa using hlast)
  rw [entryAt?_take (child_ne_nil d z), if_neg hne, ha]

/-- A file that is moved from one name to the other. -/
theorem move (hwf : fs.WellFormed) (hd : fs.isDirectoryAt d = true)
    (hs : fs.isDirectoryAt (d ++ [x]) = false) (ht : fs.isDirectoryAt (d ++ [z]) = false) :
    Spares x z fs (fs.move (d ++ [x]) (d ++ [z])) := by
  refine ⟨hwf.move hd hs ht, rfl, fun {d' y a} hyx hyz ha => ?_⟩
  have hne : ∀ {v : String}, y ≠ v → d' ++ [y] ≠ d ++ [v] := by
    intro v hv heq
    have hlast := (List.append_inj' heq rfl).2
    exact hv (by simpa using hlast)
  -- No file has anything below it.
  rw [entryAt?_move_elsewhere (hwf.not_below hs ha (hne hyx)) (hwf.not_below ht ha (hne hyz)), ha]

end Spares

/-! ## Putting the live file aside -/

/-- A file is renamed at once or after what has the other name has been removed, or not
    at all. -/
theorem renameReplacing_cases {q q' : Path} {r : Except LogError Unit}
    (h : fs.renameReplacing q q' = (r, fs')) :
    ∃ gs, (gs = fs ∨ fs.removeFile q' = .ok gs) ∧
      ((∃ e, r = .error e ∧ fs' = gs) ∨ r = .ok () ∧ gs.rename q q' = .ok fs') := by
  unfold FileSystem.renameReplacing at h
  cases hfirst : fs.rename q q' with
  | ok fs₁ =>
    rw [hfirst] at h
    obtain ⟨rfl, rfl⟩ := Prod.mk.inj h
    exact ⟨fs, .inl rfl, .inr ⟨rfl, hfirst⟩⟩
  | error e =>
    rw [hfirst] at h
    dsimp only at h
    -- A failed removal is not reported; the second attempt to rename tells the error.
    generalize hgs : ite (fs.exists? q' = true) _ fs = gs at h
    refine ⟨gs, ?_, ?_⟩
    · split at hgs
      · split at hgs
        · next hremove => exact .inr (hgs ▸ hremove)
        · exact .inl hgs.symm
      · exact .inl hgs.symm
    · cases hagain : gs.rename q q' with
      | ok gs' =>
        rw [hagain] at h
        obtain ⟨rfl, rfl⟩ := Prod.mk.inj h
        exact .inr ⟨rfl, rfl⟩
      | error e =>
        rw [hagain] at h
        obtain ⟨rfl, rfl⟩ := Prod.mk.inj h
        exact .inl ⟨_, rfl, rfl⟩

/-- **Narrows**: what has the name of the archive may have been removed, and nothing
    else is different. -/
structure Narrows (x z : String) (fs fs' : FileSystem) : Prop where
  spares : Spares x z fs fs'
  covers : fs.Covers fs'
  live : ∀ {d e}, fs'.entryAt? (d ++ [x]) = some e → fs.entryAt? (d ++ [x]) = some e

theorem Narrows.refl (h : fs.WellFormed) (x z : String) : Narrows x z fs fs :=
  ⟨.refl h x z, .refl fs, id⟩

/-- What has the name of the archive is removed. -/
theorem Narrows.removeFile {gs : FileSystem} {q : Path} {z : String} (h : Narrows x z fs gs)
    (hq : q.Splits front z) (hok : gs.removeFile q = .ok fs') : Narrows x z fs fs' := by
  obtain ⟨d, e, -, -, hentry, hfile, rfl⟩ := removeFile_of_splits hq hok
  refine ⟨h.spares.trans (.take h.spares.wellFormed hentry hfile x),
    h.covers.trans (covers_take gs d z), fun {d' a} ha => h.live ?_⟩
  rw [entryAt?_take (child_ne_nil d z)] at ha
  split at ha
  · cases ha
  · exact ha

/-- What is renamed is the live file, if nothing special has its path. -/
theorem Narrows.rename {gs : FileSystem} (h : Narrows x (x ++ "." ++ k) gs fs)
    (hsplits : path.Splits front x) (hk : '/' ∉ k.toList) (hnull : '\x00' ∉ k.toList)
    (hspecial : gs.isSpecial path = false)
    (hok : fs.rename path ⟨path.text ++ "." ++ k⟩ = .ok fs') :
    Spares x (x ++ "." ++ k) gs fs' := by
  obtain ⟨old, new, -, -, hold, hnew, -⟩ := rename_cases hok
  obtain ⟨d, hleads, -⟩ := edge_of_splits hsplits hold
  obtain ⟨d', hleads', -⟩ := edge_of_splits (hsplits.suffix hk) hnew
  -- Both paths have the same way.
  obtain ⟨-, hlen, -⟩ := ending_cases hnew
  obtain ⟨rfl, -⟩ := (hleads.suffix hk hnull).unique hleads' hlen
  obtain ⟨e, hshown, -, htarget, rfl⟩ := hleads.rename hleads' (suffix_ne x k).symm hok
  obtain ⟨hfits, hentry⟩ := shown_eq_some_iff.mp hshown
  have hshown' : gs.shown path d' x = some e := shown_eq_some_iff.mpr ⟨hfits, h.live hentry⟩
  have hfile : ∀ id, e ≠ .directory id := by
    rintro id rfl
    simp [isSpecial, (hleads.mono h.covers).status_of_some hshown' (.inl rfl)] at hspecial
  exact h.spares.trans (.move h.spares.wellFormed hleads.directory
    (isDirectoryAt_eq_false hentry hfile) (htarget hfile))

/-- **Putting aside** concerns the live file and the name of its archive alone. -/
theorem putAside_spares {r : Except LogError Unit} {now : Int} (hwf : w.files.WellFormed)
    (hsplits : f.path.Splits front x) (hnamer : f.namer? = none) (hrotator : f.rotator? = none)
    (hsuffix : p.schedule.archiveSuffix (p.periodStart now) = k) (hk : '/' ∉ k.toList)
    (hnull : '\x00' ∉ k.toList) (hspecial : w.files.isSpecial f.path = false)
    (h : p.putAside f now w = (r, w')) : Spares x (x ++ "." ++ k) w.files w'.files := by
  have hq := hsplits.suffix hk
  unfold TimedRotation.putAside at h
  rw [archivePath_eq rfl hnamer, hsuffix] at h
  dsimp only at h
  split at h
  · obtain ⟨-, rfl⟩ := Prod.mk.inj h
    exact .refl hwf _ _
  · next fs₁ hcleared =>
    -- The name of the archive is free, or it has been made so.
    have hnarrows₁ : Narrows x (x ++ "." ++ k) w.files fs₁ := by
      split at hcleared
      · cases hremove : w.files.removeFile ⟨f.path.text ++ "." ++ k⟩ with
        | error e =>
          rw [hremove] at hcleared
          cases hcleared
        | ok gs =>
          rw [hremove] at hcleared
          obtain rfl := Except.ok.inj hcleared
          exact (Narrows.refl hwf _ _).removeFile hq hremove
      · obtain rfl := Except.ok.inj hcleared
        exact .refl hwf _ _
    simp only [LogFile.putAside, hrotator] at h
    split at h
    · cases hrename : fs₁.renameReplacing f.path ⟨f.path.text ++ "." ++ k⟩ with
      | mk r₂ fs₂ =>
        rw [hrename] at h
        obtain ⟨-, rfl⟩ := Prod.mk.inj h
        obtain ⟨gs, hgs, hend⟩ := renameReplacing_cases hrename
        have hnarrows : Narrows x (x ++ "." ++ k) w.files gs := by
          rcases hgs with rfl | hremove
          · exact hnarrows₁
          · exact hnarrows₁.removeFile hq hremove
        rcases hend with ⟨e, -, rfl⟩ | ⟨-, hok⟩
        · exact hnarrows.spares
        · exact hnarrows.rename hsplits hk hnull hspecial hok
    · obtain ⟨-, rfl⟩ := Prod.mk.inj h
      exact hnarrows₁.spares

/-! ## Files that stay -/

/-- **Holds**: a location has the file of an identity, and the file holds these bytes and
    perhaps more. -/
structure Holds (l : Location) (id : FileId) (bytes : List UInt8) (fs : FileSystem) : Prop where
  entry : fs.entryAt? l = some (.file id)
  content : bytes <+: fs.contentOf id

/-- **Crowded**: archives are removed at all, and as many as are to be kept have greater
    names than the one of a location, in the same directory. -/
def Crowded (unit : Period) (base : String) (keep : Nat) (l : Location) (fs : FileSystem) : Prop :=
  0 < keep ∧ ∃ d y, ∃ zs : List String, l = d ++ [y] ∧ zs.Nodup ∧ keep ≤ zs.length ∧
    ∀ z ∈ zs, y < z ∧ isArchiveName unit base z = true ∧ z ∈ fs.childNames d

variable {l : Location} {unit : Period} {base : String} {keep : Nat}

theorem Holds.keeps (h : Holds l id bytes fs) (hkeeps : fs.Keeps fs') : Holds l id bytes fs' :=
  ⟨hkeeps.entry h.entry, h.content.trans (hkeeps.content id)⟩

theorem Crowded.keeps (h : Crowded unit base keep l fs) (hkeeps : fs.Keeps fs') :
    Crowded unit base keep l fs' := by
  obtain ⟨hpos, d, y, zs, hl, hnodup, hlen, hzs⟩ := h
  refine ⟨hpos, d, y, zs, hl, hnodup, hlen, fun z hz => ?_⟩
  obtain ⟨hlt, hname, hmem⟩ := hzs z hz
  exact ⟨hlt, hname, hkeeps.childName hmem⟩

/-- The data of files are as they were, and the entry is. -/
theorem Holds.congr (h : Holds l id bytes fs) (hdata : fs'.data = fs.data)
    (hentry : fs'.entryAt? l = some (.file id)) : Holds l id bytes fs' := by
  refine ⟨hentry, ?_⟩
  rw [contentOf, hdata]
  exact h.content

/-- **Retention** removes nothing but archives that leave enough greater ones behind. -/
theorem retain_spares {r : Except LogError Unit} (hwf : fs.WellFormed)
    (h : p.retain f fs = (r, fs')) :
    fs'.WellFormed ∧ fs'.data = fs.data ∧ ∀ {l e}, fs.entryAt? l = some e →
      fs'.entryAt? l = some e ∨
        Crowded p.schedule.unit (f.path.fileName?.getD "") p.backups l fs' := by
  rcases retain_cases h with ⟨-, -, rfl⟩ | ⟨e, -, rfl⟩ | ⟨hpos, d, i, -, ys, hinit, -, rfl, hfile⟩
  · exact ⟨hwf, rfl, fun he => .inl he⟩
  · exact ⟨hwf, rfl, fun he => .inl he⟩
  · refine ⟨hwf.takeAll hfile, data_takeAll _ _ _, fun {l e} he => ?_⟩
    by_cases hl : ∃ y ∈ ys, l = d ++ [y]
    · -- All the names that are not surplus are greater, and stay.
      right
      obtain ⟨y, hy, rfl⟩ := hl
      have hsorted : (archivesAmong p.schedule.unit (f.path.fileName?.getD "")
          (fs.childNames d)).Pairwise (· < ·) := archivesAmong_sorted (hwf.nodup_childNames d)
      generalize harchives : archivesAmong p.schedule.unit (f.path.fileName?.getD "")
        (fs.childNames d) = archives at hinit hsorted
      have hsurplus := hinit.subset hy
      have hmany : p.backups < archives.length := by
        by_contra hfew
        have hzero : archives.length - p.backups = 0 := by omega
        rw [allButLast, hzero, List.take_zero] at hsurplus
        cases hsurplus
      refine ⟨by omega, d, y, archives.drop (archives.length - p.backups), rfl, ?_, ?_, fun z hz => ?_⟩
      · exact (hsorted.imp fun hab => ne_of_lt hab).sublist (List.drop_sublist _ _)
      · rw [List.length_drop]
        omega
      · have hmem := List.mem_of_mem_drop hz
        rw [← harchives] at hmem
        obtain ⟨hchild, hname⟩ := mem_archivesAmong.mp hmem
        refine ⟨lt_of_surplus hsorted hsurplus hz, hname, ?_⟩
        obtain ⟨a, ha⟩ := mem_childNames_iff.mp hchild
        refine mem_childNames_iff.mpr ⟨a, ?_⟩
        rw [entryAt?_takeAll, if_neg, ha]
        rintro ⟨v, hv, heq⟩
        obtain rfl := child_inj.mp heq
        exact lt_irrefl _ (lt_of_surplus hsorted (hinit.subset hv) hz)
    · left
      rw [entryAt?_takeAll, if_neg hl, he]

/-- **After the live file has been put aside** a file stays, or leaves as many archives
    as are to be kept with greater names behind. -/
theorem rollOver_after {r : Except LogError TimedRotation} (happends : f.Appends)
    (hput : p.putAside f.close (w.now p.clock) w = (.ok (), w₁)) (hwf : w₁.files.WellFormed)
    (h : p.rollOver f w = (r, f', w')) :
    w'.files.WellFormed ∧ ∀ {l id bytes}, Holds l id bytes w₁.files →
      Holds l id bytes w'.files ∨
        Crowded p.schedule.unit (f.path.fileName?.getD "") p.backups l w'.files := by
  obtain ⟨r₁, w₁', hput', hcases⟩ := rollOver_cases h
  rw [hput] at hput'
  obtain ⟨rfl, rfl⟩ := Prod.mk.inj hput'
  rcases hcases with ⟨e, heq, -⟩ | ⟨-, r₂, fs₂, hretain, hcases⟩
  · cases heq
  · obtain ⟨hwf₂, hdata₂, hstays⟩ := retain_spares hwf hretain
    have hkept : ∀ {l id bytes}, Holds l id bytes w₁.files → Holds l id bytes fs₂ ∨
        Crowded p.schedule.unit (f.path.fileName?.getD "") p.backups l fs₂ := by
      intro l id bytes hholds
      exact (hstays hholds.entry).imp (hholds.congr hdata₂) fun hc => hc
    rcases hcases with ⟨e, -, -, -, rfl⟩ | ⟨-, ⟨-, -, rfl, -⟩ | ⟨-, r₃, fs₃, hreopen, rfl, -⟩⟩
    · exact ⟨hwf₂, hkept⟩
    · exact ⟨hwf₂, hkept⟩
    · -- The new file takes nobody's place.
      obtain ⟨hkeeps, -⟩ := reopen_keeps happends.close hreopen
      refine ⟨hkeeps.wellFormed hwf₂, fun {l id bytes} hholds => ?_⟩
      exact (hkept hholds).imp (fun hh => hh.keeps hkeeps) fun hc => hc.keeps hkeeps

/-- The settings of a live file are the same after a rollover. -/
theorem rollOver_settings {r : Except LogError TimedRotation} (happends : f.Appends)
    (h : p.rollOver f w = (r, f', w')) : f'.Appends ∧ f.SameSettings f' := by
  -- Only a reopened file is not the closed one, and `reopen_keeps` has its settings.
  obtain ⟨r₁, w₁, -, hcases⟩ := rollOver_cases h
  have hclosed : f.close.Appends ∧ f.SameSettings f.close := ⟨happends.close, .close f⟩
  rcases hcases with ⟨e, -, -, rfl, -⟩ | ⟨-, r₂, fs₂, -, hcases⟩
  · exact hclosed
  · rcases hcases with ⟨e, -, -, rfl, -⟩ | ⟨-, ⟨-, rfl, -⟩ | ⟨-, r₃, fs₃, hreopen, -, hcases⟩⟩
    · exact hclosed
    · exact hclosed
    · rcases hcases with ⟨e, -, -, rfl⟩ | ⟨rfl, -⟩
      · exact hclosed
      · obtain ⟨-, hopened⟩ := reopen_keeps happends.close hreopen
        obtain ⟨happends', hsettings⟩ := hopened f' rfl
        exact ⟨happends', hclosed.2.trans hsettings⟩

/-- A rollover without a failure sets the next instant. -/
theorem rollOver_next {p' : TimedRotation} (h : p.rollOver f w = (.ok p', f', w')) :
    p' = { p with dueAt := p.schedule.next (w.now p.clock) } := by
  obtain ⟨w₁, fs₂, -, -, -, hnext⟩ := rollOver_ok h
  exact hnext

/-- **A rollover**, wherever it stops, loses no file but the live one, the one whose name
    the archive takes, and archives that leave enough greater ones behind. -/
theorem rollOver_spares {r : Except LogError TimedRotation} (hwf : w.files.WellFormed)
    (happends : f.Appends) (hsplits : f.path.Splits front x) (hnamer : f.namer? = none)
    (hrotator : f.rotator? = none)
    (hsuffix : p.schedule.archiveSuffix (p.periodStart (w.now p.clock)) = k)
    (hk : '/' ∉ k.toList) (hnull : '\x00' ∉ k.toList) (hspecial : w.files.isSpecial f.path = false)
    (h : p.rollOver f w = (r, f', w')) :
    w'.files.WellFormed ∧ ∀ {d y id bytes}, y ≠ x → y ≠ x ++ "." ++ k →
      Holds (d ++ [y]) id bytes w.files → Holds (d ++ [y]) id bytes w'.files ∨
        Crowded p.schedule.unit (f.path.fileName?.getD "") p.backups (d ++ [y]) w'.files := by
  obtain ⟨r₁, w₁, hput, hcases⟩ := rollOver_cases h
  have hspares : Spares x (x ++ "." ++ k) w.files w₁.files :=
    putAside_spares (f := f.close) hwf hsplits hnamer hrotator hsuffix hk hnull hspecial hput
  have hstays : ∀ {d y id bytes}, y ≠ x → y ≠ x ++ "." ++ k → Holds (d ++ [y]) id bytes w.files →
      Holds (d ++ [y]) id bytes w₁.files := fun hyx hyk hholds =>
    hholds.congr hspares.data (hspares.entry hyx hyk hholds.entry)
  -- A failure before retention leaves what `putAside_spares` gives, and removes no archive.
  cases r₁ with
  | error e =>
    rcases hcases with ⟨-, -, -, -, rfl⟩ | ⟨heq, -⟩
    · exact ⟨hspares.wellFormed, fun hyx hyk hholds => .inl (hstays hyx hyk hholds)⟩
    · cases heq
  | ok u =>
    obtain ⟨hwf', hafter⟩ := rollOver_after happends hput hspares.wellFormed h
    exact ⟨hwf', fun hyx hyk hholds => hafter (hstays hyx hyk hholds)⟩

end Rotation

end Logbook
