import Logbook.Proofs.Rotation.ArchivesKept
import Logbook.Proofs.Rotation.Backups
import Logbook.Proofs.Rotation.Stock

/-! # Archives one after the other

    A sink that rolls over at set times, alone in its directory, makes one archive after
    the other as long as nothing fails.  Each has a greater name than those before, so its
    name is free when it is made and retention takes the oldest away.  What the archives
    and the live file hold, in the order of names, is what was written, but for archives
    that retention has removed.

    What carries the induction is that the instant that is due next was computed from an
    earlier one: the period that ends then begins later, in the unit of the names, than
    those of all archives so far.
-/

namespace Logbook

open FileSystem LogFile
open Time (daySeconds)

namespace FileSystem

variable {fs : FileSystem} {path : Path} {d : Location} {x : String}

/-- The archives of a live file are in the directory that its path leads to. -/
theorem Leads.find_archiveDirectory (h : fs.Leads path d x) (hlen : checkLength path = .ok ()) :
    ∃ i, fs.find true (Rotation.archiveDirectory path) = .ok (d, .directory i) := by
  rcases h.parent hlen with ⟨hparent, rfl⟩ | ⟨dir, m, hparent, hne, hnull, hdirlen, hway⟩
  · -- A bare name is one of the working directory.
    have hdot : Rotation.archiveDirectory path = ⟨"."⟩ := by
      rw [Rotation.archiveDirectory, hparent]
      rfl
    have hway : fs.Way linkLimit [] (⟨"."⟩ : Path).turns [] linkLimit := .turn rfl rfl .nil
    rw [hdot]
    exact find_directory rfl rfl hway rfl
  · have hdir : Rotation.archiveDirectory path = dir := by
      rw [Rotation.archiveDirectory, hparent]
      dsimp only
      rw [if_neg]
      intro hempty
      exact hne (by simpa using hempty)
    rw [hdir]
    exact find_directory hnull hdirlen hway h.directory

/-- A live file that is the only one of its own names in its directory has a way there that
    uses none of these names. -/
theorem site_of_sole {own : String → Bool} (hwf : fs.WellFormed) (hsound : fs.Sound)
    (hedge : fs.edge path = .ok ⟨d, .name x, false⟩) (hplain : fs.PlainAt (d ++ [x]))
    (hsole : ∀ y ∈ fs.childNames d, own y = true → y = x) : Site path d x own fs := by
  obtain ⟨hleads, hlen⟩ := leads_of_edge hedge
  -- Neither a directory nor a link has an own name or is below one.
  have hfree : ∀ {l e}, fs.entryAt? l = some e → (∀ id, e ≠ .file id) → owned d own l = false := by
    intro l e he hfile
    rw [Bool.eq_false_iff]
    intro howned
    obtain ⟨y, r, hy, rfl⟩ := owned_iff.mp howned
    have hplace : ∀ {a}, fs.entryAt? (d ++ [y]) = some a → ∃ id, a = .file id := by
      intro a ha
      obtain rfl := hsole y (mem_childNames_iff.mpr ⟨a, ha⟩) hy
      exact hplain a ha
    by_cases hr : r = []
    · subst hr
      obtain ⟨id, hid⟩ := hplace he
      exact hfile id hid
    · have hdir := hwf.isDirectoryAt_of_below (l := d ++ [y]) hr (by simpa using he)
      obtain ⟨i, hi⟩ := isDirectoryAt_iff.mp hdir
      obtain ⟨id, hid⟩ := hplace hi
      cases hid
  have hentry : ∀ {l e}, fs.entryAt? l = some e → (∀ id, e ≠ .file id) →
      (fs.without d own).entryAt? l = some e := by
    intro l e he hfile
    rw [entryAt?_without, hfree he hfile]
    exact he
  refine ⟨hsound, hleads.mono ⟨?_, ?_⟩, hlen, hplain⟩
  · intro l hdir
    obtain ⟨i, hi⟩ := isDirectoryAt_iff.mp hdir
    exact isDirectoryAt_iff.mpr ⟨i, hentry hi (by simp)⟩
  · intro l t ht
    exact hentry ht (by simp)

/-- A live file that is alone in its directory has a way there that uses none of the names
    in it. -/
theorem site_of_alone (hwf : fs.WellFormed) (hsound : fs.Sound)
    (hedge : fs.edge path = .ok ⟨d, .name x, false⟩) (hplain : fs.PlainAt (d ++ [x]))
    (halone : ∀ y ∈ fs.childNames d, y = x) (own : String → Bool) : Site path d x own fs :=
  site_of_sole hwf hsound hedge hplain fun y hy _ => halone y hy

/-- A live file stays where it is when own names are taken away. -/
theorem Site.takeAll {own : String → Bool} {ys : List String} (h : Site path d x own fs)
    (hys : ∀ y ∈ ys, own y = true) : Site path d x own (fs.takeAll d ys) := by
  have hsame : SameOutside d own fs (fs.takeAll d ys) := by
    refine takeAll_induction (P := SameOutside d own fs) d _ ?_ (.refl _ _ _)
    intro gs y hy hgs
    exact hgs.trans (.take gs (hys y hy))
  refine h.congr hsame (h.sound.takeAll d _) ?_
  intro e he
  rw [entryAt?_takeAll_child] at he
  split at he
  · cases he
  · exact h.plain e he

end FileSystem

namespace Rotation

variable {p : TimedRotation} {f f' : LogFile} {w w' : World} {fs fs' : FileSystem} {path : Path}
  {d : Location} {x k : String} {archives : List Archive} {unit : Period}

/-! ## The steps of a rollover -/

/-- The live file and what has the name of an archive of it. -/
def ownName (unit : Period) (x y : String) : Bool := decide (y = x) || isArchiveName unit x y

theorem ownName_self (unit : Period) (x : String) : ownName unit x x = true := by simp [ownName]

theorem ownName_archive {y : String} (h : isArchiveName unit x y = true) :
    ownName unit x y = true := by simp [ownName, h]

/-- A greater name than those of all archives is free. -/
theorem Stock.free (h : Stock unit d x archives fs) {z : String}
    (hname : isArchiveName unit x z = true) (hgreater : ∀ a ∈ archives, a.name < z) :
    fs.entryAt? (d ++ [z]) = none := by
  rw [← Option.not_isSome_iff_eq_none, Option.isSome_iff_exists, ← mem_childNames_iff]
  intro hz
  obtain ⟨a, ha, rfl⟩ := List.mem_map.mp (h.mem_names.mpr ⟨hz, hname⟩)
  exact lt_irrefl _ (hgreater a ha)

/-- A free name is that of nothing. -/
theorem not_exists_of_free {q : Path} {z : String} (hq : fs.Leads q d z)
    (hfree : fs.entryAt? (d ++ [z]) = none) : fs.exists? q = false := by
  rw [Bool.eq_false_iff]
  intro hexists
  obtain ⟨e, he⟩ := hq.shown_of_exists hexists
  rw [(shown_eq_some_iff.mp he).2] at hfree
  cases hfree

/-- The archive that is made of a live file: none if there is no such file. -/
def madeOf (fs : FileSystem) (path : Path) (z : String) : List Archive :=
  (fs.regular? path).toList.map (Archive.mk z)

theorem name_of_madeOf {z : String} {a : Archive} (h : a ∈ madeOf fs path z) : a.name = z := by
  obtain ⟨bytes, -, rfl⟩ := List.mem_map.mp h
  rfl

/-- At most one archive is made. -/
theorem pairwise_madeOf (fs : FileSystem) (path : Path) (z : String) :
    ((madeOf fs path z).map Archive.name).Pairwise (· < ·) := by
  unfold madeOf
  cases fs.regular? path with
  | none => exact List.Pairwise.nil
  | some bytes => exact List.pairwise_singleton _ _

/-- **The live file is moved** to a name that was free, if there is one. -/
theorem putAside_free {now : Int} (hpath : f.path = path) (hnamer : f.namer? = none)
    (hrotator : f.rotator? = none) (hleads : w.files.Leads path d x)
    (hplain : w.files.PlainAt (d ++ [x]))
    (hsuffix : p.schedule.archiveSuffix (p.periodStart now) = k) (hslash : '/' ∉ k.toList)
    (hnull : '\x00' ∉ k.toList) (hfree : w.files.entryAt? (d ++ [x ++ "." ++ k]) = none)
    (h : p.putAside f now w = (.ok (), w')) :
    w.files.exists? path = false ∧ w' = w ∨
      ∃ id, w.files.shown path d x = some (.file id) ∧
        w' = { w with files := w.files.move (d ++ [x]) (d ++ [x ++ "." ++ k]) } := by
  have hq := hleads.suffix hslash hnull
  -- The name of the archive need not be made free.
  unfold TimedRotation.putAside at h
  rw [archivePath_eq hpath hnamer, hsuffix] at h
  dsimp only at h
  rw [not_exists_of_free hq hfree] at h
  simp only [Bool.false_eq_true, if_false, LogFile.putAside, hrotator, hpath] at h
  split at h
  · next hexists =>
    obtain ⟨e, hshown⟩ := hleads.shown_of_exists hexists
    obtain ⟨id, rfl⟩ := hplain e (shown_eq_some_iff.mp hshown).2
    cases hrename : w.files.renameReplacing path ⟨path.text ++ "." ++ k⟩ with
    | mk r₁ fs₁ =>
    rw [hrename] at h
    obtain ⟨rfl, rfl⟩ := Prod.mk.inj h
    obtain ⟨gs, hgs, ⟨e, herror, -⟩ | ⟨-, hok⟩⟩ := renameReplacing_cases hrename
    · cases herror
    · -- There was nothing to remove before a second attempt.
      obtain rfl : gs = w.files := by
        rcases hgs with hsame | hremove
        · exact hsame
        · obtain ⟨e, he, -⟩ := hq.removeFile hremove
          rw [(shown_eq_some_iff.mp he).2] at hfree
          cases hfree
      obtain ⟨-, -, -, -, hmove⟩ := hleads.rename hq (suffix_ne x k).symm hok
      exact .inr ⟨id, hshown, by rw [hmove]⟩
  · next hexists =>
    obtain ⟨-, rfl⟩ := Prod.mk.inj h
    exact .inl ⟨by simpa using hexists, rfl⟩

/-- A live file that has been moved to an own name is gone from its place. -/
theorem site_of_move {own : String → Bool} {z : String} (hsite : Site path d x own fs)
    (hx : own x = true) (hz : own z = true) (hne : x ≠ z) :
    Site path d x own (fs.move (d ++ [x]) (d ++ [z])) ∧
      (fs.move (d ++ [x]) (d ++ [z])).entryAt? (d ++ [x]) = none := by
  have hgone : (fs.move (d ++ [x]) (d ++ [z])).entryAt? (d ++ [x]) = none := by
    rw [entryAt?_move_child _ hne, if_neg hne, if_pos rfl]
  refine ⟨hsite.congr (.move _ hx hz) (hsite.sound.move _ _) ?_, hgone⟩
  intro e he
  rw [hgone] at he
  cases he

/-- **The live file is put aside**: it becomes the newest archive, under a name that was
    free, if there is one. -/
theorem putAside_stock {now : Int} (hpath : f.path = path) (hnamer : f.namer? = none)
    (hrotator : f.rotator? = none)
    (hsite : Site path d x (ownName p.schedule.unit x) w.files)
    (hstock : Stock p.schedule.unit d x archives w.files)
    (hsuffix : p.schedule.archiveSuffix (p.periodStart now) = k) (hslash : '/' ∉ k.toList)
    (hnull : '\x00' ∉ k.toList) (hname : isArchiveName p.schedule.unit x (x ++ "." ++ k) = true)
    (hgreater : ∀ a ∈ archives, a.name < x ++ "." ++ k)
    (h : p.putAside f now w = (.ok (), w')) :
    Site path d x (ownName p.schedule.unit x) w'.files ∧
      Stock p.schedule.unit d x (archives ++ madeOf w.files path (x ++ "." ++ k)) w'.files ∧
      (madeOf w.files path (x ++ "." ++ k)).flatMap Archive.bytes ++ w'.files.bytesAt (d ++ [x]) =
        w.files.bytesAt (d ++ [x]) := by
  rcases putAside_free hpath hnamer hrotator hsite.leads hsite.plain hsuffix hslash hnull
    (hstock.free hname hgreater) h with ⟨hnone, rfl⟩ | ⟨id, hshown, rfl⟩
  · -- Without a live file there is nothing to make an archive of.
    have hmade : madeOf w'.files path (x ++ "." ++ k) = [] := by
      rw [madeOf, hsite.leads.regular?_of_not_exists hnone]
      rfl
    rw [hmade, List.append_nil]
    exact ⟨hsite, hstock, rfl⟩
  · -- What the live file held is in the archive now, and nothing is left in its place.
    have hentry := (shown_eq_some_iff.mp hshown).2
    have hmade : madeOf w.files path (x ++ "." ++ k) = [⟨x ++ "." ++ k, w.files.contentOf id⟩] := by
      rw [madeOf, hsite.leads.regular?_of_file hshown, bytesAt_of_file hentry]
      rfl
    obtain ⟨hsite', hgone⟩ :=
      site_of_move hsite (ownName_self _ x) (ownName_archive hname) (suffix_ne x k).symm
    refine ⟨hsite', ?_, ?_⟩
    · rw [hmade]
      exact hstock.move hentry hname hgreater
    · rw [hmade, bytesAt_of_none hgone, bytesAt_of_file hentry]
      simp

/-- What retention removes if it does not fail: all archives in the directory of the live
    file but the last, in the order of their names. -/
theorem retain_removes (hpath : f.path = path) (hleads : fs.Leads path d x)
    (hlen : checkLength path = .ok ()) (h : p.retain f fs = (.ok (), fs')) :
    p.backups = 0 ∧ fs' = fs ∨ p.backups ≠ 0 ∧ fs' = fs.takeAll d
      (allButLast p.backups (archivesAmong p.schedule.unit x (fs.childNames d))) := by
  rcases retain_cases h with ⟨hzero, -, rfl⟩ | ⟨e, heq, -⟩ | ⟨hpos, d', i, hfind, ys, -, hall, rfl, -⟩
  · exact .inl ⟨hzero, rfl⟩
  · cases heq
  · -- The directory that is listed is that of the live file.
    obtain ⟨i', hfind'⟩ := hleads.find_archiveDirectory hlen
    rw [hpath, hfind'] at hfind
    obtain ⟨rfl, -⟩ := Prod.mk.inj (Except.ok.inj hfind)
    obtain ⟨front, m, hsplits, -⟩ := hleads.way
    have hnames := hall rfl
    rw [hpath, hsplits.fileName?, Option.getD_some] at hnames
    exact .inr ⟨hpos, by rw [hnames]⟩

/-- **Retention** leaves the newest archives and the live file. -/
theorem retain_stock (hpath : f.path = path)
    (hsite : Site path d x (ownName p.schedule.unit x) fs)
    (hstock : Stock p.schedule.unit d x archives fs) (h : p.retain f fs = (.ok (), fs')) :
    Site path d x (ownName p.schedule.unit x) fs' ∧
      Stock p.schedule.unit d x (newest p.backups archives) fs' ∧
      fs'.bytesAt (d ++ [x]) = fs.bytesAt (d ++ [x]) := by
  rcases retain_removes hpath hsite.leads hsite.length h with ⟨hzero, rfl⟩ | ⟨hpos, rfl⟩
  · rw [hzero, newest_zero]
    exact ⟨hsite, hstock, rfl⟩
  · rw [hstock.names]
    have hold : ∀ y ∈ allButLast p.backups (archives.map Archive.name),
        isArchiveName p.schedule.unit x y = true := by
      intro y hy
      exact (hstock.mem_names.mp (List.mem_of_mem_take hy)).2
    -- The live file has no name of an archive, so it is not among those that go.
    have hlive := entryAt?_takeAll_child fs d (allButLast p.backups (archives.map Archive.name)) x
    rw [if_neg fun hx => ne_of_isArchiveName (hold x hx) rfl] at hlive
    refine ⟨hsite.takeAll fun y hy => ownName_archive (hold y hy), hstock.takeAll hpos, ?_⟩
    exact bytesAt_congr hlive fun id _ => by rw [contentOf, contentOf, data_takeAll]

/-- **A rollover** that does not fail makes an archive of the live file, if there is one,
    and leaves the newest archives and an empty live file, or none. -/
theorem rollOver_stock {p' : TimedRotation} {z : String} (hpath : f.path = path)
    (hnamer : f.namer? = none) (hrotator : f.rotator? = none) (htracks : f.Tracks d x w.files)
    (hsite : Site path d x (ownName p.schedule.unit x) w.files)
    (hstock : Stock p.schedule.unit d x archives w.files)
    (hsuffix : p.schedule.archiveSuffix (p.periodStart (w.now p.clock)) = k)
    (hslash : '/' ∉ k.toList) (hnull : '\x00' ∉ k.toList) (hz : x ++ "." ++ k = z)
    (hname : isArchiveName p.schedule.unit x z = true) (hgreater : ∀ a ∈ archives, a.name < z)
    (h : p.rollOver f w = (.ok p', f', w')) :
    f.SameSettings f' ∧ f'.Tracks d x w'.files ∧
      Site path d x (ownName p.schedule.unit x) w'.files ∧
      Stock p.schedule.unit d x (newest p.backups (archives ++ madeOf w.files path z)) w'.files ∧
      (madeOf w.files path z).flatMap Archive.bytes ++ w'.files.bytesAt (d ++ [x]) =
        w.files.bytesAt (d ++ [x]) := by
  subst hz
  obtain ⟨w₁, fs₂, hput, hretain, hrenewed, -⟩ := rollOver_ok h
  -- The live file becomes the newest archive, the oldest archives go, a new file is opened.
  obtain ⟨hsite₁, hstock₁, hbytes₁⟩ := putAside_stock (f := f.close) hpath hnamer hrotator hsite
    hstock hsuffix hslash hnull hname hgreater hput
  obtain ⟨hsite₂, hstock₂, hbytes₂⟩ := retain_stock (f := f.close) hpath hsite₁ hstock₁ hretain
  obtain ⟨hsettings, htracks', hgrows⟩ := hrenewed.spec hpath hsite₂ (htracks.close _)
  refine ⟨(SameSettings.close f).trans hsettings, htracks', hsite₂.grows (ownName_self _ x) hgrows,
    hstock₂.grows hgrows, ?_⟩
  rw [hgrows.here, List.append_nil, hbytes₂, hbytes₁]

/-! ## What a sink has made -/

/-- In the years 1970 to 9999. -/
def Modern (t : Int) : Prop := 0 ≤ t ∧ t ≤ 253402300799

instance (t : Int) : Decidable (Modern t) := inferInstanceAs (Decidable (_ ∧ _))

theorem Modern.inYears {t : Int} (h : Modern t) : InYears t := by
  unfold Modern at h
  unfold InYears
  omega

/-- The period that an instant ends begins in a year of four digits. -/
theorem Modern.slot {s : Schedule} {c : Int} (hutc : s.InUtc) (hc : Modern c) : InYears (s.slot c) := by
  obtain ⟨hlow, hhigh⟩ := hutc.slot_range hc.inYears.inCalendar
  unfold Modern at hc
  unfold daySeconds at hlow
  unfold InYears
  omega

/-- A name with a greater suffix is greater. -/
theorem suffix_lt {x a b : String} (h : a < b) : x ++ "." ++ a < x ++ "." ++ b := by
  rw [String.lt_iff_toList_lt] at h ⊢
  simp only [String.toList_append]
  exact List.append_left_lt h

/-- The name that the next archive will have, if the instant that is due was computed from
    another one. -/
def nextName (p : TimedRotation) (x : String) (c : Int) : String :=
  x ++ "." ++ p.schedule.archiveSuffix (p.schedule.slot c)

/-- Once the instant has come, the name after the next one is greater. -/
theorem nextName_lt {c t : Int} (hutc : p.schedule.InUtc) (hc : Modern c) (ht : Modern t)
    (hdue : p.schedule.next c ≤ t) : nextName p x c < nextName p x t := by
  have hlater := hutc.slot_advances hc.inYears.inCalendar ht.inYears.inCalendar hdue
  exact suffix_lt (archiveSuffix_lt hutc.zone (hc.slot hutc) (ht.slot hutc) hlater)

/-- The next name is that of an archive. -/
theorem isArchiveName_nextName {c : Int} (hutc : p.schedule.InUtc) (hc : Modern c) :
    isArchiveName p.schedule.unit x (nextName p x c) = true := by
  refine isArchiveName_iff.mpr ⟨_, ?_, matchesShape_archiveSuffix hutc.zone (hc.slot hutc)⟩
  simp [nextName]

/-- **A sink that is made** for a path has its live file there, which is made as well unless
    the sink waits for a line. -/
theorem built_spec {o : FileSinkOptions} {own : String → Bool} {s : FileSink}
    (hpolicy : o.policy? = some (.timed p)) (hsite : Site o.path d x own w.files)
    (h : FileSink.build o w = (.ok s, w')) :
    s.policy = .timed (p.attach s.file w') ∧ s.terminator = o.terminator ∧
      s.file.path = o.path ∧ s.file.namer? = o.namer? ∧ s.file.rotator? = o.rotator? ∧
      s.file.Tracks d x w'.files ∧ Grows (d ++ [x]) [] w.files w'.files := by
  obtain ⟨f, hrenewed, hfile, hattached, hterminator⟩ := FileSink.build_ok hpolicy h
  obtain ⟨hsettings, htracks, hgrows⟩ := hrenewed.spec rfl hsite o.liveFile_tracks
  rw [hfile] at hattached ⊢
  exact ⟨hattached, hterminator, hsettings.path, rfl, rfl, ⟨htracks.mode, htracks.handle⟩, hgrows⟩

/-- The archive that a line makes: none unless the instant has come and there is a live
    file. -/
def archiving (s : FileSink) (w : World) : List Archive :=
  match s.policy with
  | .timed p =>
    if p.dueAt ≤ w.now p.clock then
      madeOf w.files s.file.path (((p.archivePath s.file (w.now p.clock)).fileName?).getD "")
    else []
  | _ => []

/-- **Orderly**: a sink that rolls over at set times, alone in the directory of its live
    file but for the newest of the archives that it has made. -/
structure Orderly (p : TimedRotation) (path : Path) (d : Location) (x : String)
    (made : List Archive) (s : FileSink) (fs : FileSystem) : Prop where
  policy : ∃ c, Modern c ∧ s.policy = .timed { p with dueAt := p.schedule.next c } ∧
    ∀ a ∈ made, a.name < nextName p x c
  file : s.file.path = path
  namer : s.file.namer? = none
  rotator : s.file.rotator? = none
  tracks : s.file.Tracks d x fs
  site : Site path d x (ownName p.schedule.unit x) fs
  stock : Stock p.schedule.unit d x (newest p.backups made) fs
  sorted : (made.map Archive.name).Pairwise (· < ·)

namespace Orderly

variable {made : List Archive} {s s' : FileSink} {text : String} {c : Int}

/-- A live file with the same settings in a tree with the same archives. -/
theorem update (h : Orderly p path d x made s fs) (hsettings : s.file.SameSettings f)
    (htracks : f.Tracks d x fs') (hsite : Site path d x (ownName p.schedule.unit x) fs')
    (hstock : Stock p.schedule.unit d x (newest p.backups made) fs') :
    Orderly p path d x made { s with file := f } fs' := by
  refine ⟨h.policy, hsettings.path.trans h.file, ?_, ?_, htracks, hsite, hstock, h.sorted⟩
  · exact hsettings.namer.trans h.namer
  · exact hsettings.rotator.trans h.rotator

/-- The next archive gets the next name. -/
theorem fileName?_archivePath (h : Orderly p path d x made s fs) (hutc : p.schedule.InUtc)
    (c now : Int) :
    (({ p with dueAt := p.schedule.next c } : TimedRotation).archivePath s.file now).fileName? =
      some (nextName p x c) := by
  obtain ⟨front, m, hsplits, -⟩ := h.site.leads.way
  obtain ⟨hslash, -⟩ := archiveSuffix_plain p.schedule (p.schedule.slot c)
  rw [archivePath_eq h.file h.namer, periodStart_eq hutc]
  exact (hsplits.suffix hslash).fileName?

/-- **A rollover** makes the live file the newest archive. -/
theorem rollOver {p' : TimedRotation} (h : Orderly p path d x made s w.files)
    (hutc : p.schedule.InUtc) (hc : Modern c) (hnow : Modern (w.now p.clock))
    (hdue : p.schedule.next c ≤ w.now p.clock) (hless : ∀ a ∈ made, a.name < nextName p x c)
    (hroll : ({ p with dueAt := p.schedule.next c } : TimedRotation).rollOver s.file w =
      (.ok p', f, w')) :
    Orderly p path d x (made ++ madeOf w.files path (nextName p x c))
        { s with policy := .timed p', file := f } w'.files ∧
      (madeOf w.files path (nextName p x c)).flatMap Archive.bytes ++ w'.files.bytesAt (d ++ [x]) =
        w.files.bytesAt (d ++ [x]) := by
  obtain ⟨hslash, hnull⟩ := archiveSuffix_plain p.schedule (p.schedule.slot c)
  have hsuffix : p.schedule.archiveSuffix
      (({ p with dueAt := p.schedule.next c } : TimedRotation).periodStart (w.now p.clock)) =
        p.schedule.archiveSuffix (p.schedule.slot c) := by rw [periodStart_eq hutc]
  -- The archives that are left are among all that were made.
  have hgreater : ∀ a ∈ newest p.backups made, a.name < nextName p x c := by
    intro a ha
    exact hless a (mem_of_mem_newest _ _ ha)
  obtain ⟨hsettings, htracks, hsite, hstock, hbytes⟩ :=
    rollOver_stock (p := { p with dueAt := p.schedule.next c }) (z := nextName p x c) h.file
      h.namer h.rotator h.tracks h.site h.stock hsuffix hslash hnull rfl
      (isArchiveName_nextName hutc hc) hgreater hroll
  have hrolled := rollOver_next hroll
  have hp' : p' = { p with dueAt := p.schedule.next (w.now p.clock) } := hrolled
  refine ⟨⟨⟨w.now p.clock, hnow, congrArg Policy.timed hp', ?_⟩, ?_, ?_, ?_, htracks, hsite,
    ?_, ?_⟩, hbytes⟩
  · -- All names so far are less than the one after this.
    have hnext := nextName_lt (x := x) hutc hc hnow hdue
    intro a ha
    rcases List.mem_append.mp ha with hold | hnew
    · exact (hless a hold).trans hnext
    · rw [name_of_madeOf hnew]
      exact hnext
  · exact hsettings.path.trans h.file
  · exact hsettings.namer.trans h.namer
  · exact hsettings.rotator.trans h.rotator
  · rw [← newest_append]
    exact hstock
  · rw [List.map_append, List.pairwise_append]
    refine ⟨h.sorted, pairwise_madeOf _ _ _, ?_⟩
    intro y hy z hz
    obtain ⟨a, ha, rfl⟩ := List.mem_map.mp hy
    obtain ⟨b, hb, rfl⟩ := List.mem_map.mp hz
    rw [name_of_madeOf hb]
    exact hless a ha

/-- **Before a line**: if the instant has come, the live file becomes the newest archive. -/
theorem prepare (h : Orderly p path d x made s w.files) (hutc : p.schedule.InUtc)
    (hnow : Modern (w.now p.clock)) (hprepare : s.prepare text w = (.ok (), s', w')) :
    Orderly p path d x (made ++ archiving s w) s' w'.files ∧ s'.terminator = s.terminator ∧
      (archiving s w).flatMap Archive.bytes ++ w'.files.bytesAt (d ++ [x]) =
        w.files.bytesAt (d ++ [x]) := by
  obtain ⟨c, hc, hpolicy, hless⟩ := h.policy
  have hordinary : w.files.isSpecial s.file.path = false := by
    rw [h.file]
    exact h.site.leads.isSpecial_eq_false h.site.plain
  have harchiving : archiving s w = if p.schedule.next c ≤ w.now p.clock then
      madeOf w.files path (nextName p x c) else [] := by
    rw [archiving, hpolicy]
    dsimp only
    rw [h.fileName?_archivePath hutc c, h.file]
    rfl
  rcases prepare_timed_ok hpolicy hordinary hprepare with
    ⟨hearly, rfl, rfl⟩ | ⟨hdue, p', f, hroll, rfl⟩
  · -- Before the instant nothing is moved.
    rw [harchiving, if_neg (not_le.mpr hearly), List.append_nil]
    exact ⟨h, rfl, rfl⟩
  · rw [harchiving, if_pos hdue]
    obtain ⟨hrolled, hbytes⟩ := h.rollOver hutc hc hnow hdue hless hroll
    exact ⟨hrolled, rfl, hbytes⟩

/-- **A line** comes behind what the live file holds. -/
theorem emit (h : Orderly p path d x made s w.files) (hutc : p.schedule.InUtc)
    (hnow : Modern (w.now p.clock)) (hok : (s.prepare text w).1 = .ok ())
    (hemit : s.emit text w = (.ok (), s', w')) :
    Orderly p path d x (made ++ archiving s w) s' w'.files ∧ s'.terminator = s.terminator ∧
      (archiving s w).flatMap Archive.bytes ++ w'.files.bytesAt (d ++ [x]) =
        w.files.bytesAt (d ++ [x]) ++ lineBytes text s.terminator := by
  obtain ⟨s₁, w₁, f, hprepare, hwrite, rfl⟩ := FileSink.emit_ok hok hemit
  obtain ⟨h₁, hterminator, hbytes⟩ := h.prepare hutc hnow hprepare
  -- What the rollover left in the live file is what the line comes behind.
  obtain ⟨hgrows, hsettings, htracks⟩ := writeLine_grows h₁.file h₁.site h₁.tracks hwrite
  refine ⟨h₁.update hsettings htracks (h₁.site.grows (ownName_self _ x) hgrows)
    (h₁.stock.grows hgrows), hterminator, ?_⟩
  rw [hgrows.here, ← List.append_assoc, hbytes, hterminator]

/-- To close the live file leaves everything in order. -/
theorem close (h : Orderly p path d x made s fs) :
    Orderly p path d x made { s with file := s.file.close } fs :=
  h.update (.close _) (h.tracks.close fs) h.site h.stock

/-- Trees with the same names and contents of files are in the same order. -/
theorem alike (h : Orderly p path d x made s fs) (halike : fs.Alike fs') :
    Orderly p path d x made s fs' := by
  have hnodup : (fs'.childNames d).Nodup := by
    rw [childNames_congr halike.entries]
    exact h.stock.nodup
  exact h.update (f := s.file) (.refl _) (h.tracks.alike halike) (h.site.alike halike)
    (h.stock.of_same hnodup (fun y _ => halike.entryAt? _) fun y _ => halike.bytesAt _)

/-- The name of the next archive is free, whatever the clock shows. -/
theorem free (h : Orderly p path d x made s fs) (hutc : p.schedule.InUtc) {q : TimedRotation}
    (hq : s.policy = .timed q) (now : Int) : fs.exists? (q.archivePath s.file now) = false := by
  obtain ⟨c, hc, hpolicy, hless⟩ := h.policy
  rw [hpolicy] at hq
  obtain rfl := Policy.timed.inj hq
  obtain ⟨hslash, hnull⟩ := archiveSuffix_plain p.schedule (p.schedule.slot c)
  rw [archivePath_eq h.file h.namer, periodStart_eq hutc]
  refine not_exists_of_free (h.site.leads.suffix hslash hnull) ?_
  exact h.stock.free (isArchiveName_nextName hutc hc) fun a ha =>
    hless a (mem_of_mem_newest _ _ ha)

/-- A sink that is made alone in a directory has made no archive. -/
theorem build {o : FileSinkOptions} (hpolicy : o.policy? = some (.timed p))
    (hnamer : o.namer? = none) (hrotator : o.rotator? = none)
    (hsite : Site o.path d x (ownName p.schedule.unit x) w.files)
    (hstock : Stock p.schedule.unit d x [] w.files) (h : FileSink.build o w = (.ok s, w'))
    (hchanged : ∀ t, w'.files.modified? o.path = some t → t ≤ 253402300799)
    (hnow : Modern (w'.now p.clock)) :
    Orderly p o.path d x [] s w'.files ∧ s.terminator = o.terminator ∧
      w'.files.bytesAt (d ++ [x]) = w.files.bytesAt (d ++ [x]) := by
  obtain ⟨hattached, hterminator, hpath, hnamer', hrotator', htracks, hgrows⟩ :=
    built_spec hpolicy hsite h
  obtain ⟨c, hc, hfrom⟩ := attach_eq p s.file w'
  have hempty : newest p.backups ([] : List Archive) = [] := by simp [newest]
  refine ⟨⟨⟨c, ?_, hattached.trans (congrArg Policy.timed hc), by simp⟩, hpath,
    hnamer'.trans hnamer, hrotator'.trans hrotator, htracks, hsite.grows (ownName_self _ x) hgrows,
    ?_, List.Pairwise.nil⟩, hterminator, ?_⟩
  · -- The first instant was computed from the clock or from the last change of the file.
    rcases hfrom with rfl | ⟨hpos, hmodified⟩
    · exact hnow
    · rw [hpath] at hmodified
      exact ⟨hpos, hchanged c hmodified⟩
  · rw [hempty]
    exact hstock.grows hgrows
  · rw [hgrows.here, List.append_nil]

end Orderly

/-! ## Runs in which nothing fails -/

/-- **Smooth**: a run of a new sink in which nothing fails, with the archives that were made
    and the texts that were written.  The clock shows the years 1970 to 9999, and between
    lines the file may be closed and time may pass. -/
inductive Smooth (o : FileSinkOptions) (clock : Clock) (w₀ : World) :
    List Archive → List String → FileSink × World → Prop where
  | build {s : FileSink} {w : World} (h : FileSink.build o w₀ = (.ok s, w))
      (hchanged : ∀ t, w.files.modified? o.path = some t → t ≤ 253402300799)
      (hnow : Modern (w.now clock)) : Smooth o clock w₀ [] [] (s, w)
  | emit {made : List Archive} {texts : List String} {s s' : FileSink} {w w' : World}
      (before : Smooth o clock w₀ made texts (s, w)) (text : String) (hnow : Modern (w.now clock))
      (hok : (s.prepare text w).1 = .ok ()) (h : s.emit text w = (.ok (), s', w')) :
      Smooth o clock w₀ (made ++ archiving s w) (texts ++ [text]) (s', w')
  | close {made : List Archive} {texts : List String} {s : FileSink} {w : World}
      (before : Smooth o clock w₀ made texts (s, w)) : Smooth o clock w₀ made texts (s.close, w)
  | elsewhere {made : List Archive} {texts : List String} {s : FileSink} {w w' : World}
      (before : Smooth o clock w₀ made texts (s, w)) (h : w.files.Alike w'.files) :
      Smooth o clock w₀ made texts (s, w')

variable {o : FileSinkOptions} {w₀ : World} {made : List Archive} {texts : List String}
  {s : FileSink}

/-- A smooth run keeps the archives in order, and what they hold in front of the live file
    is what was written. -/
theorem Smooth.orderly (hpolicy : o.policy? = some (.timed p)) (hnamer : o.namer? = none)
    (hrotator : o.rotator? = none) (hutc : p.schedule.InUtc)
    (hsite : Site o.path d x (ownName p.schedule.unit x) w₀.files)
    (hstock : Stock p.schedule.unit d x [] w₀.files) {a : FileSink × World}
    (hrun : Smooth o p.clock w₀ made texts a) :
    Orderly p o.path d x made a.1 a.2.files ∧ a.1.terminator = o.terminator ∧
      made.flatMap Archive.bytes ++ a.2.files.bytesAt (d ++ [x]) =
        w₀.files.bytesAt (d ++ [x]) ++ texts.flatMap fun text => lineBytes text o.terminator := by
  induction hrun with
  | build h hchanged hnow =>
    obtain ⟨horderly, hterminator, hbytes⟩ :=
      Orderly.build hpolicy hnamer hrotator hsite hstock h hchanged hnow
    refine ⟨horderly, hterminator, ?_⟩
    rw [List.flatMap_nil, List.flatMap_nil, List.nil_append, List.append_nil]
    exact hbytes
  | emit before text hnow hok h ih =>
    obtain ⟨horderly, hterminator, hbytes⟩ := ih
    obtain ⟨horderly', hterminator', hline⟩ := horderly.emit hutc hnow hok h
    refine ⟨horderly', hterminator'.trans hterminator, ?_⟩
    -- The new archive and the live file hold what the live file held before, and the line.
    rw [List.flatMap_append, List.append_assoc, hline, ← List.append_assoc, hbytes,
      List.flatMap_append, List.append_assoc, List.flatMap_singleton]
    dsimp only at hterminator
    rw [hterminator]
  | close before ih =>
    obtain ⟨horderly, hterminator, hbytes⟩ := ih
    exact ⟨horderly.close, hterminator, hbytes⟩
  | elsewhere before h ih =>
    obtain ⟨horderly, hterminator, hbytes⟩ := ih
    refine ⟨horderly.alike h, hterminator, ?_⟩
    rw [h.bytesAt]
    exact hbytes

/-- **The archives of a run in which nothing fails.**  Each has a greater name than those
    before, and the name of the next one is always free.  The directory holds the newest of
    them, as many as are to be kept, and what they hold with the live file is what was
    written, line by line, but for the archives that are gone. -/
theorem Smooth.succession (hpolicy : o.policy? = some (.timed p)) (hnamer : o.namer? = none)
    (hrotator : o.rotator? = none) (hutc : p.schedule.InUtc) (hsound : w₀.files.Sound)
    (hwf : w₀.files.WellFormed) (hedge : w₀.files.edge o.path = .ok ⟨d, .name x, false⟩)
    (hplain : w₀.files.PlainAt (d ++ [x])) (halone : ∀ y ∈ w₀.files.childNames d, y = x)
    (hrun : Smooth o p.clock w₀ made texts (s, w)) :
    (made.map Archive.name).Pairwise (· < ·) ∧
    (∀ q, s.policy = .timed q → ∀ now, w.files.exists? (q.archivePath s.file now) = false) ∧
    ∃ gone kept, made = gone ++ kept ∧
      kept.length = (if p.backups = 0 then made.length else min p.backups made.length) ∧
      Stock p.schedule.unit d x kept w.files ∧
      gone.flatMap Archive.bytes ++ (kept.flatMap Archive.bytes ++ w.files.bytesAt (d ++ [x])) =
        w₀.files.bytesAt (d ++ [x]) ++ texts.flatMap fun text => lineBytes text o.terminator := by
  have hsite := site_of_alone hwf hsound hedge hplain halone (ownName p.schedule.unit x)
  have hstock : Stock p.schedule.unit d x [] w₀.files :=
    Stock.empty (hwf.nodup_childNames d) halone
  obtain ⟨horderly, -, hbytes⟩ := hrun.orderly hpolicy hnamer hrotator hutc hsite hstock
  refine ⟨horderly.sorted, ?_, ?_⟩
  · intro q hq now
    exact horderly.free hutc hq now
  · obtain ⟨gone, hgone⟩ := exists_newest p.backups made
    refine ⟨gone, newest p.backups made, hgone, length_newest p.backups made, horderly.stock, ?_⟩
    rw [← List.append_assoc, ← List.flatMap_append, ← hgone]
    exact hbytes

/-- Lines written at given times, and the archives that they make, as long as nothing
    fails. -/
def writeAt : List (Int × String) → FileSink × World → Option (List Archive × FileSink × World)
  | [], a => some ([], a)
  | (t, text) :: lines, (s, w) =>
    let w := { w with clocks := #[{ seconds := t }] }
    if Modern t ∧ (s.prepare text w).1.isOk ∧ (s.emit text w).1.isOk then
      (writeAt lines (s.emit text w).2).map fun (made, a) => (archiving s w ++ made, a)
    else none

/-- Such lines are a smooth run. -/
theorem Smooth.writeAt {lines : List (Int × String)} {a b : FileSink × World}
    {more : List Archive} (before : Smooth o (.manual 0) w₀ made texts a)
    (h : writeAt lines a = some (more, b)) :
    Smooth o (.manual 0) w₀ (made ++ more) (texts ++ lines.map Prod.snd) b := by
  induction lines generalizing made texts a more with
  | nil =>
    obtain ⟨rfl, rfl⟩ := Prod.mk.inj (Option.some.inj h)
    simpa using before
  | cons line lines ih =>
    obtain ⟨t, text⟩ := line
    obtain ⟨s, w⟩ := a
    unfold Rotation.writeAt at h
    dsimp only at h
    split at h
    · next hline =>
      obtain ⟨hmodern, hok, hemit⟩ := hline
      obtain ⟨⟨later, c⟩, hrest, heq⟩ := Option.map_eq_some_iff.mp h
      obtain ⟨rfl, rfl⟩ := Prod.mk.inj heq
      -- To set the clock changes no file.
      have hset : Smooth o (.manual 0) w₀ made texts
          (s, { w with clocks := #[{ seconds := t }] }) := before.elsewhere (.of_data rfl rfl)
      have hone := hset.emit text hmodern (eq_ok_of_isOk hok) (Prod.ext (eq_ok_of_isOk hemit) rfl)
      have hall := ih hone hrest
      simpa using hall
    · cases h

/-- Three lines, the last of them ten seconds after the first: the others are in an archive. -/
theorem archive_after_ten_seconds :
    let o : FileSinkOptions :=
      { path := ⟨"timed.log"⟩, delay := true, policy? := some (.timed everyTenSeconds) }
    let w₀ : World := { clocks := #[{ seconds := 1709287200 }] }
    let made : List Archive :=
      [⟨"timed.log.2024-03-01_10-00-00", lineBytes "first" "\n" ++ lineBytes "second" "\n"⟩]
    ∃ s w, Smooth o (.manual 0) w₀ made ["first", "second", "third"] (s, w) ∧
      Stock .seconds [] "timed.log" made w.files ∧
      w.files.bytesAt ["timed.log"] = lineBytes "third" "\n" := by
  intro o w₀ made
  have hutc : everyTenSeconds.schedule.InUtc := ⟨rfl, by decide, by simp [everyTenSeconds]⟩
  obtain ⟨s₀, hs₀⟩ : ∃ s₀ : FileSink, s₀ =
      { file := { path := ⟨"timed.log"⟩, delay := true }
        policy := .timed (everyTenSeconds.attach { path := ⟨"timed.log"⟩, delay := true } w₀) } :=
    ⟨_, rfl⟩
  have hbuild : FileSink.build o w₀ = (.ok s₀, w₀) := by
    rw [hs₀]
    rfl
  have hnone : w₀.files.modified? o.path = none := by decide +kernel
  have hstart : Smooth o (.manual 0) w₀ [] [] (s₀, w₀) :=
    .build hbuild (by simp [hnone]) (by decide)
  have hlines : (writeAt [(1709287200, "first"), (1709287205, "second"), (1709287210, "third")]
      (s₀, w₀)).map Prod.fst = some made := by
    rw [hs₀]
    decide +kernel
  obtain ⟨⟨more, s, w⟩, hrun, hmore⟩ := Option.map_eq_some_iff.mp hlines
  obtain rfl : more = made := hmore
  have hall : Smooth o (.manual 0) w₀ made ["first", "second", "third"] (s, w) :=
    hstart.writeAt hrun
  obtain ⟨-, -, gone, kept, hsplit, hlen, hstock, hbytes⟩ :=
    hall.succession (p := everyTenSeconds) (d := []) (x := "timed.log") rfl rfl rfl hutc
      ⟨by decide, by decide⟩ ⟨by decide, by decide, by decide⟩ (by decide +kernel)
      (by intro e he; cases he) (by decide)
  -- One archive is kept, so none is gone.
  obtain rfl : gone = [] := by
    have hone : kept.length = 1 := hlen
    have hboth := congrArg List.length hsplit
    rw [List.length_append, hone] at hboth
    exact List.eq_nil_of_length_eq_zero (Nat.add_right_cancel hboth).symm
  rw [List.nil_append] at hsplit
  subst hsplit
  refine ⟨s, w, hall, hstock, ?_⟩
  have hmade : made.flatMap Archive.bytes = lineBytes "first" "\n" ++ lineBytes "second" "\n" := by
    simp [made]
  have hempty : w₀.files.bytesAt ["timed.log"] = [] := rfl
  have hlive : (lineBytes "first" "\n" ++ lineBytes "second" "\n") ++ w.files.bytesAt ["timed.log"] =
      (lineBytes "first" "\n" ++ lineBytes "second" "\n") ++ lineBytes "third" "\n" := by
    rw [List.flatMap_nil, List.nil_append, List.nil_append, hmade, hempty] at hbytes
    simpa [o] using hbytes
  exact List.append_cancel_left hlive

end Rotation

end Logbook
