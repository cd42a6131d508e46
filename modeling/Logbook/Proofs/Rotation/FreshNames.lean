import Logbook.Proofs.Rotation.LocalNames
import Logbook.Proofs.Rotation.Succession

/-! # Names that are not used again

    A sink that rolls over at set times on the local clock, in a directory without archives,
    never chooses a name again as long as nothing fails and the schedule tells its periods
    apart.  The name of the next archive is free then, so that no rollover removes an
    archive to make room for its own.

    What carries the induction is that the instant that is due next was computed from an
    earlier one: whenever it comes, the name that is chosen tells a later time than all
    names so far.
-/

namespace Logbook

open FileSystem LogFile
open Time (daySeconds)

namespace Rotation

/-! ## Names in the directory -/

/-- What is taken for an archive of a live file, or can be made one. -/
def Schedule.IsArchive (s : Schedule) (x y : String) : Prop :=
  isArchiveName s.unit x y = true ∨ ∃ u, y = x ++ "." ++ s.archiveSuffix u

open Classical in
/-- The live file and its archives. -/
noncomputable def Schedule.owns (s : Schedule) (x y : String) : Bool :=
  decide (y = x ∨ s.IsArchive x y)

variable {p : TimedRotation} {f f' : LogFile} {w w' : World} {fs fs' : FileSystem} {path : Path}
  {d : Location} {x y k : String} {s : Schedule} {own : String → Bool} {bytes : List UInt8}

theorem Schedule.owns_iff : s.owns x y = true ↔ y = x ∨ s.IsArchive x y := by
  simp [owns]

theorem Schedule.owns_self (s : Schedule) (x : String) : s.owns x x = true :=
  owns_iff.mpr (.inl rfl)

theorem Schedule.owns_archive (h : isArchiveName s.unit x y = true) : s.owns x y = true :=
  owns_iff.mpr (.inr (.inl h))

theorem Schedule.owns_suffix (s : Schedule) (x : String) (u : Int) :
    s.owns x (x ++ "." ++ s.archiveSuffix u) = true :=
  owns_iff.mpr (.inr (.inr ⟨u, rfl⟩))

/-- A name that tells an earlier time is another one. -/
theorem Schedule.archiveSuffix_ne {a u : Int}
    (hless : s.shown a / s.unit.grain < s.shown u / s.unit.grain) :
    s.archiveSuffix a ≠ s.archiveSuffix u := by
  intro heq
  rw [shown_of_archiveSuffix heq] at hless
  exact absurd hless (Int.lt_irrefl _)

/-- **Gains**: in a directory no names are new but these. -/
def Gains (d : Location) (names : List String) (fs fs' : FileSystem) : Prop :=
  ∀ y ∈ fs'.childNames d, y ∈ fs.childNames d ∨ y ∈ names

theorem Gains.trans {names more : List String} {fs'' : FileSystem} (h : Gains d names fs fs')
    (h' : Gains d more fs' fs'') : Gains d (names ++ more) fs fs'' := by
  intro y hy
  rcases h' y hy with hold | hnew
  · rcases h y hold with hold | hnew
    · exact .inl hold
    · exact .inr (List.mem_append_left _ hnew)
  · exact .inr (List.mem_append_right _ hnew)

/-- A live file that grows brings in its own name. -/
theorem gains_of_grows (h : Grows (d ++ [x]) bytes fs fs') : Gains d [x] fs fs' := by
  intro y hy
  by_cases hyx : y = x
  · exact .inr (List.mem_singleton.mpr hyx)
  · obtain ⟨e, he⟩ := mem_childNames_iff.mp hy
    rw [h.entry _ fun heq => hyx (child_inj.mp heq)] at he
    exact .inl (mem_childNames_iff.mpr ⟨e, he⟩)

/-- The live file that is put aside brings in the name of its archive. -/
theorem putAside_gains {now : Int} (hpath : f.path = path) (hnamer : f.namer? = none)
    (hrotator : f.rotator? = none) (hsite : Site path d x own w.files)
    (hsuffix : p.schedule.archiveSuffix (p.periodStart now) = k) (hslash : '/' ∉ k.toList)
    (hnull : '\x00' ∉ k.toList) (hfree : w.files.entryAt? (d ++ [x ++ "." ++ k]) = none)
    (hx : own x = true) (hk : own (x ++ "." ++ k) = true)
    (h : p.putAside f now w = (.ok (), w')) :
    Site path d x own w'.files ∧ Gains d [x ++ "." ++ k] w.files w'.files := by
  rcases putAside_free hpath hnamer hrotator hsite.leads hsite.plain hsuffix hslash hnull hfree h
    with ⟨-, rfl⟩ | ⟨id, -, rfl⟩
  · exact ⟨hsite, fun y hy => .inl hy⟩
  · have hne : x ≠ x ++ "." ++ k := (suffix_ne x k).symm
    refine ⟨(site_of_move hsite hx hk hne).1, fun y hy => ?_⟩
    rcases (of_mem_childNames_move hne hy).2 with rfl | hold
    · exact .inr List.mem_cons_self
    · exact .inl hold

/-- Retention brings in no name. -/
theorem retain_gains (hpath : f.path = path) (hsite : Site path d x own fs)
    (hown : ∀ {y}, isArchiveName p.schedule.unit x y = true → own y = true)
    (h : p.retain f fs = (.ok (), fs')) : Site path d x own fs' ∧ Gains d [] fs fs' := by
  rcases retain_removes hpath hsite.leads hsite.length h with ⟨-, rfl⟩ | ⟨-, rfl⟩
  · exact ⟨hsite, fun y hy => .inl hy⟩
  · refine ⟨hsite.takeAll fun y hy => ?_, fun y hy => ?_⟩
    · exact hown (mem_archivesAmong.mp (List.mem_of_mem_take hy)).2
    · obtain ⟨e, he⟩ := mem_childNames_iff.mp hy
      rw [entryAt?_takeAll_child] at he
      split at he
      · cases he
      · exact .inl (mem_childNames_iff.mpr ⟨e, he⟩)

/-- **A rollover** brings in the names of the live file and of its archive. -/
theorem rollOver_gains {p' : TimedRotation} (hpath : f.path = path) (hnamer : f.namer? = none)
    (hrotator : f.rotator? = none) (htracks : f.Tracks d x w.files)
    (hsite : Site path d x (p.schedule.owns x) w.files) {u : Int}
    (hstart : p.periodStart (w.now p.clock) = u)
    (hfree : w.files.entryAt? (d ++ [x ++ "." ++ p.schedule.archiveSuffix u]) = none)
    (h : p.rollOver f w = (.ok p', f', w')) :
    f.SameSettings f' ∧ f'.Tracks d x w'.files ∧ Site path d x (p.schedule.owns x) w'.files ∧
      Gains d [x ++ "." ++ p.schedule.archiveSuffix u, x] w.files w'.files := by
  subst hstart
  obtain ⟨hslash, hnull⟩ := archiveSuffix_plain p.schedule (p.periodStart (w.now p.clock))
  obtain ⟨w₁, fs₂, hput, hretain, hrenewed, -⟩ := rollOver_ok h
  -- The archive gets its name, retention brings in none, the new live file has the old one.
  obtain ⟨hsite₁, hgains₁⟩ := putAside_gains (f := f.close) hpath hnamer hrotator hsite rfl
    hslash hnull hfree (p.schedule.owns_self x) (p.schedule.owns_suffix x _) hput
  obtain ⟨hsite₂, hgains₂⟩ := retain_gains (f := f.close) hpath hsite₁ Schedule.owns_archive hretain
  obtain ⟨hsettings, htracks', hgrows⟩ := hrenewed.spec hpath hsite₂ (htracks.close _)
  refine ⟨(SameSettings.close f).trans hsettings, htracks',
    hsite₂.grows (p.schedule.owns_self x) hgrows, ?_⟩
  exact (hgains₁.trans hgains₂).trans (gains_of_grows hgrows)

/-! ## What a sink has chosen -/

/-- The path of an archive of a period that begins at an instant. -/
def archiveAt (s : Schedule) (path : Path) (u : Int) : Path :=
  ⟨path.text ++ "." ++ s.archiveSuffix u⟩

/-- The path that a line chooses for an archive: none unless the instant has come. -/
def choosing (s : FileSink) (w : World) : List Path :=
  match s.policy with
  | .timed p =>
    if p.dueAt ≤ w.now p.clock then [p.archivePath s.file (w.now p.clock)] else []
  | _ => []

/-- **Roster**: the periods that a sink has made archives of began at these instants.  Their
    names tell later and later times, and the one to be chosen next, whenever that is, tells
    a later one than all of them.  The directory holds no archive that has another name. -/
structure Roster (p : TimedRotation) (path : Path) (d : Location) (x : String) (V : Int → Prop)
    (starts : List Int) (s : FileSink) (fs : FileSystem) : Prop where
  policy : ∃ c, V c ∧ s.policy = .timed { p with dueAt := p.schedule.next c } ∧
    ∀ u ∈ starts, ∀ t, V t → p.schedule.next c ≤ t →
      p.schedule.shown u / p.schedule.unit.grain < p.schedule.stamp c t
  file : s.file.path = path
  namer : s.file.namer? = none
  rotator : s.file.rotator? = none
  tracks : s.file.Tracks d x fs
  site : Site path d x (p.schedule.owns x) fs
  names : ∀ y ∈ fs.childNames d, p.schedule.owns x y = true →
    y = x ∨ ∃ u ∈ starts, y = x ++ "." ++ p.schedule.archiveSuffix u
  told : starts.Pairwise fun a b =>
    p.schedule.shown a / p.schedule.unit.grain < p.schedule.shown b / p.schedule.unit.grain

namespace Roster

variable {V : Int → Prop} {starts : List Int} {s s' : FileSink} {text : String}

/-- A live file with the same settings in a directory with no other archives. -/
theorem update (h : Roster p path d x V starts s fs) (hsettings : s.file.SameSettings f)
    (htracks : f.Tracks d x fs') (hsite : Site path d x (p.schedule.owns x) fs')
    (hgains : Gains d [x] fs fs') : Roster p path d x V starts { s with file := f } fs' := by
  refine ⟨h.policy, hsettings.path.trans h.file, ?_, ?_, htracks, hsite, ?_, h.told⟩
  · exact hsettings.namer.trans h.namer
  · exact hsettings.rotator.trans h.rotator
  · intro y hy howned
    rcases hgains y hy with hold | hnew
    · exact h.names y hold howned
    · exact .inl (List.mem_singleton.mp hnew)

/-- A name that tells a later time than all so far is free. -/
theorem entryAt?_eq_none (h : Roster p path d x V starts s fs) {u : Int}
    (hlater : ∀ a ∈ starts, p.schedule.shown a / p.schedule.unit.grain <
      p.schedule.shown u / p.schedule.unit.grain) :
    fs.entryAt? (d ++ [x ++ "." ++ p.schedule.archiveSuffix u]) = none := by
  rw [← Option.not_isSome_iff_eq_none, Option.isSome_iff_exists, ← mem_childNames_iff]
  intro hthere
  rcases h.names _ hthere (p.schedule.owns_suffix x u) with hlive | ⟨a, ha, heq⟩
  · exact suffix_ne x _ hlive
  · exact Schedule.archiveSuffix_ne (hlater a ha) (suffix_inj.mp heq).symm

/-- The period that ends at an instant that was computed from another one. -/
theorem periodStart_of_next (p : TimedRotation) (c t : Int) :
    ({ p with dueAt := p.schedule.next c } : TimedRotation).periodStart t =
      p.schedule.keepWallClock t (p.schedule.slot c) := rfl

/-- **A rollover** chooses a name that was free. -/
theorem rollOver {c : Int} (h : Roster p path d x V starts s w.files)
    (hapart : p.schedule.Distinguishes V) (hc : V c) (hnow : V (w.now p.clock))
    (hdue : p.schedule.next c ≤ w.now p.clock)
    (hlater : ∀ a ∈ starts, ∀ t, V t → p.schedule.next c ≤ t →
      p.schedule.shown a / p.schedule.unit.grain < p.schedule.stamp c t)
    {u : Int} (hu : p.schedule.keepWallClock (w.now p.clock) (p.schedule.slot c) = u)
    {p' : TimedRotation}
    (hroll : ({ p with dueAt := p.schedule.next c } : TimedRotation).rollOver s.file w =
      (.ok p', f, w')) :
    Roster p path d x V (starts ++ [u]) { s with policy := .timed p', file := f } w'.files := by
  have hstamp : p.schedule.stamp c (w.now p.clock) =
      p.schedule.shown u / p.schedule.unit.grain := by rw [Schedule.stamp, hu]
  have hstart := (periodStart_of_next p c (w.now p.clock)).trans hu
  -- Whenever the instant comes, the name tells a later time than all so far, so it does now.
  have hless : ∀ a ∈ starts, p.schedule.shown a / p.schedule.unit.grain <
      p.schedule.shown u / p.schedule.unit.grain := by
    intro a ha
    rw [← hstamp]
    exact hlater a ha _ hnow hdue
  obtain ⟨hsettings, htracks, hsite, hgains⟩ :=
    rollOver_gains (p := { p with dueAt := p.schedule.next c }) h.file h.namer h.rotator h.tracks
      h.site hstart (h.entryAt?_eq_none hless) hroll
  have hrolled := rollOver_next hroll
  have hp' : p' = { p with dueAt := p.schedule.next (w.now p.clock) } := hrolled
  refine ⟨⟨w.now p.clock, hnow, congrArg Policy.timed hp', ?_⟩, hsettings.path.trans h.file,
    hsettings.namer.trans h.namer, hsettings.rotator.trans h.rotator, htracks, hsite, ?_, ?_⟩
  · -- The next name tells a later time than this one, which does so than all before.
    intro a ha t ht hdue'
    have hnext := hapart c (w.now p.clock) t hc hnow ht hdue hdue'
    rw [hstamp] at hnext
    rcases List.mem_append.mp ha with hold | hnew
    · exact (hless a hold).trans hnext
    · rw [List.mem_singleton.mp hnew]
      exact hnext
  · -- A name that is new in the directory is that of this archive or of the live file.
    intro y hy howned
    rcases hgains y hy with hold | hnew
    · refine (h.names y hold howned).imp_right ?_
      rintro ⟨a, ha, heq⟩
      exact ⟨a, List.mem_append_left _ ha, heq⟩
    · rcases List.mem_cons.mp hnew with heq | hlive
      · exact .inr ⟨u, List.mem_append_right _ List.mem_cons_self, heq⟩
      · exact .inl (List.mem_singleton.mp hlive)
  · rw [List.pairwise_append]
    refine ⟨h.told, List.pairwise_singleton _ _, fun a ha b hb => ?_⟩
    rw [List.mem_singleton.mp hb]
    exact hless a ha

/-- **Before a line**: if the instant has come, one more name is chosen, and it was free. -/
theorem prepare (h : Roster p path d x V starts s w.files) (hapart : p.schedule.Distinguishes V)
    (hnow : V (w.now p.clock)) (hprepare : s.prepare text w = (.ok (), s', w')) :
    ∃ more, choosing s w = more.map (archiveAt p.schedule path) ∧
      Roster p path d x V (starts ++ more) s' w'.files := by
  obtain ⟨c, hc, hpolicy, hlater⟩ := h.policy
  obtain ⟨u, hu⟩ : ∃ u, p.schedule.keepWallClock (w.now p.clock) (p.schedule.slot c) = u := ⟨_, rfl⟩
  have hordinary : w.files.isSpecial s.file.path = false := by
    rw [h.file]
    exact h.site.leads.isSpecial_eq_false h.site.plain
  have hchoosing : choosing s w =
      if p.schedule.next c ≤ w.now p.clock then [archiveAt p.schedule path u] else [] := by
    rw [choosing, hpolicy]
    dsimp only
    rw [archivePath_eq h.file h.namer, periodStart_of_next, hu, archiveAt]
  rcases prepare_timed_ok hpolicy hordinary hprepare with
    ⟨hearly, rfl, rfl⟩ | ⟨hdue, p', f, hroll, rfl⟩
  · -- Before the instant nothing is chosen and nothing is moved.
    refine ⟨[], ?_, ?_⟩
    · rw [hchoosing, if_neg (not_le.mpr hearly), List.map_nil]
    · rw [List.append_nil]
      exact h
  · refine ⟨[u], ?_, h.rollOver hapart hc hnow hdue hlater hu hroll⟩
    rw [hchoosing, if_pos hdue, List.map_singleton]

/-- **A line** brings in no other name. -/
theorem emit (h : Roster p path d x V starts s w.files) (hapart : p.schedule.Distinguishes V)
    (hnow : V (w.now p.clock)) (hok : (s.prepare text w).1 = .ok ())
    (hemit : s.emit text w = (.ok (), s', w')) :
    ∃ more, choosing s w = more.map (archiveAt p.schedule path) ∧
      Roster p path d x V (starts ++ more) s' w'.files := by
  obtain ⟨s₁, w₁, f, hprepare, hwrite, rfl⟩ := FileSink.emit_ok hok hemit
  obtain ⟨more, hchoosing, h₁⟩ := h.prepare hapart hnow hprepare
  obtain ⟨hgrows, hsettings, htracks⟩ := writeLine_grows h₁.file h₁.site h₁.tracks hwrite
  exact ⟨more, hchoosing, h₁.update hsettings htracks
    (h₁.site.grows (p.schedule.owns_self x) hgrows) (gains_of_grows hgrows)⟩

/-- To close the live file brings in no name. -/
theorem close (h : Roster p path d x V starts s fs) :
    Roster p path d x V starts { s with file := s.file.close } fs :=
  h.update (.close _) (h.tracks.close fs) h.site fun _ hy => .inl hy

/-- Trees with the same names and contents of files have the same names. -/
theorem alike (h : Roster p path d x V starts s fs) (halike : fs.Alike fs') :
    Roster p path d x V starts s fs' := by
  refine h.update (f := s.file) (.refl _) (h.tracks.alike halike) (h.site.alike halike) ?_
  intro y hy
  rw [childNames_congr halike.entries] at hy
  exact .inl hy

/-- A sink that is made in a directory without archives has chosen no name. -/
theorem build {o : FileSinkOptions} (hpolicy : o.policy? = some (.timed p))
    (hnamer : o.namer? = none) (hrotator : o.rotator? = none)
    (hsite : Site o.path d x (p.schedule.owns x) w.files)
    (hnone : ∀ y ∈ w.files.childNames d, ¬ p.schedule.IsArchive x y)
    (h : FileSink.build o w = (.ok s, w'))
    (hchanged : ∀ t, w'.files.modified? o.path = some t → 0 ≤ t → V t)
    (hnow : V (w'.now p.clock)) : Roster p o.path d x V [] s w'.files := by
  obtain ⟨hattached, -, hpath, hnamer', hrotator', htracks, hgrows⟩ := built_spec hpolicy hsite h
  obtain ⟨c, hc, hfrom⟩ := attach_eq p s.file w'
  refine ⟨⟨c, ?_, hattached.trans (congrArg Policy.timed hc), by simp⟩, hpath,
    hnamer'.trans hnamer, hrotator'.trans hrotator, htracks,
    hsite.grows (p.schedule.owns_self x) hgrows, ?_, List.Pairwise.nil⟩
  · -- The first instant was computed from the clock or from the last change of the file.
    rcases hfrom with rfl | ⟨hpos, hmodified⟩
    · exact hnow
    · rw [hpath] at hmodified
      exact hchanged c hmodified hpos
  · -- No archive is there, and the sink makes at most the live file.
    intro y hy howned
    rcases Schedule.owns_iff.mp howned with hlive | harchive
    · exact .inl hlive
    · rcases gains_of_grows hgrows y hy with hold | hnew
      · exact absurd harchive (hnone y hold)
      · exact .inl (List.mem_singleton.mp hnew)

/-- **The name to be chosen next**, whenever that is, is none of those so far, and free. -/
theorem next_is_fresh (h : Roster p path d x V starts s fs) {q : TimedRotation}
    (hq : s.policy = .timed q) {now : Int} (hnow : V now) (hdue : q.dueAt ≤ now) :
    q.archivePath s.file now ∉ starts.map (archiveAt p.schedule path) ∧
      fs.exists? (q.archivePath s.file now) = false := by
  obtain ⟨c, hc, hpolicy, hlater⟩ := h.policy
  obtain ⟨u, hu⟩ : ∃ u, p.schedule.keepWallClock now (p.schedule.slot c) = u := ⟨_, rfl⟩
  rw [hpolicy] at hq
  obtain rfl := Policy.timed.inj hq
  have hstamp : p.schedule.stamp c now = p.schedule.shown u / p.schedule.unit.grain := by
    rw [Schedule.stamp, hu]
  have hless : ∀ a ∈ starts, p.schedule.shown a / p.schedule.unit.grain <
      p.schedule.shown u / p.schedule.unit.grain := by
    intro a ha
    rw [← hstamp]
    exact hlater a ha now hnow hdue
  obtain ⟨hslash, hnull⟩ := archiveSuffix_plain p.schedule u
  rw [archivePath_eq h.file h.namer, periodStart_of_next, hu]
  -- A path chosen before would tell the same time as the new one.
  refine ⟨fun hmem => ?_, not_exists_of_free (h.site.leads.suffix hslash hnull)
    (h.entryAt?_eq_none hless)⟩
  obtain ⟨a, ha, heq⟩ := List.mem_map.mp hmem
  exact Schedule.archiveSuffix_ne (hless a ha) (suffix_inj.mp (Path.mk.inj heq))

/-- No name was chosen twice. -/
theorem nodup (h : Roster p path d x V starts s fs) :
    (starts.map (archiveAt p.schedule path)).Nodup := by
  refine List.pairwise_map.mpr (h.told.imp fun {a b} hless heq => ?_)
  exact Schedule.archiveSuffix_ne hless (suffix_inj.mp (Path.mk.inj heq))

end Roster

/-! ## Runs in which nothing fails -/

/-- **Course**: a run of a new sink in which nothing fails, with the paths that were chosen
    for archives.  The clock shows some instants, and between lines the file may be closed
    and time may pass. -/
inductive Course (o : FileSinkOptions) (clock : Clock) (V : Int → Prop) (w₀ : World) :
    List Path → FileSink × World → Prop where
  | build {s : FileSink} {w : World} (h : FileSink.build o w₀ = (.ok s, w))
      (hchanged : ∀ t, w.files.modified? o.path = some t → 0 ≤ t → V t)
      (hnow : V (w.now clock)) : Course o clock V w₀ [] (s, w)
  | emit {chosen : List Path} {s s' : FileSink} {w w' : World}
      (before : Course o clock V w₀ chosen (s, w)) (text : String) (hnow : V (w.now clock))
      (hok : (s.prepare text w).1 = .ok ()) (h : s.emit text w = (.ok (), s', w')) :
      Course o clock V w₀ (chosen ++ choosing s w) (s', w')
  | close {chosen : List Path} {s : FileSink} {w : World}
      (before : Course o clock V w₀ chosen (s, w)) : Course o clock V w₀ chosen (s.close, w)
  | elsewhere {chosen : List Path} {s : FileSink} {w w' : World}
      (before : Course o clock V w₀ chosen (s, w)) (h : w.files.Alike w'.files) :
      Course o clock V w₀ chosen (s, w')

variable {o : FileSinkOptions} {w₀ : World} {chosen : List Path} {V : Int → Prop} {s : FileSink}

/-- A run keeps the roster. -/
theorem Course.roster (hpolicy : o.policy? = some (.timed p)) (hnamer : o.namer? = none)
    (hrotator : o.rotator? = none) (hapart : p.schedule.Distinguishes V)
    (hsite : Site o.path d x (p.schedule.owns x) w₀.files)
    (hnone : ∀ y ∈ w₀.files.childNames d, ¬ p.schedule.IsArchive x y) {a : FileSink × World}
    (hrun : Course o p.clock V w₀ chosen a) :
    ∃ starts, chosen = starts.map (archiveAt p.schedule o.path) ∧
      Roster p o.path d x V starts a.1 a.2.files := by
  induction hrun with
  | build h hchanged hnow =>
    exact ⟨[], rfl, Roster.build hpolicy hnamer hrotator hsite hnone h hchanged hnow⟩
  -- The names of a run are those of its lines in turn, and each line adds at most one.
  | emit before text hnow hok h ih =>
    obtain ⟨starts, rfl, hroster⟩ := ih
    obtain ⟨more, hchoosing, hroster'⟩ := hroster.emit hapart hnow hok h
    exact ⟨starts ++ more, by rw [hchoosing, List.map_append], hroster'⟩
  | close before ih =>
    obtain ⟨starts, hchosen, hroster⟩ := ih
    exact ⟨starts, hchosen, hroster.close⟩
  | elsewhere before h ih =>
    obtain ⟨starts, hchosen, hroster⟩ := ih
    exact ⟨starts, hchosen, hroster.alike h⟩

/-- **Names are not used again.**  A sink rolls over at set times on the local clock, in a
    directory without archives, and nothing fails.  If the schedule tells its periods apart,
    or the offset of the clock stays what it is, then no name has been chosen twice; and
    whenever the next instant comes, the name that is chosen then is another one, and free. -/
theorem Course.names_fresh (hpolicy : o.policy? = some (.timed p)) (hnamer : o.namer? = none)
    (hrotator : o.rotator? = none) (hproper : p.schedule.Proper)
    (hzone : p.schedule.zone = .eastern) (hsound : w₀.files.Sound) (hwf : w₀.files.WellFormed)
    (hedge : w₀.files.edge o.path = .ok ⟨d, .name x, false⟩) (hplain : w₀.files.PlainAt (d ++ [x]))
    (hnone : ∀ y ∈ w₀.files.childNames d, ¬ p.schedule.IsArchive x y)
    (hinside : ∀ t, V t → Schedule.Inside t)
    (hapart : p.schedule.TellsApart ∨
      ∃ first last, p.schedule.Steady first last ∧ ∀ t, V t → first ≤ t ∧ t ≤ last)
    (hrun : Course o p.clock V w₀ chosen (s, w)) :
    chosen.Nodup ∧ ∀ q, s.policy = .timed q → ∀ now, V now → q.dueAt ≤ now →
      q.archivePath s.file now ∉ chosen ∧ w.files.exists? (q.archivePath s.file now) = false := by
  have hdistinguishes : p.schedule.Distinguishes V := by
    rcases hapart with htells | ⟨first, last, hsteady, hbetween⟩
    · exact (htells.distinguishes hzone hproper).mono hinside
    · exact (hsteady.distinguishes hzone hproper).mono fun t ht => ⟨hinside t ht, hbetween t ht⟩
  have hsite : Site o.path d x (p.schedule.owns x) w₀.files := by
    refine site_of_sole hwf hsound hedge hplain fun y hy howned => ?_
    exact (Schedule.owns_iff.mp howned).resolve_right (hnone y hy)
  obtain ⟨starts, rfl, hroster⟩ :=
    hrun.roster hpolicy hnamer hrotator hdistinguishes hsite hnone
  exact ⟨hroster.nodup, fun q hq now hnow hdue => hroster.next_is_fresh hq hnow hdue⟩

/-- Lines written at given times, and the paths that they choose for archives, as long as
    nothing fails. -/
def writeLines : List (Int × String) → FileSink × World → Option (List Path × FileSink × World)
  | [], a => some ([], a)
  | (t, text) :: lines, (s, w) =>
    let w := { w with clocks := #[{ seconds := t }] }
    if (s.prepare text w).1.isOk ∧ (s.emit text w).1.isOk then
      (writeLines lines (s.emit text w).2).map fun (chosen, a) => (choosing s w ++ chosen, a)
    else none

/-- Such lines are a run in which nothing fails. -/
theorem Course.writeLines {lines : List (Int × String)} {a b : FileSink × World}
    {more : List Path} (before : Course o (.manual 0) V w₀ chosen a)
    (hlines : ∀ line ∈ lines, V line.1) (h : writeLines lines a = some (more, b)) :
    Course o (.manual 0) V w₀ (chosen ++ more) b := by
  induction lines generalizing chosen a more with
  | nil =>
    obtain ⟨rfl, rfl⟩ := Prod.mk.inj (Option.some.inj h)
    simpa using before
  | cons line lines ih =>
    obtain ⟨t, text⟩ := line
    obtain ⟨s, w⟩ := a
    unfold Rotation.writeLines at h
    dsimp only at h
    split at h
    · next hline =>
      obtain ⟨hok, hemit⟩ := hline
      obtain ⟨⟨later, c⟩, hrest, heq⟩ := Option.map_eq_some_iff.mp h
      obtain ⟨rfl, rfl⟩ := Prod.mk.inj heq
      -- To set the clock touches no file, so it is a step of the run like any other.
      have hset : Course o (.manual 0) V w₀ chosen (s, { w with clocks := #[{ seconds := t }] }) :=
        before.elsewhere (.of_data rfl rfl)
      have hone := hset.emit text (hlines _ List.mem_cons_self) (eq_ok_of_isOk hok)
        (Prod.ext (eq_ok_of_isOk hemit) rfl)
      have hall := ih hone (fun l hl => hlines l (List.mem_cons_of_mem _ hl)) hrest
      simpa using hall
    · cases h

/-- A sink that waits for its first line to make a file. -/
def waiting (p : TimedRotation) : FileSinkOptions :=
  { path := ⟨"timed.log"⟩, delay := true, policy? := some (.timed p) }

/-- A new sink of that kind, at an instant. -/
def waitingSink (p : TimedRotation) (now : Int) : FileSink :=
  { file := { path := ⟨"timed.log"⟩, delay := true }
    policy := .timed { p with dueAt := p.schedule.next now } }

/-- Lines that are written to it in an empty directory are a run. -/
theorem Course.of_writeLines {now : Int} {lines : List (Int × String)} {b : FileSink × World}
    (hclock : p.clock = .manual 0) (hnow : V now) (hlines : ∀ line ∈ lines, V line.1)
    (h : Rotation.writeLines lines (waitingSink p now, { clocks := #[{ seconds := now }] }) =
      some (chosen, b)) :
    Course (waiting p) (.manual 0) V { clocks := #[{ seconds := now }] } chosen b := by
  have hnone : FileSystem.modified? ({ clocks := #[{ seconds := now }] } : World).files
      ⟨"timed.log"⟩ = none := by
    show ({} : FileSystem).modified? ⟨"timed.log"⟩ = none
    decide +kernel
  have hbuild : FileSink.build (waiting p) { clocks := #[{ seconds := now }] } =
      (.ok (waitingSink p now), { clocks := #[{ seconds := now }] }) := by
    -- Without a file the first instant is computed from the clock.
    have hattach : p.attach { path := ⟨"timed.log"⟩, delay := true }
        { clocks := #[{ seconds := now }] } = { p with dueAt := p.schedule.next now } := by
      unfold TimedRotation.attach
      rw [hnone, hclock]
      rfl
    unfold waitingSink
    rw [← hattach]
    rfl
  refine (Course.build hbuild ?_ hnow).writeLines hlines h
  intro t ht
  rw [show (waiting p).path = ⟨"timed.log"⟩ from rfl, hnone] at ht
  cases ht

/-- Every three hours. -/
def everyThreeHours : TimedRotation :=
  { schedule := { unit := .hours, count := 3 }, backups := 0, clock := .manual 0 }

/-- Three lines while the clock goes back: two archives, and whenever the next one is made,
    it gets another name. -/
theorem names_fresh_over_autumn :
    let chosen : List Path := [⟨"timed.log.2024-11-02_23"⟩, ⟨"timed.log.2024-11-03_02"⟩]
    ∃ s w, Course (waiting everyThreeHours) (.manual 0) Schedule.Inside
        { clocks := #[{ seconds := 1730606400 }] } chosen (s, w) ∧
      chosen.Nodup ∧ ∀ q, s.policy = .timed q → ∀ now, Schedule.Inside now → q.dueAt ≤ now →
        q.archivePath s.file now ∉ chosen ∧
          w.files.exists? (q.archivePath s.file now) = false := by
  intro chosen
  have hlines : (writeLines [(1730606400, "first"), (1730617200, "second"), (1730628000, "third")]
      (waitingSink everyThreeHours 1730606400, { clocks := #[{ seconds := 1730606400 }] })).map
        Prod.fst = some chosen := by
    decide +kernel
  obtain ⟨⟨more, s, w⟩, hrun, hmore⟩ := Option.map_eq_some_iff.mp hlines
  obtain rfl : more = chosen := hmore
  have hcourse := Course.of_writeLines (V := Schedule.Inside) rfl (by decide) (by decide) hrun
  have hproper : everyThreeHours.schedule.Proper := ⟨by decide, by simp [everyThreeHours]⟩
  have htells : everyThreeHours.schedule.TellsApart := by
    show 7200 + 3600 ≤ everyThreeHours.schedule.interval
    decide
  exact ⟨s, w, hcourse, Course.names_fresh (p := everyThreeHours) (d := []) (x := "timed.log") rfl rfl
    rfl hproper rfl ⟨by decide, by decide⟩ ⟨by decide, by decide, by decide⟩ (by decide +kernel)
    (by intro e he; cases he) (by intro y hy; cases hy) (fun _ h => h) (.inl htells) hcourse⟩

/-- Every midnight. -/
def everyMidnight : TimedRotation :=
  { schedule := { unit := .midnight, count := 1 }, backups := 0, clock := .manual 0 }

/-- **A name used again**: the day before the clock goes back gets its name when it has gone
    back.  Its start is moved to the day before then, so that the archive of that day is
    removed with the first line in it, although all archives are to be kept. -/
theorem name_used_again :
    everyMidnight.schedule.Proper ∧ everyMidnight.schedule.zone = .eastern ∧
      ∃ s w, Course (waiting everyMidnight) (.manual 0) Schedule.Inside
          { clocks := #[{ seconds := 1730476800 }] }
          [⟨"timed.log.2024-11-01"⟩, ⟨"timed.log.2024-11-01"⟩] (s, w) ∧
        w.files.childNames [] = ["timed.log", "timed.log.2024-11-01"] ∧
        w.files.bytesAt ["timed.log.2024-11-01"] = lineBytes "second" "\n" ∧
        w.files.bytesAt ["timed.log"] = lineBytes "third" "\n" := by
  have hlines : (writeLines [(1730476800, "first"), (1730563200, "second"), (1730739600, "third")]
      (waitingSink everyMidnight 1730476800, { clocks := #[{ seconds := 1730476800 }] })).map
        (fun a => (a.1, a.2.2.files.childNames [],
          a.2.2.files.bytesAt ["timed.log.2024-11-01"], a.2.2.files.bytesAt ["timed.log"])) =
      some ([⟨"timed.log.2024-11-01"⟩, ⟨"timed.log.2024-11-01"⟩],
        ["timed.log", "timed.log.2024-11-01"], lineBytes "second" "\n", lineBytes "third" "\n") := by
    decide +kernel
  obtain ⟨⟨chosen, s, w⟩, hrun, heq⟩ := Option.map_eq_some_iff.mp hlines
  simp only [Prod.mk.injEq] at heq
  obtain ⟨rfl, hnames, hsecond, hthird⟩ := heq
  exact ⟨⟨by decide, by simp [everyMidnight]⟩, rfl, s, w,
    Course.of_writeLines rfl (by decide) (by decide) hrun, hnames, hsecond, hthird⟩

end Rotation

end Logbook
