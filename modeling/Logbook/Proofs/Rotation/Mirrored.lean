import Logbook.Proofs.Files.Gzip
import Logbook.Proofs.Rotation.Turnover

/-! # Compressed archives mirror plain ones

    Two sinks with the same policy take the same texts at the same times, one of them with
    compressed archives.  As long as nothing fails, both directories tell one account of what
    is held: the live files are the same, and every archive of the one is an archive of the
    other under a longer name and in compressed form.

    What carries the runs is that account.  Every step that does not fail does to it what
    `Holdings` says, and that does not depend on the form of the archives.
-/

namespace Logbook

open FileSystem LogFile

namespace Rotation

/-! ## Sinks that keep an account -/

/-- A policy that puts the live file aside, by size or at set times. -/
def PutsAside : Policy → Prop
  | .size _ | .timed _ => True
  | .never | .watched _ => False

/-- **Account**: a sink made with some options, alone in the directory of its live file, and
    its policy and what it holds there. -/
structure Account (g : Filing) (o : FileSinkOptions) (d : Location) (x : String)
    (a : Policy × Holdings) (s : FileSink) (fs : FileSystem) : Prop where
  policy : s.policy = a.1
  path : s.file.path = o.path
  delay : s.file.delay = o.delay
  terminator : s.terminator = o.terminator
  filedBy : FiledBy g s.file
  tracks : s.file.Tracks d x fs
  filed : Filed g o.path d x a.2 fs
  stamped : ∀ p, a.1 = .timed p → a.2.AllStamped p.schedule.unit
  putsAside : PutsAside a.1

/-- **Vacant**: a path leads to a name in an empty directory. -/
structure Vacant (path : Path) (d : Location) (x : String) (fs : FileSystem) : Prop where
  sound : fs.Sound
  wellFormed : fs.WellFormed
  edge : fs.edge path = .ok ⟨d, .name x, false⟩
  empty : fs.childNames d = []

/-- An empty directory tells that nothing is held. -/
theorem Filed.of_vacant {g : Filing} {path : Path} {d : Location} {x : String} {fs : FileSystem}
    (hvacant : Vacant path d x fs) : Filed g path d x {} fs := by
  have hnone : ∀ y, fs.entryAt? (d ++ [y]) = none := by
    intro y
    cases hentry : fs.entryAt? (d ++ [y]) with
    | none => rfl
    | some e =>
      have hmem := mem_childNames_iff.mpr ⟨e, hentry⟩
      rw [hvacant.empty] at hmem
      cases hmem
  have hplain : fs.PlainAt (d ++ [x]) := by
    intro e he
    rw [hnone] at he
    cases he
  -- Everything else is a statement about names that are there, and there is none.
  refine ⟨?_, ?_, fileAt?_of_none (hnone x), fun k => fileAt?_of_none (hnone _), ?_, ?_, ?_⟩
  · refine site_of_alone hvacant.wellFormed hvacant.sound hvacant.edge hplain ?_ (startsWith x)
    rw [hvacant.empty]
    simp
  · rw [hvacant.empty]
    exact List.nodup_nil
  · rw [hvacant.empty]
    simp
  · intro hlive
    exact absurd rfl hlive
  · intro k hk
    exact absurd hk Finmap.notMem_empty

namespace Account

variable {g : Filing} {o : FileSinkOptions} {d : Location} {x : String} {policy : Policy}
  {a b : Policy × Holdings} {h : Holdings} {s s' : FileSink} {w w' : World} {fs fs' : FileSystem}
  {f : LogFile} {text : String}

/-- A sink whose live file has the same settings, and what it holds. -/
theorem update (haccount : Account g o d x a s fs) (hpolicy : s'.policy = b.1)
    (hterminator : s'.terminator = s.terminator) (hsettings : s.file.SameSettings s'.file)
    (htracks : s'.file.Tracks d x fs') (hfiled : Filed g o.path d x b.2 fs')
    (hstamped : ∀ p, b.1 = .timed p → b.2.AllStamped p.schedule.unit) (hputs : PutsAside b.1) :
    Account g o d x b s' fs' where
  policy := hpolicy
  path := hsettings.path.trans haccount.path
  delay := hsettings.delay.trans haccount.delay
  terminator := hterminator.trans haccount.terminator
  filedBy := haccount.filedBy.sameSettings hsettings
  tracks := htracks
  filed := hfiled
  stamped := hstamped
  putsAside := hputs

/-- Before a line of a sink that rolls over by size. -/
theorem prepare_size {p : SizeRotation} (haccount : Account g o d x (.size p, h) s w.files)
    (hprepare : s.prepare text w = (.ok (), s', w')) :
    Account g o d x (Holdings.prepared o.delay (s.lineLength text) w.now (.size p, h)) s' w'.files := by
  have hnone : ∀ (q : TimedRotation) (h' : Holdings), Policy.size p = .timed q →
      h'.AllStamped q.schedule.unit := by
    intro q h' heq
    cases heq
  unfold Holdings.prepared
  dsimp only
  obtain ⟨due, f₁, fs₁, hdue, hcases⟩ := Rotation.prepare_size haccount.policy hprepare
  by_cases hmax : p.maxBytes = 0
  · -- Nothing is ever due.
    rw [if_pos hmax]
    rw [SizeRotation.isDue, if_pos (by simp [hmax])] at hdue
    simp only [Prod.mk.injEq, Except.ok.injEq] at hdue
    obtain ⟨⟨rfl, rfl⟩, rfl⟩ := hdue
    obtain ⟨-, rfl, rfl⟩ | ⟨heq, -⟩ := hcases
    · exact haccount.update rfl rfl (.refl _) haccount.tracks haccount.filed haccount.stamped trivial
    · cases heq
  · rw [if_neg hmax]
    obtain ⟨hfiled, hsettings, htracks, hlimit⟩ :=
      haccount.filed.isDue_size haccount.path haccount.tracks hmax hdue
    have haccount₁ : Account g o d x (.size p, h.opened)
        { s with policy := .size p, file := f₁ } fs₁ :=
      haccount.update rfl rfl hsettings htracks hfiled (fun q => hnone q _) trivial
    obtain ⟨rfl, rfl, rfl⟩ | ⟨rfl, f₂, hroll, rfl⟩ := hcases
    · rw [if_neg (of_decide_eq_false hlimit.symm)]
      exact haccount₁
    · -- The line is one too many for the file that the account tells of as well.
      rw [if_pos (of_decide_eq_true hlimit.symm)]
      obtain ⟨hfiled₂, hsettings₂, htracks₂⟩ := Filed.rollOver_size
        (w := { w with files := fs₁ }) hfiled haccount₁.path haccount₁.filedBy htracks hroll
      rw [haccount₁.delay] at hfiled₂
      exact haccount₁.update rfl rfl hsettings₂ htracks₂ hfiled₂ (fun q => hnone q _) trivial

/-- Before a line of a sink that rolls over at set times. -/
theorem prepare_timed {p : TimedRotation} (haccount : Account g o d x (.timed p, h) s w.files)
    (hprepare : s.prepare text w = (.ok (), s', w')) :
    Account g o d x (Holdings.prepared o.delay (s.lineLength text) w.now (.timed p, h)) s' w'.files := by
  unfold Holdings.prepared
  dsimp only
  have hspecial : w.files.isSpecial s.file.path = false := by
    rw [haccount.path]
    exact haccount.filed.site.leads.isSpecial_eq_false haccount.filed.site.plain
  obtain ⟨hearly, rfl, rfl⟩ | ⟨hdue, p', f₁, hroll, rfl⟩ :=
    prepare_timed_ok haccount.policy hspecial hprepare
  · -- It is early yet.
    rw [if_pos hearly]
    exact haccount.update haccount.policy rfl (.refl _) haccount.tracks haccount.filed
      haccount.stamped trivial
  · rw [if_neg (by omega)]
    have hall := haccount.stamped p rfl
    obtain ⟨hfiled, hsettings, htracks, rfl⟩ := haccount.filed.rollOver_timed hall haccount.path
      haccount.filedBy haccount.tracks hroll
    rw [haccount.delay] at hfiled
    refine haccount.update rfl rfl hsettings htracks hfiled ?_ trivial
    intro q heq
    obtain rfl := Policy.timed.inj heq
    exact hall.rolledAt o.delay (w.now p.clock)

/-- **Before a line** the account changes as it does in whatever form archives are kept. -/
theorem prepare (haccount : Account g o d x a s w.files)
    (hprepare : s.prepare text w = (.ok (), s', w')) :
    Account g o d x (Holdings.prepared o.delay (s.lineLength text) w.now a) s' w'.files := by
  obtain ⟨policy, h⟩ := a
  cases policy with
  | size p => exact haccount.prepare_size hprepare
  | timed p => exact haccount.prepare_timed hprepare
  | never | watched p => exact absurd haccount.putsAside id

/-- **A line**, as long as nothing fails. -/
theorem emit (haccount : Account g o d x a s w.files) (hok : (s.prepare text w).1 = .ok ())
    (hemit : s.emit text w = (.ok (), s', w')) :
    Account g o d x (Holdings.emitted o.delay text o.terminator w.now a) s' w'.files := by
  obtain ⟨s₁, w₁, f, hprepare, hwrite, rfl⟩ := FileSink.emit_ok hok hemit
  have haccount₁ := haccount.prepare hprepare
  have hlength : s.lineLength text = (lineBytes text o.terminator).length := by
    rw [length_lineBytes, FileSink.lineLength, haccount.terminator]
  rw [hlength] at haccount₁
  rw [haccount₁.terminator] at hwrite
  obtain ⟨hfiled, hsettings, htracks⟩ :=
    haccount₁.filed.writeLine haccount₁.path haccount₁.tracks hwrite
  exact haccount₁.update haccount₁.policy rfl hsettings htracks hfiled haccount₁.stamped
    haccount₁.putsAside

/-- A sink that is made in an empty directory holds no archive, and no live file if that is
    left to the first line. -/
theorem build (hnamer : o.namer? = g.namer?) (hrotator : o.rotator? = g.rotator?)
    (hpolicy : o.policy? = some policy) (hputs : PutsAside policy)
    (hvacant : Vacant o.path d x w.files) (hbuild : FileSink.build o w = (.ok s, w')) :
    Account g o d x (s.policy, ({} : Holdings).reopened o.delay) s w'.files ∧
      s.policy = policy.attach s.file w' := by
  obtain ⟨f, hrenewed, hfile, hattached, hterminator⟩ := FileSink.build_ok hpolicy hbuild
  obtain ⟨hfiled, hsettings, htracks⟩ :=
    (Filed.of_vacant (g := g) hvacant).reopened rfl o.liveFile_tracks hrenewed
  refine ⟨⟨rfl, ?_, ?_, hterminator, ?_, ?_, hfiled, ?_, ?_⟩, hattached⟩
  · rw [hfile]
    exact hsettings.path
  · rw [hfile]
    exact hsettings.delay
  · rw [hfile]
    exact ⟨hnamer, hrotator⟩
  · rw [hfile]
    exact ⟨htracks.mode, htracks.handle⟩
  · -- Nothing is held under a suffix.
    intro p _ k hk
    unfold Holdings.reopened at hk
    split at hk <;> exact absurd hk Finmap.notMem_empty
  · rw [hattached]
    cases policy with
    | size p | timed p => trivial
    | never | watched p => exact hputs.elim

end Account

/-! ## Runs -/

/-- **Feeding**: a text, and what the clocks show when it comes. -/
structure Feeding where
  text : String
  now : Int
  clocks : Array Time.Instant := #[]

namespace Feeding

/-- The world when a text comes. -/
def arrive (e : Feeding) (w : World) : World :=
  { w with files := { w.files with now := e.now }, clocks := e.clocks }

/-- What the clocks show does not depend on the rest of the world. -/
theorem now_arrive (e : Feeding) (w : World) : (e.arrive w).now = (e.arrive {}).now := by
  funext c
  cases c <;> rfl

end Feeding

/-- A sink takes a text, if nothing fails. -/
def feed (a : FileSink × World) (e : Feeding) : Option (FileSink × World) :=
  let w := e.arrive a.2
  if (a.1.prepare e.text w).1.isOk ∧ (a.1.emit e.text w).1.isOk then some (a.1.emit e.text w).2
  else none

namespace Account

variable {g : Filing} {o : FileSinkOptions} {d : Location} {x : String} {a : Policy × Holdings}
  {s s' : FileSink} {w w' : World} {fs : FileSystem}

/-- To set the clocks changes nothing that is held. -/
theorem arrive (haccount : Account g o d x a s w.files) (e : Feeding) :
    Account g o d x a s (e.arrive w).files := by
  have hentries : (e.arrive w).files.entries = w.files.entries := rfl
  have hbytes : (e.arrive w).files.bytesAt (d ++ [x]) = w.files.bytesAt (d ++ [x]) :=
    bytesAt_congr rfl fun _ _ => rfl
  exact haccount.update haccount.policy rfl (.refl _) (haccount.tracks.congr rfl hbytes)
    (haccount.filed.congr hentries rfl) haccount.stamped haccount.putsAside

/-- **One text.** -/
theorem feed {e : Feeding} (haccount : Account g o d x a s w.files)
    (hfeed : feed (s, w) e = some (s', w')) :
    Account g o d x (Holdings.emitted o.delay e.text o.terminator (e.arrive {}).now a) s' w'.files := by
  unfold Rotation.feed at hfeed
  dsimp only at hfeed
  split at hfeed
  · next hline =>
    obtain ⟨hok, hemit⟩ := hline
    rw [← e.now_arrive w]
    refine (haccount.arrive e).emit (eq_ok_of_isOk hok) (Prod.ext (eq_ok_of_isOk hemit) ?_)
    exact Option.some.inj hfeed
  · cases hfeed

/-- **A run**: the account at its end is that at its start with one line after the other. -/
theorem run {feedings : List Feeding} (haccount : Account g o d x a s w.files)
    (hrun : feedings.foldlM Rotation.feed (s, w) = some (s', w')) :
    Account g o d x (feedings.foldl (fun a e =>
      Holdings.emitted o.delay e.text o.terminator (e.arrive {}).now a) a) s' w'.files := by
  induction feedings generalizing a s w with
  | nil =>
    obtain ⟨rfl, rfl⟩ := Prod.mk.inj (Option.some.inj hrun)
    exact haccount
  | cons e feedings ih =>
    rw [List.foldlM_cons] at hrun
    obtain ⟨⟨s₁, w₁⟩, hfeed, hrest⟩ := Option.bind_eq_some_iff.mp hrun
    exact ih (haccount.feed hfeed) hrest

end Account

/-! ## Two directories that tell the same -/

/-- The names in a directory besides that of the live file. -/
def archiveNames (fs : FileSystem) (d : Location) (x : String) : List String :=
  (fs.childNames d).filter (· ≠ x)

/-- **Mirrored**: the live files of two directories are the same, the names of the archives
    in the second are those in the first with an extension, what an archive in the second
    holds decompresses to what the one in the first holds, and no temporary file is left. -/
structure Mirrored (decompress? : List UInt8 → Option (List UInt8)) (x : String) (d : Location)
    (fs : FileSystem) (d' : Location) (fs' : FileSystem) : Prop where
  live : fs'.fileAt? (d' ++ [x]) = fs.fileAt? (d ++ [x])
  names : (archiveNames fs' d' x).Perm ((archiveNames fs d x).map (· ++ ".gz"))
  contents : ∀ y ∈ archiveNames fs d x, ∃ bytes stored, fs.fileAt? (d ++ [y]) = some bytes ∧
    fs'.fileAt? (d' ++ [y ++ ".gz"]) = some stored ∧ decompress? stored = some bytes
  swept : ∀ y, y ++ ".tmp" ∈ fs'.childNames d' → y ++ ".tmp" = x

section Mirrored

variable {g : Filing} {path path' : Path} {d d' : Location} {x y k : String} {h : Holdings}
  {fs fs' : FileSystem} {compress : List UInt8 → List UInt8}
  {decompress? : List UInt8 → Option (List UInt8)}

/-- The names of archives are those of what is held. -/
theorem Filed.mem_archiveNames (hfiled : Filed g path d x h fs) :
    y ∈ archiveNames fs d x ↔ ∃ k ∈ h.archives, y = g.name x k := by
  unfold archiveNames
  rw [List.mem_filter, decide_eq_true_eq]
  constructor
  · intro hy
    exact (hfiled.only y hy.1).resolve_left hy.2
  · intro hy
    obtain ⟨k, hk, rfl⟩ := hy
    obtain ⟨id, hid⟩ := hfiled.entry_of_mem hk
    exact ⟨mem_childNames_iff.mpr ⟨_, hid⟩, g.name_ne x k⟩

/-- A compressed archive has the name of the plain one with an extension. -/
theorem Filing.name_zipped (compress : List UInt8 → List UInt8) (x k : String) :
    (Filing.zipped compress).name x k = Filing.plain.name x k ++ ".gz" := by
  simp [Filing.name, Filing.extension, String.append_assoc]

/-- **Two directories that tell the same**, one with plain archives and one with compressed
    ones. -/
theorem Filed.mirrored (hinverse : ∀ bytes, decompress? (compress bytes) = some bytes)
    (hfiled : Filed .plain path d x h fs) (hfiled' : Filed (.zipped compress) path' d' x h fs') :
    Mirrored decompress? x d fs d' fs' := by
  refine ⟨hfiled'.live.trans hfiled.live.symm, ?_, ?_, ?_⟩
  · have hnodup' : (archiveNames fs' d' x).Nodup := hfiled'.nodup.filter _
    -- The names of the archives differ by the ending alone, so they can be compared one by one.
    have hnodup : ((archiveNames fs d x).map (· ++ ".gz")).Nodup := by
      refine (hfiled.nodup.filter _).map ?_
      intro y z heq
      have hlist := congrArg String.toList heq
      simp only [String.toList_append] at hlist
      exact String.toList_inj.mp (List.append_cancel_right hlist)
    refine (List.perm_ext_iff_of_nodup hnodup' hnodup).mpr fun z => ?_
    rw [hfiled'.mem_archiveNames, List.mem_map]
    constructor
    · intro hz
      obtain ⟨k, hk, rfl⟩ := hz
      exact ⟨_, hfiled.mem_archiveNames.mpr ⟨k, hk, rfl⟩, (Filing.name_zipped compress x k).symm⟩
    · intro hz
      obtain ⟨y, hy, rfl⟩ := hz
      obtain ⟨k, hk, rfl⟩ := hfiled.mem_archiveNames.mp hy
      exact ⟨k, hk, (Filing.name_zipped compress x k).symm⟩
  · intro y hy
    obtain ⟨k, hk, rfl⟩ := hfiled.mem_archiveNames.mp hy
    obtain ⟨bytes, hbytes⟩ := Finmap.mem_iff.mp hk
    refine ⟨bytes, compress bytes, ?_, ?_, hinverse bytes⟩
    · rw [hfiled.held, hbytes]
      rfl
    · rw [← Filing.name_zipped compress, hfiled'.held, hbytes]
      rfl
  · -- No archive of the one directory is the live file of the other, by its last letter.
    intro y hy
    refine (hfiled'.only _ hy).resolve_right ?_
    intro harchive
    obtain ⟨k, -, heq⟩ := harchive
    rw [Filing.name_zipped] at heq
    have hlast := congrArg (fun s : String => s.toList.getLast?) heq
    simp at hlast

end Mirrored

/-! ## Compressed rotation -/

/-- A policy that puts the live file aside starts from the last change of the live file and
    what its clock shows, and from nothing else. -/
theorem attach_congr {policy : Policy} (hputs : PutsAside policy) {f f' : LogFile} {w w' : World}
    (hclocks : ∀ c, w'.now c = w.now c)
    (hcreated : w'.files.modified? f'.path = w.files.modified? f.path) :
    policy.attach f' w' = policy.attach f w := by
  cases policy with
  | size p => rfl
  | timed p => simp only [Policy.attach, TimedRotation.attach, hclocks, hcreated]
  | never | watched p => exact hputs.elim

/-- **Compressed rotation is plain rotation under gzip.**  Two sinks start in empty
    directories with the same policy, by size or at set times, one of them with compressed
    archives.  They take the same texts at the same times, the live file has been created at
    the same time, and nothing fails: then the directory of the one mirrors that of the
    other after every line, if decompression undoes compression. -/
theorem compressed_mirrors_plain {compress : List UInt8 → List UInt8}
    {decompress? : List UInt8 → Option (List UInt8)}
    (hinverse : ∀ bytes, decompress? (compress bytes) = some bytes)
    {o : FileSinkOptions} {path' : Path} {d d' : Location} {x : String}
    {w₀ w₀' w₁ w₁' w w' : World} {s₀ s₀' s s' : FileSink} {feedings : List Feeding}
    (hpolicy : (∃ p, o.policy? = some (.size p)) ∨ ∃ p, o.policy? = some (.timed p))
    (hnamer : o.namer? = none) (hrotator : o.rotator? = none)
    (hvacant : Vacant o.path d x w₀.files) (hvacant' : Vacant path' d' x w₀'.files)
    (hbuild : FileSink.build o w₀ = (.ok s₀, w₁))
    (hbuild' : FileSink.build ({ o with path := path' }.compressedBy compress) w₀' = (.ok s₀', w₁'))
    (hclocks : ∀ c, w₁'.now c = w₁.now c)
    (hcreated : w₁'.files.modified? path' = w₁.files.modified? o.path)
    (hrun : feedings.foldlM feed (s₀, w₁) = some (s, w))
    (hrun' : feedings.foldlM feed (s₀', w₁') = some (s', w')) :
    Mirrored decompress? x d w.files d' w'.files := by
  obtain ⟨policy, hpolicy, hputs⟩ : ∃ policy, o.policy? = some policy ∧ PutsAside policy := by
    obtain ⟨p, hp⟩ | ⟨p, hp⟩ := hpolicy
    · exact ⟨_, hp, trivial⟩
    · exact ⟨_, hp, trivial⟩
  obtain ⟨haccount, hattach⟩ :=
    Account.build (g := .plain) hnamer hrotator hpolicy hputs hvacant hbuild
  obtain ⟨haccount', hattach'⟩ := Account.build (g := .zipped compress)
    (o := { o with path := path' }.compressedBy compress) rfl rfl hpolicy hputs hvacant' hbuild'
  -- Both start with one policy, and so with one account.
  have hsame : s₀'.policy = s₀.policy := by
    rw [hattach, hattach']
    refine attach_congr hputs hclocks ?_
    rw [haccount.path, haccount'.path]
    exact hcreated
  rw [hsame] at haccount'
  exact Filed.mirrored hinverse (haccount.run hrun).filed (haccount'.run hrun').filed

/-- Two lines, ten seconds apart: the first is in an archive. -/
theorem compressed_mirrors_plain_after_ten_seconds :
    let o : FileSinkOptions :=
      { path := ⟨"timed.log"⟩, delay := true, policy? := some (.timed everyTenSeconds) }
    let w₀ : World := { clocks := #[{ seconds := 1709287200 }] }
    let feedings : List Feeding :=
      [⟨"first", 0, #[{ seconds := 1709287200 }]⟩, ⟨"second", 0, #[{ seconds := 1709287210 }]⟩]
    ∃ s₀ s₀' a b, FileSink.build o w₀ = (.ok s₀, w₀) ∧ FileSink.build o.compressed w₀ = (.ok s₀', w₀) ∧
      feedings.foldlM feed (s₀, w₀) = some a ∧ feedings.foldlM feed (s₀', w₀) = some b ∧
      archiveNames a.2.files [] "timed.log" = ["timed.log.2024-03-01_10-00-00"] ∧
      Mirrored Gzip.decompress? "timed.log" [] a.2.files [] b.2.files := by
  intro o w₀ feedings
  have hvacant : Vacant o.path [] "timed.log" w₀.files :=
    ⟨⟨by decide, by decide⟩, ⟨by decide, by decide, by decide⟩, by decide +kernel, rfl⟩
  let f : LogFile := { path := ⟨"timed.log"⟩, delay := true }
  let f' : LogFile := { f with
    namer? := some Compressed.name, rotator? := some (Compressed.putAsideBy Gzip.compress) }
  obtain ⟨s₀, hs₀⟩ : ∃ s₀ : FileSink,
      s₀ = { file := f, policy := .timed (everyTenSeconds.attach f w₀) } := ⟨_, rfl⟩
  obtain ⟨s₀', hs₀'⟩ : ∃ s₀' : FileSink,
      s₀' = { file := f', policy := .timed (everyTenSeconds.attach f' w₀) } := ⟨_, rfl⟩
  have hbuild : FileSink.build o w₀ = (.ok s₀, w₀) := by
    rw [hs₀]
    rfl
  have hbuild' : FileSink.build o.compressed w₀ = (.ok s₀', w₀) := by
    rw [hs₀']
    rfl
  have hplain : (feedings.foldlM feed (s₀, w₀)).map
      (fun a => archiveNames a.2.files [] "timed.log") = some ["timed.log.2024-03-01_10-00-00"] := by
    rw [hs₀]
    decide +kernel
  have hzipped : (feedings.foldlM feed (s₀', w₀)).isSome = true := by
    rw [hs₀']
    decide +kernel
  obtain ⟨a, ha, hnames⟩ := Option.map_eq_some_iff.mp hplain
  obtain ⟨b, hb⟩ := Option.isSome_iff_exists.mp hzipped
  refine ⟨s₀, s₀', a, b, hbuild, hbuild', ha, hb, hnames, ?_⟩
  exact compressed_mirrors_plain (o := o) Gzip.decompress?_compress (.inr ⟨_, rfl⟩) rfl rfl hvacant
    hvacant hbuild hbuild' (fun _ => rfl) rfl ha hb

end Rotation

end Logbook
