import Logbook.Proofs.Files.Held
import Logbook.Proofs.Rotation.Holdings
import Logbook.Proofs.Rotation.Succession
import Logbook.Sink.File

/-! # How archives are filed

    A sink files its archives as they are, or compressed under longer names.  A directory
    that holds nothing but the live file and its archives tells what the sink holds, and
    every step of a rollover makes of it a directory that tells what is held afterwards.
    So the two ways of filing differ in names and in form, and in nothing else.
-/

namespace Logbook

open FileSystem LogFile

namespace Rotation

/-- **Filing**: archives are kept as they are, or in the form that a compressor gives
    them. -/
inductive Filing where
  | plain
  | zipped (compress : List UInt8 → List UInt8)

namespace Filing

/-- What comes behind the suffix in the name of an archive. -/
def extension : Filing → String
  | plain => ""
  | zipped _ => ".gz"

/-- The form in which bytes are kept. -/
def form : Filing → List UInt8 → List UInt8
  | plain => id
  | zipped compress => compress

def namer? : Filing → Option Namer
  | plain => none
  | zipped _ => some Compressed.name

def rotator? : Filing → Option Rotator
  | plain => none
  | zipped compress => some (Compressed.putAsideBy compress)

/-- The name of an archive in the directory of the live file. -/
def name (g : Filing) (x k : String) : String := x ++ "." ++ (k ++ g.extension)

/-- The path of an archive. -/
def path (g : Filing) (p : Path) (k : String) : Path := ⟨p.text ++ "." ++ (k ++ g.extension)⟩

variable {g : Filing} {x k k' : String}

theorem name_inj : g.name x k = g.name x k' ↔ k = k' := by
  unfold name
  rw [suffix_inj]
  constructor
  · intro heq
    have hlist := congrArg String.toList heq
    rw [String.toList_append, String.toList_append] at hlist
    exact String.toList_inj.mp (List.append_cancel_right hlist)
  · intro heq
    rw [heq]

theorem name_ne (g : Filing) (x k : String) : g.name x k ≠ x := suffix_ne x _

/-- Of two suffixes of one length the greater one has the greater name. -/
theorem name_lt (g : Filing) (x : String) (hlen : k.toList.length = k'.toList.length)
    (hlt : k < k') : g.name x k < g.name x k' := by
  refine suffix_lt ?_
  rw [String.lt_iff_toList_lt] at hlt ⊢
  rw [String.toList_append, String.toList_append]
  exact Time.Pattern.append_lt_append hlt hlen _ _

/-- **Archives are known again** in every way of filing: the extension is one that may
    follow a time. -/
theorem isArchiveName_name {unit : Period} (h : Stamped unit k) :
    isArchiveName unit x (g.name x k) = isTime unit k := by
  -- Neither extension has a character that would go on with a time.
  have hextension : isExtension g.extension.toList = true := by
    cases g with
    | plain => rfl
    | zipped _ => show isExtension ".gz".toList = true; decide
  have hname : (g.name x k).toList = x.toList ++ '.' :: (k.toList ++ g.extension.toList) := by
    simp [name]
  -- Only what follows the name of the live file and a dot is matched.
  have hmatches : isArchiveName unit x (g.name x k) = true ↔
      matchesShape unit.shape (k.toList ++ g.extension.toList) = true := by
    rw [isArchiveName_iff]
    constructor
    · intro h
      obtain ⟨s, hs, hmatches⟩ := h
      rw [hname] at hs
      rw [(List.cons.inj (List.append_cancel_left hs)).2]
      exact hmatches
    · exact fun h => ⟨_, hname, h⟩
  rw [Bool.eq_iff_iff, hmatches, isTime_iff]
  unfold matchesShape
  cases h with
  | inl htime =>
    rw [isTime_iff] at htime
    rw [afterShape_append htime, htime]
    exact iff_of_true hextension rfl
  | inr hsign =>
    obtain ⟨c, s, hk, hc⟩ := hsign
    -- A suffix that begins with another character than a time does is none, whatever follows.
    rw [hk, List.cons_append, afterShape_of_sign unit hc, afterShape_of_sign unit hc]
    simp

end Filing

/-- A suffix that can stand in a name. -/
def Nameable (k : String) : Prop := '/' ∉ k.toList ∧ '\x00' ∉ k.toList

theorem nameable_toString (n : Nat) : Nameable (toString n) :=
  ⟨not_mem_toString rfl n, not_mem_toString rfl n⟩

theorem Nameable.append {k e : String} (h : Nameable k) (h' : Nameable e) : Nameable (k ++ e) := by
  unfold Nameable at *
  simp only [String.toList_append, List.mem_append]
  tauto

theorem Filing.nameable_extension (g : Filing) : Nameable g.extension := by
  have hnone : Nameable "" := ⟨by decide, by decide⟩
  have hgz : Nameable ".gz" := ⟨by decide, by decide⟩
  cases g with
  | plain => exact hnone
  | zipped _ => exact hgz

/-! ## Directories -/

/-- A name that starts with that of the live file. -/
def startsWith (x y : String) : Bool := x.toList.isPrefixOf y.toList

theorem startsWith_self (x : String) : startsWith x x = true :=
  List.isPrefixOf_iff_prefix.mpr (List.prefix_refl _)

theorem startsWith_suffix (x k : String) : startsWith x (x ++ "." ++ k) = true := by
  refine List.isPrefixOf_iff_prefix.mpr ?_
  rw [String.toList_append, String.toList_append, List.append_assoc]
  exact List.prefix_append _ _

/-- **Filed**: the directory of a live file has what is held under the names of the filing,
    and nothing else.  Every name there is short enough to be asked for. -/
structure Filed (g : Filing) (path : Path) (d : Location) (x : String) (h : Holdings)
    (fs : FileSystem) : Prop where
  site : Site path d x (startsWith x) fs
  nodup : (fs.childNames d).Nodup
  live : fs.fileAt? (d ++ [x]) = h.live?
  held : ∀ k, fs.fileAt? (d ++ [g.name x k]) = (h.archives.lookup k).map g.form
  only : ∀ y ∈ fs.childNames d, y = x ∨ ∃ k ∈ h.archives, y = g.name x k
  short : h.live? ≠ none → isTooLong x = false
  fits : ∀ k ∈ h.archives, checkLength (g.path path k) = .ok () ∧ isTooLong (g.name x k) = false

variable {g : Filing} {path : Path} {d : Location} {x k k' : String} {h : Holdings}
  {fs fs' : FileSystem} {f f' : LogFile} {w w' : World} {bytes : List UInt8}

namespace Filed

/-- The path of an archive leads to its name, whatever becomes of the names that start with
    that of the live file. -/
theorem leads_of_same (hfiled : Filed g path d x h fs) (hk : Nameable k)
    (hsame : SameOutside d (startsWith x) fs fs') : fs'.Leads (g.path path k) d (g.name x k) := by
  obtain ⟨hslash, hnull⟩ := hk.append g.nameable_extension
  exact hsame.leads (hfiled.site.way.suffix hslash hnull)

theorem leads (hfiled : Filed g path d x h fs) (hk : Nameable k) :
    fs.Leads (g.path path k) d (g.name x k) := hfiled.leads_of_same hk (.refl _ _ _)

/-- Under a name that is not that of the live file there is an archive, if anything. -/
theorem mem_of_entry (hfiled : Filed g path d x h fs) {e : Entry}
    (he : fs.entryAt? (d ++ [g.name x k]) = some e) : k ∈ h.archives := by
  cases hfiled.only _ (mem_childNames_iff.mpr ⟨e, he⟩) with
  | inl hlive => exact absurd hlive (g.name_ne x k)
  | inr harchive =>
    obtain ⟨k', hk', heq⟩ := harchive
    rw [Filing.name_inj.mp heq]
    exact hk'

/-- An archive that is held is a file. -/
theorem entry_of_mem (hfiled : Filed g path d x h fs) (hk : k ∈ h.archives) :
    ∃ id, fs.entryAt? (d ++ [g.name x k]) = some (.file id) := by
  obtain ⟨bytes, hbytes⟩ := Finmap.mem_iff.mp hk
  have hfile := hfiled.held k
  rw [hbytes, Option.map_some, fileAt?_eq_some_iff] at hfile
  obtain ⟨id, hid, -⟩ := hfile
  exact ⟨id, hid⟩

/-- A live file that is held is a file that can be asked for. -/
theorem shown_of_live (hfiled : Filed g path d x h fs) (hlive : h.live? = some bytes) :
    ∃ id, fs.shown path d x = some (.file id) ∧ fs.bytesAt (d ++ [x]) = bytes := by
  have hfile := hfiled.live
  rw [hlive, fileAt?_eq_some_iff] at hfile
  obtain ⟨id, hid, hbytes⟩ := hfile
  have hshort := hfiled.short (by rw [hlive]; simp)
  exact ⟨id, shown_eq_some_iff.mpr ⟨⟨hfiled.site.length, hshort⟩, hid⟩, hbytes⟩

/-- The live file exists if it is held. -/
theorem exists_live (hfiled : Filed g path d x h fs) : fs.exists? path = h.live?.isSome := by
  rw [Bool.eq_iff_iff]
  constructor
  · intro hexists
    obtain ⟨e, he⟩ := hfiled.site.leads.shown_of_exists hexists
    rw [← hfiled.live, hfiled.site.plain.fileAt?_isSome, (shown_eq_some_iff.mp he).2]
    rfl
  · intro hlive
    obtain ⟨bytes, hbytes⟩ := Option.isSome_iff_exists.mp hlive
    obtain ⟨id, hid, -⟩ := hfiled.shown_of_live hbytes
    exact hfiled.site.leads.exists_of_shown hid (by simp)

/-- An archive exists if it is held. -/
theorem exists_archive (hfiled : Filed g path d x h fs) (hk : Nameable k) :
    fs.exists? (g.path path k) = true ↔ k ∈ h.archives := by
  constructor
  · intro hexists
    obtain ⟨e, he⟩ := (hfiled.leads hk).shown_of_exists hexists
    exact hfiled.mem_of_entry (shown_eq_some_iff.mp he).2
  · intro hmem
    obtain ⟨id, hid⟩ := hfiled.entry_of_mem hmem
    exact (hfiled.leads hk).exists_of_shown
      (shown_eq_some_iff.mpr ⟨hfiled.fits k hmem, hid⟩) (by simp)

/-- Trees with the same entries and data are filed alike. -/
theorem congr (hfiled : Filed g path d x h fs) (hentries : fs'.entries = fs.entries)
    (hdata : fs'.data = fs.data) : Filed g path d x h fs' := by
  have hentry : ∀ l, fs'.entryAt? l = fs.entryAt? l := entryAt?_congr hentries
  have hnames := childNames_congr hentries d
  refine ⟨?_, hnames ▸ hfiled.nodup, ?_, ?_, hnames ▸ hfiled.only, hfiled.short, hfiled.fits⟩
  · refine hfiled.site.congr (.of_entries hentries)
      (hfiled.site.sound.congr hentries (by rw [hdata])) ?_
    intro e he
    rw [hentry] at he
    exact hfiled.site.plain e he
  · rw [fileAt?_of_data hdata (hentry _), hfiled.live]
  · intro k
    rw [fileAt?_of_data hdata (hentry _), hfiled.held]

/-! ## Archives that are removed and moved -/

/-- The name of an archive is taken away. -/
theorem take (hfiled : Filed g path d x h fs) (k : String) :
    Filed g path d x (h.without k) (fs.take (d ++ [g.name x k])) := by
  refine ⟨?_, nodup_childNames_take hfiled.nodup _, ?_, ?_, ?_, hfiled.short, ?_⟩
  · refine hfiled.site.congr (.take fs (startsWith_suffix x _)) (hfiled.site.sound.take _) ?_
    intro e he
    rw [entryAt?_take (child_ne_nil d _), if_neg fun heq => g.name_ne x k (child_inj.mp heq).symm] at he
    exact hfiled.site.plain e he
  · rw [fileAt?_take_child, if_neg (g.name_ne x k).symm, hfiled.live]
    rfl
  · intro k'
    rw [fileAt?_take_child]
    -- Different suffixes have different names, so that no other archive is taken away.
    by_cases hk : k' = k
    · subst hk
      rw [if_pos rfl, Holdings.without, Finmap.lookup_erase]
      rfl
    · rw [if_neg fun heq => hk (Filing.name_inj.mp heq), hfiled.held, Holdings.without,
        Finmap.lookup_erase_ne hk]
  · -- The names that are left are those of the other archives.
    intro y hy
    obtain ⟨hne, hthere⟩ := mem_childNames_take.mp hy
    refine (hfiled.only y hthere).imp_right ?_
    rintro ⟨k', hk', rfl⟩
    refine ⟨k', Finmap.mem_erase.mpr ⟨?_, hk'⟩, rfl⟩
    rintro rfl
    exact hne rfl
  · intro k' hk'
    exact hfiled.fits k' (Finmap.mem_erase.mp hk').2

/-- The names of archives are taken away one after the other. -/
theorem takeAll (hfiled : Filed g path d x h fs) (ks : List String) :
    Filed g path d x (ks.foldl (fun h k => h.without k) h) (fs.takeAll d (ks.map (g.name x))) := by
  induction ks generalizing h fs with
  | nil => exact hfiled
  | cons k ks ih => exact ih (hfiled.take k)

/-- **Room is made** for an archive. -/
theorem clear (hfiled : Filed g path d x h fs) (hk : Nameable k)
    (hclear : SizeRotation.clear (g.path path k) fs = (.ok (), fs')) :
    Filed g path d x (h.without k) fs' := by
  unfold SizeRotation.clear at hclear
  split at hclear
  · cases hremove : fs.removeFile (g.path path k) with
    | error e =>
      rw [hremove] at hclear
      cases (Prod.mk.inj hclear).1
    | ok fs₁ =>
      rw [hremove] at hclear
      obtain ⟨-, rfl⟩ := Prod.mk.inj hclear
      obtain ⟨e, -, -, rfl⟩ := (hfiled.leads hk).removeFile hremove
      exact hfiled.take k
  · next hnot =>
    obtain ⟨-, rfl⟩ := Prod.mk.inj hclear
    -- Nothing has the name, so there is nothing to be without.
    rw [Holdings.without_of_not_mem (mt (hfiled.exists_archive hk).mpr hnot)]
    exact hfiled

/-- **An archive gets another suffix**, which was free. -/
theorem move (hfiled : Filed g path d x h fs) (hheld : h.archives.lookup k = some bytes)
    (hne : k ≠ k') (hfits : checkLength (g.path path k') = .ok () ∧ isTooLong (g.name x k') = false) :
    Filed g path d x (h.moved k k') (fs.move (d ++ [g.name x k]) (d ++ [g.name x k'])) := by
  have hnames : g.name x k ≠ g.name x k' := fun heq => hne (Filing.name_inj.mp heq)
  have hentry := entryAt?_move_child (d := d) fs hnames
  have hfile := fileAt?_move_child (d := d) fs hnames
  have hmoved : h.moved k k' = { h with archives := (h.archives.erase k).insert k' bytes } := by
    rw [Holdings.moved, hheld]
  rw [hmoved]
  refine ⟨?_, nodup_childNames_move hfiled.nodup _ _, ?_, ?_, ?_, hfiled.short, ?_⟩
  · refine hfiled.site.congr (.move fs (startsWith_suffix x _) (startsWith_suffix x _))
      (hfiled.site.sound.move _ _) ?_
    intro e he
    rw [hentry, if_neg (g.name_ne x k').symm, if_neg (g.name_ne x k).symm] at he
    exact hfiled.site.plain e he
  · rw [hfile, if_neg (g.name_ne x k').symm, if_neg (g.name_ne x k).symm, hfiled.live]
  · intro j
    rw [hfile]
    -- The new suffix has what the old one had, which is free now; the others are untouched.
    by_cases hj' : j = k'
    · subst hj'
      rw [if_pos rfl, hfiled.held, hheld, Finmap.lookup_insert]
    · rw [if_neg fun heq => hj' (Filing.name_inj.mp heq), Finmap.lookup_insert_of_ne _ hj']
      by_cases hj : j = k
      · subst hj
        rw [if_pos rfl, Finmap.lookup_erase]
        rfl
      · rw [if_neg fun heq => hj (Filing.name_inj.mp heq), hfiled.held, Finmap.lookup_erase_ne hj]
  · -- The old name is gone, the new one is there, and the others are what they were.
    intro y hy
    obtain ⟨hne, hnew | hold⟩ := of_mem_childNames_move hnames hy
    · exact .inr ⟨k', Finmap.mem_insert.mpr (.inl rfl), hnew⟩
    · refine (hfiled.only y hold).imp_right ?_
      rintro ⟨j, hj, rfl⟩
      have hjk : j ≠ k := fun heq => hne (heq ▸ rfl)
      exact ⟨j, Finmap.mem_insert.mpr (.inr (Finmap.mem_erase.mpr ⟨hjk, hj⟩)), rfl⟩
  · intro j hj
    cases Finmap.mem_insert.mp hj with
    | inl heq => exact heq ▸ hfits
    | inr hold => exact hfiled.fits j (Finmap.mem_erase.mp hold).2

/-! ## The live file put aside -/

/-- **Stowed**: the live file is gone, what it held is under a suffix in the form of the
    filing, and nothing else has come into the directory. -/
theorem stow (hfiled : Filed g path d x h fs) (hlive : h.live? = some bytes)
    (hsame : SameOutside d (startsWith x) fs fs') (hsound : fs'.Sound)
    (hnodup : (fs'.childNames d).Nodup)
    (hfile : ∀ y, fs'.fileAt? (d ++ [y]) = if y = x then none
      else if y = g.name x k then some (g.form bytes) else fs.fileAt? (d ++ [y]))
    (hnames : ∀ y ∈ fs'.childNames d, y ≠ x ∧ (y = g.name x k ∨ y ∈ fs.childNames d))
    (hfits : checkLength (g.path path k) = .ok () ∧ isTooLong (g.name x k) = false) :
    Filed g path d x (h.stowed k) fs' := by
  have hstowed : h.stowed k = { archives := h.archives.insert k bytes } := by
    rw [Holdings.stowed, hlive]
  rw [hstowed]
  refine ⟨hfiled.site.congr hsame hsound ?_, hnodup, ?_, ?_, ?_, ?_, ?_⟩
  · intro e he
    exact absurd rfl (hnames x (mem_childNames_iff.mpr ⟨e, he⟩)).1
  · rw [hfile, if_pos rfl]
  · -- What the live file held is the archive, and the others are what they were.
    intro j
    rw [hfile, if_neg (g.name_ne x j)]
    by_cases hj : j = k
    · subst hj
      rw [if_pos rfl, Finmap.lookup_insert]
      rfl
    · rw [if_neg fun heq => hj (Filing.name_inj.mp heq), hfiled.held,
        Finmap.lookup_insert_of_ne _ hj]
  · -- The live file is not among the names any more.
    intro y hy
    obtain ⟨hyx, hnew | hold⟩ := hnames y hy
    · exact .inr ⟨k, Finmap.mem_insert.mpr (.inl rfl), hnew⟩
    · obtain ⟨j, hj, hyj⟩ := (hfiled.only y hold).resolve_left hyx
      exact .inr ⟨j, Finmap.mem_insert.mpr (.inr hj), hyj⟩
  · intro hnone
    exact absurd rfl hnone
  · intro j hj
    cases Finmap.mem_insert.mp hj with
    | inl heq => exact heq ▸ hfits
    | inr hold => exact hfiled.fits j hold

/-- **A plain archive** is the live file under another name. -/
theorem putAside_plain (hfiled : Filed .plain path d x h w.files) (hpath : f.path = path)
    (hrotator : f.rotator? = none) (hk : Nameable k) (hfree : k ∉ h.archives)
    (hput : f.putAside f.path (Filing.plain.path path k) w = (.ok (), w')) :
    Filed .plain path d x (h.stowed k) w'.files := by
  rw [LogFile.putAside, hrotator, hpath] at hput
  dsimp only at hput
  have hexists := hfiled.exists_live
  cases hlive : h.live? with
  -- Without a live file nothing is moved, and there is nothing to stow.
  | none =>
    rw [hexists, hlive] at hput
    obtain ⟨-, rfl⟩ := Prod.mk.inj hput
    rw [Holdings.stowed_of_none hlive hfree]
    exact hfiled
  | some bytes =>
    rw [hexists, hlive, Option.isSome_some, if_pos rfl] at hput
    cases hrename : w.files.renameReplacing path (Filing.plain.path path k) with
    | mk r fs₁ =>
      rw [hrename] at hput
      obtain ⟨rfl, rfl⟩ := Prod.mk.inj hput
      have hne : x ≠ Filing.plain.name x k := (Filing.plain.name_ne x k).symm
      -- The suffix is not in use, so that nothing is replaced.
      have hno : w.files.exists? (Filing.plain.path path k) = false := by
        rw [Bool.eq_false_iff]
        exact mt (hfiled.exists_archive hk).mp hfree
      obtain ⟨e, herror, -⟩ | ⟨-, rfl, -, hfits⟩ :=
        renameReplacing_spec hfiled.site.leads (hfiled.leads hk) hne hno hrename
      · cases herror
      · refine hfiled.stow hlive (.move _ (startsWith_self x) (startsWith_suffix x _))
          (hfiled.site.sound.move _ _) (nodup_childNames_move hfiled.nodup _ _) ?_ ?_ hfits
        · intro y
          show (w.files.move _ _).fileAt? _ = _
          rw [fileAt?_move_child _ hne, hfiled.live, hlive]
          by_cases hy : y = Filing.plain.name x k
          · rw [if_pos hy, if_neg (hy ▸ hne.symm), if_pos hy]
            rfl
          · rw [if_neg hy, if_neg hy]
        · exact fun y hy => of_mem_childNames_move hne hy

/-! ## The live file compressed -/

/-- The name under which a compressed archive is written before it is there. -/
def unfinishedName (x k : String) : String := x ++ "." ++ (k ++ ".gz.tmp")

/-- The path of that name. -/
def unfinished (path : Path) (k : String) : Path := ⟨path.text ++ "." ++ (k ++ ".gz.tmp")⟩

theorem temporary_eq (compress : List UInt8 → List UInt8) (path : Path) (k : String) :
    Compressed.temporary ((Filing.zipped compress).path path k) = unfinished path k := by
  have hgz : ".gz" ++ ".tmp" = ".gz.tmp" := by decide
  simp only [Compressed.temporary, unfinished, Filing.path, Filing.extension, String.append_assoc,
    hgz]

theorem unfinishedName_ne (x k : String) : unfinishedName x k ≠ x := suffix_ne x _

theorem startsWith_unfinishedName (x k : String) : startsWith x (unfinishedName x k) = true :=
  startsWith_suffix x _

/-- No archive has the name of an unfinished one. -/
theorem unfinishedName_ne_name (compress : List UInt8 → List UInt8) (x k k' : String) :
    unfinishedName x k ≠ (Filing.zipped compress).name x k' := by
  unfold unfinishedName Filing.name
  rw [Ne, suffix_inj]
  intro heq
  have hlast := congrArg (fun s : String => s.toList.getLast?) heq
  simp [Filing.extension] at hlast

variable {compress : List UInt8 → List UInt8} {stored : List UInt8} {fs₁ fs₂ : FileSystem}
  {id : FileId}

/-- The path of an unfinished archive leads to its name. -/
theorem leads_unfinished (hfiled : Filed g path d x h fs) (hk : Nameable k)
    (hsame : SameOutside d (startsWith x) fs fs') :
    fs'.Leads (unfinished path k) d (unfinishedName x k) := by
  have hgz : Nameable ".gz.tmp" := ⟨by decide, by decide⟩
  obtain ⟨hslash, hnull⟩ := hk.append hgz
  exact hsame.leads (hfiled.site.way.suffix hslash hnull)

/-- No unfinished archive is there. -/
theorem unfinished_free (hfiled : Filed (.zipped compress) path d x h fs) (k : String) :
    fs.entryAt? (d ++ [unfinishedName x k]) = none := by
  cases hentry : fs.entryAt? (d ++ [unfinishedName x k]) with
  | none => rfl
  | some e =>
    cases hfiled.only _ (mem_childNames_iff.mpr ⟨e, hentry⟩) with
    | inl hlive => exact absurd hlive (unfinishedName_ne x k)
    | inr harchive =>
      obtain ⟨k', -, heq⟩ := harchive
      exact absurd heq (unfinishedName_ne_name compress x k k')

/-- **The archive is written** under a name of its own, and nothing else changes. -/
theorem writeTemporary_spec (hfiled : Filed (.zipped compress) path d x h fs)
    (hk : Nameable k) (hlive : fs.entryAt? (d ++ [x]) = some (.file id))
    (hwrite : Compressed.writeTemporary compress (fun _ => none) path
      ((Filing.zipped compress).path path k) (.file id) fs = (.ok (), fs')) :
    Grows (d ++ [unfinishedName x k]) (compress (fs.bytesAt (d ++ [x]))) fs fs' ∧
      ∃ i, fs'.shown (unfinished path k) d (unfinishedName x k) = some (.file i) := by
  have hleads := hfiled.leads_unfinished hk (.refl _ _ _)
  have hfree := hfiled.unfinished_free k
  cases hopen : fs.openFile (Compressed.temporary ((Filing.zipped compress).path path k))
      .truncate with
  | error e =>
    simp only [Compressed.writeTemporary, Compressed.unlessRefused, hopen] at hwrite
    cases (Prod.mk.inj hwrite).1
  | ok result =>
    obtain ⟨fs₁, i⟩ := result
    have hopen' := hopen
    rw [temporary_eq] at hopen'
    obtain ⟨hfits, rfl, rfl⟩ := hleads.openFile_new hfree hopen'
    have hmade := Grows.create hfiled.site.sound (child_ne_nil d _) hfree
      { modified := fs.now } rfl
    have hthere : ((fs.allot { modified := fs.now }).1.put (d ++ [unfinishedName x k])
        (.file fs.data.size)).entryAt? (d ++ [unfinishedName x k]) = some (.file fs.data.size) :=
      (entryAt?_put (child_ne_nil d _) (.file fs.data.size) _).trans (if_pos rfl)
    -- The live file is read as it was.
    have hne : d ++ [x] ≠ d ++ [unfinishedName x k] :=
      fun heq => unfinishedName_ne x k (child_inj.mp heq).symm
    have hread := hmade.other _ hne
    rw [bytesAt_of_file ((hmade.entry _ hne).trans hlive)] at hread
    have hcontent : FileSystem.read _ (.file id) = .ok (fs.bytesAt (d ++ [x])) :=
      congrArg Except.ok hread
    rw [Compressed.writeTemporary_unrefused hopen hcontent] at hwrite
    obtain ⟨-, rfl⟩ := Prod.mk.inj hwrite
    refine ⟨hmade.trans (.append hmade.sound hthere), fs.data.size,
      shown_eq_some_iff.mpr ⟨hfits, ?_⟩⟩
    rw [entryAt?_congr (entries_append _ _ _), hthere]

/-- The archive comes under its name. -/
theorem rename_unfinished (hfiled : Filed (.zipped compress) path d x h fs) (hk : Nameable k)
    (hfree : k ∉ h.archives) (hgrows : Grows (d ++ [unfinishedName x k]) stored fs fs₁)
    (hrename : fs₁.renameReplacing (unfinished path k) ((Filing.zipped compress).path path k) =
      (.ok (), fs₂)) :
    fs₂ = fs₁.move (d ++ [unfinishedName x k]) (d ++ [(Filing.zipped compress).name x k]) ∧
      checkLength ((Filing.zipped compress).path path k) = .ok () ∧
      isTooLong ((Filing.zipped compress).name x k) = false := by
  have hsame := hgrows.sameOutside (startsWith_unfinishedName x k)
  have htarget := hfiled.leads_of_same hk hsame
  have hne := unfinishedName_ne_name compress x k k
  -- What was written under the temporary name does not make the name of the archive used.
  have hno : fs₁.exists? ((Filing.zipped compress).path path k) = false := by
    refine not_exists_of_free htarget ?_
    rw [hgrows.entry _ fun heq => hne (child_inj.mp heq).symm]
    cases hentry : fs.entryAt? (d ++ [(Filing.zipped compress).name x k]) with
    | none => rfl
    | some e => exact absurd (hfiled.mem_of_entry hentry) hfree
  obtain ⟨e, herror, -⟩ | ⟨-, hmove, -, hfits⟩ :=
    renameReplacing_spec (hfiled.leads_unfinished hk hsame) htarget hne hno hrename
  · cases herror
  · exact ⟨hmove, hfits⟩

/-- What is written under the one name and moved to the other is within the names that start
    with that of the live file. -/
theorem sameOutside_finished (compress : List UInt8 → List UInt8)
    (hgrows : Grows (d ++ [unfinishedName x k]) stored fs fs₁) :
    SameOutside d (startsWith x) fs
      (fs₁.move (d ++ [unfinishedName x k]) (d ++ [(Filing.zipped compress).name x k])) :=
  (hgrows.sameOutside (startsWith_unfinishedName x k)).trans
    (.move fs₁ (startsWith_unfinishedName x k) (startsWith_suffix x _))

/-- The live file can be removed after that. -/
theorem removeFile_finished (hfiled : Filed (.zipped compress) path d x h fs)
    (hshown : fs.shown path d x = some (.file id))
    (hgrows : Grows (d ++ [unfinishedName x k]) stored fs fs₁)
    (hmove : fs₂ = fs₁.move (d ++ [unfinishedName x k]) (d ++ [(Filing.zipped compress).name x k])) :
    fs₂.removeFile path = .ok (fs₂.take (d ++ [x])) := by
  obtain ⟨hshort, hentry⟩ := shown_eq_some_iff.mp hshown
  have hsame : SameOutside d (startsWith x) fs fs₂ := hmove ▸ sameOutside_finished compress hgrows
  have hstays : fs₂.entryAt? (d ++ [x]) = some (.file id) := by
    rw [hmove, entryAt?_move_child _ (unfinishedName_ne_name compress x k k),
      if_neg (Filing.name_ne _ x k).symm, if_neg (unfinishedName_ne x k).symm,
      hgrows.entry _ fun heq => unfinishedName_ne x k (child_inj.mp heq).symm, hentry]
  exact (hsame.leads hfiled.site.way).removeFile_eq_ok (shown_eq_some_iff.mpr ⟨hshort, hstays⟩)

/-- What has been written, moved and removed then amounts to a live file stowed. -/
theorem stow_zipped (hfiled : Filed (.zipped compress) path d x h fs) (hlive : h.live? = some bytes)
    (hgrows : Grows (d ++ [unfinishedName x k]) (compress bytes) fs fs₁)
    (hshown : fs₁.shown (unfinished path k) d (unfinishedName x k) = some (.file id))
    (hmove : fs₂ = fs₁.move (d ++ [unfinishedName x k]) (d ++ [(Filing.zipped compress).name x k]))
    (hfits : checkLength ((Filing.zipped compress).path path k) = .ok () ∧
      isTooLong ((Filing.zipped compress).name x k) = false) :
    Filed (.zipped compress) path d x (h.stowed k) (fs₂.take (d ++ [x])) := by
  subst hmove
  have hne := unfinishedName_ne_name compress x k k
  have hfree := hfiled.unfinished_free k
  have hstored : fs₁.fileAt? (d ++ [unfinishedName x k]) = some (compress bytes) := by
    rw [hgrows.fileAt?_here (fun e he => by rw [hfree] at he; cases he)
      (shown_eq_some_iff.mp hshown).2, fileAt?_of_none hfree]
    rfl
  refine hfiled.stow hlive ?_ ((hgrows.sound.move _ _).take _)
    (nodup_childNames_take (nodup_childNames_move (hgrows.nodup d hfiled.nodup) _ _) _) ?_ ?_ hfits
  · exact (sameOutside_finished compress hgrows).trans (.take _ (startsWith_self x))
  · -- The temporary name held what the archive holds now, and the live file is gone.
    intro y
    rw [fileAt?_take_child, fileAt?_move_child fs₁ hne]
    by_cases hyx : y = x
    · rw [if_pos hyx, if_pos hyx]
    · rw [if_neg hyx, if_neg hyx]
      by_cases hyk : y = (Filing.zipped compress).name x k
      · rw [if_pos hyk, if_pos hyk]
        exact hstored
      · rw [if_neg hyk, if_neg hyk]
        by_cases hytemp : y = unfinishedName x k
        · rw [if_pos hytemp, hytemp, fileAt?_of_none hfree]
        · rw [if_neg hytemp, hgrows.fileAt?_other fun heq => hytemp (child_inj.mp heq)]
  · -- The temporary name has come and gone, and the live file is gone.
    intro y hy
    obtain ⟨hyx, hmoved⟩ := mem_childNames_take.mp hy
    obtain ⟨hytemp, hyk | hwritten⟩ := of_mem_childNames_move hne hmoved
    · exact ⟨hyx, .inl hyk⟩
    · rw [mem_childNames_iff, hgrows.entry _ fun heq => hytemp (child_inj.mp heq)] at hwritten
      exact ⟨hyx, .inr (mem_childNames_iff.mpr hwritten)⟩

/-- **A compressed archive** holds what the live file held, in its form.  The temporary
    name and that of the live file are free afterwards. -/
theorem putAside_zipped (hfiled : Filed (.zipped compress) path d x h w.files)
    (hpath : f.path = path) (hrotator : f.rotator? = some (Compressed.putAsideBy compress))
    (hk : Nameable k) (hfree : k ∉ h.archives)
    (hput : f.putAside f.path ((Filing.zipped compress).path path k) w = (.ok (), w')) :
    Filed (.zipped compress) path d x (h.stowed k) w'.files := by
  rw [LogFile.putAside, hrotator, hpath] at hput
  simp only [Compressed.putAsideBy, Compressed.putAsideUnless, Compressed.settle,
    Compressed.unlessRefused, hfiled.exists_live] at hput
  cases hlive : h.live? with
  | none =>
    rw [hlive] at hput
    obtain ⟨-, rfl⟩ := Prod.mk.inj hput
    rw [Holdings.stowed_of_none hlive hfree]
    exact hfiled
  -- Three steps that may fail: to write under the temporary name, to rename, to remove.
  | some bytes =>
    obtain ⟨id, hshown, hbytes⟩ := hfiled.shown_of_live hlive
    obtain ⟨hshort, hentry⟩ := shown_eq_some_iff.mp hshown
    rw [hlive, hfiled.site.leads.status_of_some hshown (.inr (by simp))] at hput
    simp only [Option.isSome_some, Bool.not_true, Bool.false_eq_true, if_false] at hput
    cases hwrite : Compressed.writeTemporary compress (fun _ => none) path
        ((Filing.zipped compress).path path k) (.file id) w.files with
    | mk r fs₁ =>
      rw [hwrite] at hput
      cases r with
      | error e => cases (Prod.mk.inj hput).1
      | ok u =>
        obtain ⟨hgrows, i, htemporary⟩ := hfiled.writeTemporary_spec hk hentry hwrite
        rw [hbytes] at hgrows
        dsimp only at hput
        rw [temporary_eq] at hput
        cases hrename : fs₁.renameReplacing (unfinished path k)
            ((Filing.zipped compress).path path k) with
        | mk r fs₂ =>
          rw [hrename] at hput
          cases r with
          | error e => cases (Prod.mk.inj hput).1
          | ok u =>
            obtain ⟨hmove, hfits⟩ := hfiled.rename_unfinished hk hfree hgrows hrename
            dsimp only at hput
            rw [hfiled.removeFile_finished hshown hgrows hmove] at hput
            obtain ⟨-, rfl⟩ := Prod.mk.inj hput
            exact hfiled.stow_zipped hlive hgrows htemporary hmove hfits

end Filed

end Rotation

end Logbook
