import Logbook.Proofs.Files.Prepared

/-! # What a live file carries along

    A live file that is closed is opened again by the next line.  In append mode the line
    then comes behind what the file held; in truncate mode what the file held is dropped.
    While it is open, every line comes behind the last one in both modes.

    What a path holds is read here once the directory that it is to be in has been made:
    to make it is what an attempt to open the file begins with, and a path may name
    something only when that has been done.
-/

namespace Logbook

namespace FileSystem

variable {fs fs' : FileSystem} {p : Path} {id : FileId} {mode : FileMode}

/-! ## What a path names -/

/-- What the file that a path names holds; nothing if it names none. -/
def contentAt (fs : FileSystem) (p : Path) : List UInt8 := (fs.readPath p).toOption.getD []

/-- A path that names a file can be read. -/
theorem readPath_of_status (h : fs.status true p = .ok (.file id)) :
    fs.readPath p = .ok (fs.contentOf id) := by
  rw [readPath, h]
  rfl

/-- What a path holds is the content of the file that it names. -/
theorem contentAt_of_status (h : fs.status true p = .ok (.file id)) :
    fs.contentAt p = fs.contentOf id := by
  rw [contentAt, readPath_of_status h]
  rfl

/-- A path that leads to a free place holds nothing. -/
theorem contentAt_of_free {a : Ending} (hend : fs.ending (!·) p = .ok a) (hslash : a.slash = false)
    (hfree : fs.look a = .ok none) : fs.contentAt p = [] := by
  obtain ⟨hnull, hlen, hwalk⟩ := ending_cases hend
  have hend' : fs.ending (fun _ => true) p = .ok a :=
    ending_of_walk hnull hlen (walk_always hwalk hslash)
  have hstatus : fs.status true p = .error .notFound := by
    simp [status, find, hend', hfree, bind, Except.bind, Except.map]
  rw [contentAt, readPath, hstatus]
  rfl

/-- **Named**: the path names a file, and its directory is there. -/
structure Named (p : Path) (id : FileId) (fs : FileSystem) : Prop where
  directory : LogFile.DirectoryThere p fs
  status : fs.status true p = .ok (.file id)

/-- A file that is named in a tree is named in every tree with the same entries. -/
theorem Named.congr (h : Named p id fs) (hentries : fs'.entries = fs.entries) : Named p id fs' :=
  ⟨h.directory.congr hentries, by rw [status_congr hentries, h.status]⟩

/-- A file that is named in a tree in which files are told from directories is held. -/
theorem Named.known (h : Named p id fs) (hapart : fs.ToldApart) : id < fs.data.size := by
  obtain ⟨l, hl⟩ := entryAt?_of_status h.status
  exact (hapart.held hl).known

/-- A file that has been opened is named, and holds what the path held before, or nothing
    if it is begun anew. -/
theorem openFile_named (h : fs.openFile p mode = .ok (fs', id))
    (hthere : LogFile.DirectoryThere p fs) :
    Named p id fs' ∧ fs'.contentOf id = if mode = .append then fs.contentAt p else [] := by
  -- Both modes lead to the same place, so what is named is told by an opening that appends.
  obtain ⟨fs₁, hopen, hentries, hcontent⟩ := openFile_append_of h
  have hnamed : Named p id fs₁ :=
    ⟨hthere.keeps (openFile_keeps hopen), status_of_openFile hopen⟩
  refine ⟨hnamed.congr hentries, ?_⟩
  obtain ⟨a, s, hend, hslash, -, ⟨-, hsame, hcut⟩ | ⟨hfree, rfl, rfl⟩⟩ := openFile_cases h
  · -- The file was there.
    cases mode with
    | append =>
      obtain rfl := hsame rfl
      rw [if_pos rfl, contentAt_of_status (status_of_openFile h)]
    | truncate =>
      obtain rfl := hcut rfl
      rw [if_neg nofun]
      simp only [setContent, contentOf, Array.getD_eq_getD_getElem?, Array.getElem?_modify]
      cases fs.data[id]? <;> simp
  · -- It has been made.
    have hempty : contentOf ((fs.allot { modified := fs.now }).1.put a.location
        (.file fs.data.size)) fs.data.size = [] := by
      have hnew := contentOf_allot fs { modified := fs.now } fs.data.size
      rw [if_pos rfl] at hnew
      exact hnew
    rw [hempty, contentAt_of_free hend hslash hfree, ite_self]

/-- To write over the end of a file is to write behind it. -/
theorem writeAt_end (fs : FileSystem) (id : FileId) (bytes : List UInt8) :
    fs.writeAt id (fs.contentOf id).length bytes = fs.append id bytes := by
  have hover : overwritten (fs.contentOf id) (fs.contentOf id).length bytes =
      fs.contentOf id ++ bytes := by
    simp [overwritten]
  unfold writeAt append
  rw [hover]

end FileSystem

namespace LogFile

open FileSystem

variable {f f' : LogFile} {fs fs' : FileSystem} {path : Path} {id : FileId} {bytes : List UInt8}
  {handle : Handle} {text terminator : String}

/-! ## What is held at a path -/

/-- **Holding**: what the file at a path holds, once its directory has been made. -/
def holding (path : Path) (fs : FileSystem) : List UInt8 :=
  (prepareDirectory path fs).2.contentAt path

/-- Where the directory is there, this is what the path holds as it stands. -/
theorem holding_of_there (h : DirectoryThere path fs) : holding path fs = fs.contentAt path := by
  rw [holding, prepareDirectory_of_there h]

/-- Nothing is different when the directory has been made, or could not be. -/
theorem holding_prepared {r : Except LogError Unit} (h : prepareDirectory path fs = (r, fs')) :
    holding path fs' = holding path fs := by
  obtain ⟨r', hagain, -⟩ := prepareDirectory_again h
  rw [holding, holding, hagain, h]

/-- What is held at a path that names a file is the content of that file. -/
theorem holding_of_named (h : Named path id fs) : holding path fs = fs.contentOf id := by
  rw [holding_of_there h.directory, contentAt_of_status h.status]

/-! ## Lines -/

/-- **Carries**: the path of a live file holds the given bytes; and if the live file is
    open, it is the file that its path names, and the next line goes behind its end. -/
structure Carries (f : LogFile) (bytes : List UInt8) (fs : FileSystem) : Prop where
  apart : fs.ToldApart
  held : holding f.path fs = bytes
  open_ : ∀ handle, f.handle? = some handle → Named f.path handle.id fs ∧
    (handle.place? = none ∨ handle.place? = some bytes.length)

/-- Bytes that are still there when a live file has been opened. -/
def carried (f : LogFile) (bytes : List UInt8) : List UInt8 :=
  if f.isOpen = true ∨ f.mode = .append then bytes else []

theorem carried_of_open (h : f.isOpen = true) : f.carried bytes = bytes := if_pos (.inl h)

theorem carried_of_append (h : f.mode = .append) : f.carried bytes = bytes := if_pos (.inr h)

/-- What a file holds that is to be begun anew is not carried along. -/
theorem carried_of_truncate (hclosed : f.isOpen = false) (hmode : f.mode = .truncate) :
    f.carried bytes = [] := by
  refine if_neg ?_
  rintro (hopen | happend)
  · cases hclosed.symm.trans hopen
  · cases hmode.symm.trans happend

theorem SameSettings.mode (h : f.SameSettings f') : f'.mode = f.mode := by rw [h]

/-- A file that is closed holds what it held. -/
theorem Carries.close (h : f.Carries bytes fs) : f.close.Carries bytes fs :=
  ⟨h.apart, h.held, nofun⟩

/-- A live file that is closed carries what its path holds. -/
theorem carries_of_closed (hapart : fs.ToldApart) (hclosed : f.handle? = none) :
    f.Carries (holding f.path fs) fs := by
  refine ⟨hapart, rfl, fun handle hhandle => ?_⟩
  rw [hclosed] at hhandle
  cases hhandle

/-- An open live file is the one that its path names. -/
theorem Carries.named (h : f.Carries bytes fs) (hopen : f.isOpen = true) :
    ∃ id, Named f.path id fs := by
  obtain ⟨handle, hhandle⟩ := Option.isSome_iff_exists.mp hopen
  exact ⟨handle.id, (h.open_ handle hhandle).1⟩

/-- A live file that is opened carries on what it held, or begins anew; if it cannot be
    opened its path holds what it held. -/
theorem Carries.reopen {r : Except LogError LogFile} (h : f.Carries bytes fs)
    (hreopen : f.reopen fs = (r, fs')) :
    (∀ e, r = .error e → f.Carries bytes fs') ∧ ∀ f', r = .ok f' →
      f.SameSettings f' ∧ f'.isOpen = true ∧ f'.Carries (f.carried bytes) fs' := by
  rcases reopen_cases hreopen with ⟨hopen, rfl, rfl⟩ | ⟨hclosed, r₁, fs₁, hprepare, hcases⟩
  · refine ⟨nofun, ?_⟩
    intro f' heq
    obtain rfl := Except.ok.inj heq
    rw [carried, if_pos (.inl hopen)]
    exact ⟨.refl f, hopen, h⟩
  · have hnone : f.handle? = none := by simpa [isOpen] using hclosed
    -- To make the directory does not change what is held, whether it could be made or not.
    have houtlives : fs.Outlives fs₁ := prepareDirectory_induction Outlives.refl Outlives.trans
      (fun hmake => (makeDirectory_outlives hmake).1) hprepare
    have hprepared : f.Carries bytes fs₁ := by
      have hcarries := carries_of_closed (houtlives.apart h.apart) hnone
      rwa [holding_prepared hprepare, h.held] at hcarries
    rcases hcases with ⟨⟨e, rfl⟩, rfl⟩ | ⟨rfl, id, hopened, rfl⟩
    · exact ⟨fun _ _ => hprepared, nofun⟩
    · refine ⟨nofun, ?_⟩
      intro f' heq
      obtain rfl := Except.ok.inj heq
      have hthere := there_of_prepareDirectory hprepare
      obtain ⟨hnamed, hcontent⟩ := openFile_named hopened hthere
      rw [← holding_of_there hthere, hprepared.held] at hcontent
      have hcarried : f.carried bytes = if f.mode = .append then bytes else [] := by
        unfold carried
        simp only [hclosed, Bool.false_eq_true, false_or]
      refine ⟨rfl, rfl, (openFile_outlives hopened).apart hprepared.apart, ?_, ?_⟩
      · rw [hcarried, ← hcontent]
        exact holding_of_named hnamed
      · intro handle hhandle
        obtain rfl := Option.some.inj hhandle
        refine ⟨hnamed, ?_⟩
        rw [hcarried]
        cases f.mode with
        | append => exact .inl rfl
        | truncate => exact .inr rfl

/-- A line through the handle of a file that is named goes behind its end. -/
theorem send_eq (bytes : List UInt8) (hplace : handle.place? = none ∨
      handle.place? = some (fs.contentOf handle.id).length) :
    ∃ handle', send handle bytes fs = (handle', fs.append handle.id bytes) ∧
      handle'.id = handle.id ∧ (handle'.place? = none ∨
        handle'.place? = some ((fs.contentOf handle.id).length + bytes.length)) := by
  unfold send
  rcases hplace with hnone | hsome
  · rw [hnone]
    exact ⟨handle, rfl, rfl, .inl hnone⟩
  · rw [hsome]
    dsimp only
    rw [writeAt_end]
    exact ⟨_, rfl, rfl, .inr rfl⟩

/-- **A line goes behind what is carried.**  A line that is written comes behind what the
    file held when it was opened, and the file is open after it; if the line cannot be
    written, the path holds what it held. -/
theorem Carries.writeLine {r : Except LogError LogFile} (h : f.Carries bytes fs)
    (hwrite : f.writeLine text terminator fs = (r, fs')) :
    (∀ e, r = .error e → f.Carries bytes fs') ∧ ∀ f', r = .ok f' →
      f.SameSettings f' ∧ f'.isOpen = true ∧
        f'.Carries (f.carried bytes ++ lineBytes text terminator) fs' := by
  rcases writeLine_cases hwrite with ⟨e, hreopen, rfl⟩ |
    ⟨f₁, fs₁, handle, handle', hreopen, hhandle, hwritten, rfl⟩
  · obtain ⟨hfailed, -⟩ := h.reopen hreopen
    exact ⟨fun _ _ => hfailed e rfl, nofun⟩
  · obtain ⟨-, hopened⟩ := h.reopen hreopen
    obtain ⟨hsettings, -, hcarries⟩ := hopened f₁ rfl
    obtain ⟨hnamed, hplace⟩ := hcarries.open_ handle hhandle
    have hcontent : fs₁.contentOf handle.id = f.carried bytes := by
      rw [← holding_of_named hnamed, hcarries.held]
    rw [← hcontent] at hplace
    obtain ⟨sent, hsend, hid, hplace'⟩ := send_eq (lineBytes text terminator) hplace
    rw [hsend] at hwritten
    obtain ⟨rfl, rfl⟩ := Prod.mk.inj hwritten
    refine ⟨nofun, ?_⟩
    intro f' heq
    obtain rfl := Except.ok.inj heq
    have hnamed' : Named f₁.path handle.id (fs₁.append handle.id (lineBytes text terminator)) :=
      hnamed.congr (entries_append _ _ _)
    have hbytes : (fs₁.append handle.id (lineBytes text terminator)).contentOf handle.id =
        f.carried bytes ++ lineBytes text terminator := by
      rw [contentOf_append (hnamed.known hcarries.apart), if_pos rfl, hcontent]
    refine ⟨hsettings.trans rfl, rfl, ?_, ?_, ?_⟩
    · exact (Outlives.of_data (entries_append _ _ _) (size_append _ _ _)).apart hcarries.apart
    · show holding f₁.path _ = _
      rw [holding_of_named hnamed', hbytes]
    · intro handle'' heq
      obtain rfl := Option.some.inj heq
      refine ⟨hid ▸ hnamed', ?_⟩
      rwa [List.length_append, ← hcontent]

/-- A line that cannot be written changes nothing where the directory is there. -/
theorem writeLine_error_of_there {e : LogError} (hthere : DirectoryThere f.path fs)
    (h : f.writeLine text terminator fs = (.error e, fs')) : fs' = fs := by
  rcases writeLine_cases h with ⟨e', hreopen, -⟩ | ⟨f₁, fs₁, handle, handle', -, -, -, heq⟩
  · rcases reopen_cases hreopen with ⟨-, heq, -⟩ | ⟨-, r₁, fs₁, hprepare, hcases⟩
    · cases heq
    · rw [prepareDirectory_of_there hthere] at hprepare
      rcases hcases with ⟨-, rfl⟩ | ⟨-, id, -, heq⟩
      · exact (Prod.mk.inj hprepare).2.symm
      · cases heq
  · cases heq

/-- A path that names a file names one after any line, whether it could be written or
    not. -/
theorem Carries.named_writeLine {r : Except LogError LogFile} (h : f.Carries bytes fs)
    (hnamed : ∃ id, Named f.path id fs) (hwrite : f.writeLine text terminator fs = (r, fs')) :
    ∃ id, Named f.path id fs' := by
  obtain ⟨id, hid⟩ := hnamed
  cases r with
  | error e =>
    rw [writeLine_error_of_there hid.directory hwrite]
    exact ⟨id, hid⟩
  | ok f' =>
    obtain ⟨hsettings, hopen, hcarries⟩ := (h.writeLine hwrite).2 f' rfl
    rw [← hsettings.path]
    exact hcarries.named hopen

end LogFile

end Logbook
