import Logbook.Proofs.Files.Gzip
import Logbook.Proofs.Files.Replacement
import Logbook.Proofs.Rotation.Timed
import Logbook.Rotation.Compressed

/-! # Compression is all or nothing

    A file that is put aside in compressed form is either in its archive as a whole or
    where it was.  The archive is written under a temporary name; if anything fails before
    it has its own, what has been written is withdrawn and nothing else has been touched.

    Locations are compared and not what paths lead to: a way through a link is none any more
    when the archive has taken the place of that link.

    All this rests on the temporary name being a name of its own.  A link that is there
    already is followed when the archive is begun, and then it is what the link leads to
    that is begun anew, and the link that is renamed.
-/

namespace Logbook

namespace Rotation.Compressed

open FileSystem
open Path (Splits turn?_eq_name_iff)

variable {compress : List UInt8 → List UInt8} {decompress : List UInt8 → Option (List UInt8)}
  {refusals : Refusals} {source target : Path} {entry : Entry} {fs fs₁ fs' : FileSystem}
  {d l : Location} {t x : String} {id : FileId} {bytes stream : List UInt8} {w w' : World}
  {r : Except LogError Unit}

/-! ## The temporary name -/

theorem temporary_eq_suffix (p : Path) : temporary p = ⟨p.text ++ "." ++ "tmp"⟩ := by
  have htmp : "." ++ "tmp" = ".tmp" := by decide
  rw [temporary, String.append_assoc, htmp]

/-- A temporary path is a front and a name, also when the target is none. -/
theorem temporary_splits (p : Path) : ∃ front y, (temporary p).Splits front y := by
  obtain ⟨front, cs, htext, hfront, hcs⟩ := Path.exists_cut p.text.toList
  have hname : (String.ofList (cs ++ ".tmp".toList)).toList = cs ++ ".tmp".toList :=
    String.toList_ofList
  have htmp : ".tmp".toList = ['.', 't', 'm', 'p'] := by decide
  refine ⟨front, String.ofList (cs ++ ".tmp".toList), ?_, hfront, ?_, turn?_eq_name_iff.mpr ?_⟩
  · rw [hname, temporary, String.toList_append, htext, List.append_assoc]
  · rw [hname, htmp]
    simp [hcs]
  · rw [hname, htmp]
    have hlen : 4 ≤ (cs ++ ['.', 't', 'm', 'p']).length := by simp
    refine ⟨rfl, ?_, ?_, ?_⟩ <;> intro heq <;> rw [heq] at hlen <;> simp at hlen

/-- The temporary name of a target is in the directory of that. -/
theorem leads_temporary (h : fs.Leads target d x) :
    fs.Leads (temporary target) d (x ++ "." ++ "tmp") := by
  rw [temporary_eq_suffix]
  exact h.suffix (by decide) (by decide)

/-- A target is in the directory of its temporary name, under another name. -/
theorem names_beside_temporary (htemp : fs.Leads (temporary target) d t)
    (hlen : checkLength (temporary target) = .ok ()) (h : fs.Names target l) :
    ∃ x, fs.Leads target d x ∧ l = d ++ [x] ∧ t ≠ x := by
  obtain ⟨d', x, hleads, rfl⟩ := h
  obtain ⟨rfl, rfl⟩ := htemp.unique (leads_temporary hleads) hlen
  exact ⟨x, hleads, rfl, suffix_ne x "tmp"⟩

/-- The name of a target is not its temporary name. -/
theorem not_temporary_of_names (h : fs.Names target l) :
    ¬ fs.Names (temporary target) l := by
  rintro ⟨d', t, htemp, heq⟩
  obtain ⟨d, x, hleads, rfl⟩ := h
  obtain ⟨front, -, hsplits, -⟩ := hleads.way
  have hsuffix := hsplits.suffix (k := "tmp") (by decide)
  rw [← temporary_eq_suffix] at hsuffix
  obtain ⟨rfl, -⟩ := htemp.of_splits hsuffix
  have hname : x = x ++ "." ++ "tmp" := by simpa using (List.append_inj' heq rfl).2
  exact suffix_ne x "tmp" hname.symm

/-- A source that is not found under a temporary name does not have that name. -/
theorem not_temporary_of_found (hown : ∀ l, fs.Names (temporary target) l → fs.Unshared l)
    (hfound : ∀ l e, fs.find true source = .ok (l, e) → ¬ fs.Names (temporary target) l)
    (hexists : fs.exists? source = true) (h : fs.Names source l) :
    ¬ fs.Names (temporary target) l := by
  intro htemp
  obtain ⟨d, x, hleads, rfl⟩ := h
  obtain ⟨e, hfind⟩ := hleads.find_of_exists (hown _ htemp).noLink hexists
  exact hfound _ e hfind htemp

/-! ## The archive under its temporary name -/

/-- A result that is not refused is that of the step. -/
theorem eq_ok_of_unlessRefused {α : Type} {refusal? : Option Refusal} {e : Except SystemError α}
    {a : α} (h : unlessRefused refusal? e = .ok a) : e = .ok a := by
  unfold unlessRefused at h
  split at h
  · cases h
  · exact h

/-- What is compressed has been read. -/
theorem encode_eq_ok (h : encode compress refusals source entry fs = .ok stream) :
    ∃ id, entry = .file id ∧ stream = compress (fs.contentOf id) := by
  unfold encode at h
  cases entry with
  | directory i => cases h
  | link t => cases h
  | file id =>
    simp only [FileSystem.read, bind_eq_ok] at h
    obtain ⟨_, -, _, -, h⟩ := h
    exact ⟨id, rfl, (Except.ok.inj h).symm⟩

/-- **Withdrawn**: but for the temporary name of a target nothing has been touched, and
    that name is free, unless the system refuses to remove what is there. -/
structure Withdrawn (refusals : Refusals) (target : Path) (fs fs' : FileSystem) : Prop where
  free : fs' = fs ∨ refusals .removeTemporary ≠ none ∨
    ∀ l, fs.Names (temporary target) l → fs'.entryAt? l = none
  rest : ∀ l, ¬ fs.Names (temporary target) l → fs.Untouched fs' l

/-- An unfinished archive that is discarded is withdrawn. -/
theorem withdrawn_of_draft (htemp : fs.Leads (temporary target) d t)
    (hfits : checkLength (temporary target) = .ok () ∧ isTooLong t = false)
    (h : Drafted (d ++ [t]) bytes fs fs₁) :
    Withdrawn refusals target fs (discard refusals fs₁ (temporary target)) := by
  obtain ⟨i, hi, -⟩ := h.file
  have hnot : ∀ l, ¬ fs.Names (temporary target) l → l ≠ d ++ [t] := by
    rintro l hl rfl
    exact hl htemp.names
  have hremove := (htemp.mono h.covers_new).removeFile_eq_ok (shown_eq_some_iff.mpr ⟨hfits, hi⟩)
  cases hrefusal : refusals .removeTemporary with
  | some refusal =>
    simp only [discard, unlessRefused, hrefusal]
    exact ⟨.inr (.inl (by simp [hrefusal])), fun l hl => h.rest l (hnot l hl)⟩
  | none =>
    simp only [discard, unlessRefused, hrefusal, hremove]
    refine ⟨.inr (.inr fun l hl => ?_), fun l hl => h.take (hnot l hl)⟩
    rw [hl.eq htemp hfits.1, entryAt?_take (child_ne_nil d t), if_pos rfl]

/-- **The archive is written** under its temporary name as a whole, or withdrawn. -/
theorem writeTemporary_cases (hwf : fs.WellFormed) (hknown : ∀ i ∈ fs.fileIds, i < fs.data.size)
    (hown : ∀ l, fs.Names (temporary target) l → fs.Unshared l)
    (hentry : ∀ id, entry = .file id →
      ∃ l, fs.entryAt? l = some (.file id) ∧ ¬ fs.Names (temporary target) l)
    (h : writeTemporary compress refusals source target entry fs = (r, fs')) :
    (∃ e, r = .error e ∧ Withdrawn refusals target fs fs') ∨
      (r = .ok () ∧ ∃ id d t, entry = .file id ∧ fs.Leads (temporary target) d t ∧
        (checkLength (temporary target) = .ok () ∧ isTooLong t = false) ∧
        Drafted (d ++ [t]) (compress (fs.contentOf id)) fs fs') := by
  have hstay : Withdrawn refusals target fs fs := ⟨.inl rfl, fun l _ => .refl fs l⟩
  unfold writeTemporary at h
  dsimp only at h
  cases hrefusal : refusals .makeTemporary with
  | some refusal =>
    rw [hrefusal] at h
    obtain ⟨rfl, rfl⟩ := Prod.mk.inj h
    exact .inl ⟨_, rfl, hstay⟩
  | none =>
    simp only [hrefusal, unlessRefused] at h
    cases hopen : fs.openFile (temporary target) .truncate with
    | error e =>
      rw [hopen] at h
      obtain ⟨rfl, rfl⟩ := Prod.mk.inj h
      exact .inl ⟨_, rfl, hstay⟩
    | ok result =>
      obtain ⟨fs₁, i⟩ := result
      rw [hopen] at h
      dsimp only at h
      -- What could be opened has a way, and at its end there is no link.
      obtain ⟨front, y, hsplits⟩ := temporary_splits target
      obtain ⟨a, -, hend, -⟩ := openFile_cases hopen
      obtain ⟨d, hleads⟩ := leads_of_ending hsplits hend
      obtain ⟨hfits, hbegun⟩ := hleads.begun hwf hknown (hown _ hleads.names) hopen
      cases hencode : encode compress refusals source entry fs₁ with
      | error failure =>
        rw [hencode] at h
        obtain ⟨rfl, rfl⟩ := Prod.mk.inj h
        exact .inl ⟨_, rfl, withdrawn_of_draft hleads hfits (hbegun.append _)⟩
      | ok stream =>
        rw [hencode] at h
        obtain ⟨rfl, rfl⟩ := Prod.mk.inj h
        obtain ⟨id, rfl, rfl⟩ := encode_eq_ok hencode
        obtain ⟨l, hl, hnot⟩ := hentry id rfl
        -- The source is read when the archive has been begun, and is as it was.
        have huntouched := hbegun.rest l fun heq => hnot (heq ▸ hleads.names)
        rw [huntouched.contentOf hl]
        exact .inr ⟨rfl, id, d, y, rfl, hleads, hfits, hbegun.append _⟩

/-! ## The archive under its name -/

/-- **The archive gets its name**, in place of what is no directory, or nothing changes: what
    could be removed could be replaced in the first place. -/
theorem renameReplacing_cases (htemp : fs.Leads (temporary target) d t)
    (hshown : fs.shown (temporary target) d t = some (.file id))
    (h : fs.renameReplacing (temporary target) target = (r, fs')) :
    (∃ e, r = .error e ∧ fs' = fs) ∨
      (r = .ok () ∧ ∃ x, fs.Leads target d x ∧ t ≠ x ∧ fs.isDirectoryAt (d ++ [x]) = false ∧
        fs' = fs.move (d ++ [t]) (d ++ [x])) := by
  obtain ⟨⟨hlen, -⟩, hfile⟩ := shown_eq_some_iff.mp hshown
  unfold renameReplacing at h
  cases hrename : fs.rename (temporary target) target with
  | ok moved =>
    rw [hrename] at h
    obtain ⟨rfl, rfl⟩ := Prod.mk.inj h
    obtain ⟨d', x, hleads, hdir, hmove⟩ := htemp.rename_file hfile hrename
    obtain ⟨x', hleads', hloc, hne⟩ := names_beside_temporary htemp hlen hleads.names
    rw [hloc] at hdir hmove
    exact .inr ⟨rfl, x', hleads', hne, hdir, hmove (by simpa using hne)⟩
  | error e =>
    -- A name that can be removed is that of no directory, and the file could be moved over it.
    have hfixed : ∀ removed, fs.removeFile target ≠ .ok removed := by
      intro removed hremove
      obtain ⟨d', x, hleads⟩ := leads_of_removeFile hremove
      obtain ⟨x', hleads', hloc, hne⟩ := names_beside_temporary htemp hlen hleads.names
      obtain ⟨entry, hshown', hplain, -⟩ := hleads'.removeFile hremove
      obtain ⟨⟨hlen', hx⟩, hentry⟩ := shown_eq_some_iff.mp hshown'
      have hok := htemp.rename_over hleads' hne hshown hlen' hx (isDirectoryAt_eq_false hentry hplain)
      rw [hrename] at hok
      cases hok
    left
    cases hremove : fs.removeFile target with
    | ok removed => exact absurd hremove (hfixed removed)
    | error e' =>
      simp only [hrename, hremove, ite_self] at h
      obtain ⟨rfl, rfl⟩ := Prod.mk.inj h
      exact ⟨_, rfl, rfl⟩

/-! ## All or nothing -/

/-- **Kept**: the names of the source and the target are untouched, and so is what is found
    under that of the source.  What has been begun is withdrawn. -/
structure Kept (refusals : Refusals) (source target : Path) (fs fs' : FileSystem) : Prop where
  atSource : ∀ l, (fs.Names source l ∨ ∃ e, fs.find true source = .ok (l, e)) → fs.Untouched fs' l
  atTarget : ∀ l, fs.Names target l → fs.Untouched fs' l
  withdrawn : Withdrawn refusals target fs fs'

/-- **Removed**: the name of a source is free, or what it was, if it cannot be removed. -/
def Removed (refusals : Refusals) (source : Path) (fs fs' : FileSystem) : Prop :=
  ∃ l, fs.Names source l ∧ (fs'.entryAt? l = none ∨ fs.Untouched fs' l ∧
    ∃ e, unlessRefused (refusals .removeSource) (fs'.removeFile source) = .error e)

/-- **Stored**: what the target names is an archive of what the source held, the source is
    removed and the temporary name is free.  Everything else is untouched. -/
structure Stored (decompress : List UInt8 → Option (List UInt8)) (refusals : Refusals)
    (source target : Path) (fs fs' : FileSystem) : Prop where
  archive : ∃ l stream bytes, fs.Names target l ∧ fs'.fileAt? l = some stream ∧
    fs.readPath source = .ok bytes ∧ decompress stream = some bytes
  removed : Removed refusals source fs fs'
  free : ∀ l, fs.Names (temporary target) l → fs'.entryAt? l = none
  rest : ∀ l, ¬ fs.Names source l → ¬ fs.Names target l → ¬ fs.Names (temporary target) l →
    fs.Untouched fs' l

/-- What is withdrawn leaves a source and its target as they were. -/
theorem Withdrawn.kept (h : Withdrawn refusals target fs fs')
    (hown : ∀ l, fs.Names (temporary target) l → fs.Unshared l)
    (hfound : ∀ l e, fs.find true source = .ok (l, e) → ¬ fs.Names (temporary target) l)
    (hexists : fs.exists? source = true) : Kept refusals source target fs fs' where
  atSource l hl := by
    refine h.rest l ?_
    rcases hl with hname | ⟨e, hfind⟩
    · exact not_temporary_of_found hown hfound hexists hname
    · exact hfound l e hfind
  atTarget l hl := h.rest l (not_temporary_of_names hl)
  withdrawn := h

/-- A source that is removed, or cannot be, from a tree without new links and directories:
    no other name is touched. -/
theorem removed_of_removeFile (hcovers : fs.Covers fs₁) (hsource : fs.Names source l)
    (hstays : ∀ l, fs.Names source l → fs.Untouched fs₁ l)
    (h : unlessRefused (refusals .removeSource) (fs₁.removeFile source) = .ok fs' ∨
      fs' = fs₁ ∧ ∃ e, unlessRefused (refusals .removeSource) (fs₁.removeFile source) = .error e) :
    Removed refusals source fs fs' ∧ ∀ m, ¬ fs.Names source m → fs₁.Untouched fs' m := by
  rcases h with hok | ⟨rfl, herror⟩
  · have hremove := eq_ok_of_unlessRefused hok
    obtain ⟨d, x, hleads⟩ := leads_of_removeFile hremove
    obtain ⟨-, -, -, rfl⟩ := hleads.removeFile hremove
    have hname := (hleads.mono hcovers).names
    refine ⟨⟨d ++ [x], hname, .inl ?_⟩, fun m hm => .take fs₁ ?_⟩
    · rw [entryAt?_take (child_ne_nil d x), if_pos rfl]
    · rintro rfl
      exact hm hname
  · exact ⟨⟨l, hsource, .inr ⟨hstays l hsource, herror⟩⟩, fun m _ => .refl fs' m⟩

/-- An archive that gets its name is stored when the source has been removed, or cannot be. -/
theorem stored_of_draft (h : Drafted (d ++ [t]) stream fs fs₁) (htemp : fs.Leads (temporary target) d t)
    (hlen : checkLength (temporary target) = .ok ()) (htarget : fs.Leads target d x) (hne : t ≠ x)
    (hdir : fs₁.isDirectoryAt (d ++ [x]) = false) (hread : fs.readPath source = .ok bytes)
    (hstream : decompress stream = some bytes) (hsource : fs.Names source l)
    (hapart : ∀ l, fs.Names source l → ¬ fs.Names target l)
    (hfree : ∀ l, fs.Names source l → ¬ fs.Names (temporary target) l)
    (hremove : unlessRefused (refusals .removeSource)
        ((fs₁.move (d ++ [t]) (d ++ [x])).removeFile source) = .ok fs' ∨
      fs' = fs₁.move (d ++ [t]) (d ++ [x]) ∧ ∃ e, unlessRefused (refusals .removeSource)
        ((fs₁.move (d ++ [t]) (d ++ [x])).removeFile source) = .error e) :
    Stored decompress refusals source target fs fs' := by
  have hplaced := h.placed htemp.directory hne hdir
  -- Outside the two names nothing has changed until the source goes.
  have houtside : ∀ l, ¬ fs.Names target l → ¬ fs.Names (temporary target) l →
      fs.Untouched (fs₁.move (d ++ [t]) (d ++ [x])) l := by
    intro l htarget' htemp'
    refine hplaced.rest l ?_ ?_
    · rintro rfl
      exact htemp' htemp.names
    · rintro rfl
      exact htarget' htarget.names
  obtain ⟨hremoved, hrest⟩ := removed_of_removeFile hplaced.covers hsource
    (fun l hl => houtside l (hapart l hl) (hfree l hl)) hremove
  refine ⟨⟨d ++ [x], stream, bytes, htarget.names, ?_, hread, hstream⟩, hremoved, ?_, ?_⟩
  · have hstays := hrest (d ++ [x]) fun hname => hapart _ hname htarget.names
    exact hstays.fileAt?.trans hplaced.here
  · intro l hl
    rw [(hrest l fun hname => hfree l hname hl).entry, hl.eq htemp hlen, hplaced.free]
  · exact fun l hl htarget' htemp' => (houtside l htarget' htemp').trans (hrest l hl)

/-- **An archive that has been written** under its temporary name is stored or withdrawn. -/
theorem settle_cases (hdraft : Drafted (d ++ [t]) stream fs w.files)
    (htemp : fs.Leads (temporary target) d t)
    (hfits : checkLength (temporary target) = .ok () ∧ isTooLong t = false)
    (hread : fs.readPath source = .ok bytes) (hstream : decompress stream = some bytes)
    (hsource : fs.Names source l) (hapart : ∀ l, fs.Names source l → ¬ fs.Names target l)
    (hfree : ∀ l, fs.Names source l → ¬ fs.Names (temporary target) l)
    (h : settle refusals source target w = (r, w')) :
    (∃ e, r = .error e ∧ Withdrawn refusals target fs w'.files) ∨
      (r = .ok () ∧ Stored decompress refusals source target fs w'.files) := by
  obtain ⟨i, hi, -⟩ := hdraft.file
  unfold settle at h
  rcases hrename : w.files.renameReplacing (temporary target) target with ⟨r₁, fs₁⟩
  rw [hrename] at h
  obtain ⟨e, rfl, rfl⟩ | ⟨rfl, x, htarget, hne, hdir, rfl⟩ :=
    renameReplacing_cases (htemp.mono hdraft.covers_new) (shown_eq_some_iff.mpr ⟨hfits, hi⟩) hrename
  · -- The archive keeps its temporary name, and is withdrawn.
    obtain ⟨rfl, rfl⟩ := Prod.mk.inj h
    exact .inl ⟨e, rfl, withdrawn_of_draft htemp hfits hdraft⟩
  · dsimp only at h
    -- The source may be there still, and that is reported but is no failure.
    have hok : r = .ok () := by
      split at h <;> exact (Prod.mk.inj h).1.symm
    refine .inr ⟨hok, stored_of_draft hdraft htemp hfits.1 (htarget.mono hdraft.covers) hne hdir
      hread hstream hsource hapart hfree ?_⟩
    split at h
    · next fs₂ hremove =>
      obtain ⟨-, rfl⟩ := Prod.mk.inj h
      exact .inl hremove
    · next e hremove =>
      obtain ⟨-, rfl⟩ := Prod.mk.inj h
      exact .inr ⟨rfl, e, hremove⟩

/-- **All or nothing**: compression of a source that is not there does nothing.  If it
    succeeds otherwise, the archive is stored; if it fails, all is kept.  This holds whatever
    the system refuses, as long as the temporary name is neither a link nor that of a file
    with another name. -/
theorem putAside_all_or_nothing (hround : ∀ bytes, decompress (compress bytes) = some bytes)
    (hwf : w.files.WellFormed) (hknown : ∀ i ∈ w.files.fileIds, i < w.files.data.size)
    (hown : ∀ l, w.files.Names (temporary target) l → w.files.Unshared l)
    (hapart : ∀ l, w.files.Names source l → ¬ w.files.Names target l)
    (hfound : ∀ l e, w.files.find true source = .ok (l, e) → ¬ w.files.Names (temporary target) l)
    (h : putAsideUnless compress refusals source target w = (r, w')) :
    (w.files.exists? source = false → r = .ok () ∧ w' = w) ∧
      (w.files.exists? source = true → r = .ok () →
        Stored decompress refusals source target w.files w'.files) ∧
      ∀ e, r = .error e → Kept refusals source target w.files w'.files := by
  unfold putAsideUnless at h
  cases hexists : w.files.exists? source with
  | false =>
    rw [hexists] at h
    obtain ⟨rfl, rfl⟩ := Prod.mk.inj h
    exact ⟨fun _ => ⟨rfl, rfl⟩, nofun, nofun⟩
  | true =>
    rw [hexists, if_neg (by simp)] at h
    refine ⟨nofun, ?_⟩
    -- What is withdrawn keeps everything, wherever it was given up.
    have hfailed : (∃ e, r = .error e ∧ Withdrawn refusals target w.files w'.files) →
        (true = true → r = .ok () → Stored decompress refusals source target w.files w'.files) ∧
          ∀ e, r = .error e → Kept refusals source target w.files w'.files := by
      rintro ⟨e, rfl, hwithdrawn⟩
      exact ⟨nofun, fun _ _ => hwithdrawn.kept hown hfound hexists⟩
    cases hopen : unlessRefused (refusals .openSource) (w.files.status true source) with
    | error e =>
      rw [hopen] at h
      obtain ⟨rfl, rfl⟩ := Prod.mk.inj h
      exact hfailed ⟨_, rfl, .inl rfl, fun l _ => .refl _ l⟩
    | ok entry =>
      rw [hopen] at h
      dsimp only at h
      have hstatus := eq_ok_of_unlessRefused hopen
      obtain ⟨l, hfind⟩ := find_of_status hstatus
      have hentry : ∀ id, entry = .file id →
          ∃ l, w.files.entryAt? l = some (.file id) ∧ ¬ w.files.Names (temporary target) l := by
        rintro id rfl
        exact ⟨l, entryAt?_of_find hfind, hfound l _ hfind⟩
      rcases hwrite : writeTemporary compress refusals source target entry w.files with ⟨r₁, fs₁⟩
      rw [hwrite] at h
      -- The source is an entry of its own: to write beside it does not touch it.
      obtain ⟨e, rfl, hwithdrawn⟩ | ⟨rfl, id, d, t, rfl, htemp, hfits, hdraft⟩ :=
        writeTemporary_cases hwf hknown hown hentry hwrite
      · obtain ⟨rfl, rfl⟩ := Prod.mk.inj h
        exact hfailed ⟨e, rfl, hwithdrawn⟩
      · have hread : w.files.readPath source = .ok (w.files.contentOf id) := by
          rw [readPath, hstatus]
          rfl
        obtain ⟨_, _, hsource⟩ := hwf.leads_of_file hstatus
        rcases settle_cases (w := { w with files := fs₁ }) hdraft htemp hfits hread (hround _)
          hsource.names hapart (fun l => not_temporary_of_found hown hfound hexists) h with
          herror | ⟨rfl, hstored⟩
        · exact hfailed herror
        · exact ⟨fun _ _ => hstored, nofun⟩

/-- A path that leads to a name of the working directory names that alone. -/
theorem names_iff_of_edge (h : fs.edge source = .ok ⟨[], .name x, false⟩) :
    fs.Names source l ↔ l = [x] := by
  obtain ⟨hleads, hlen⟩ := leads_of_edge h
  refine ⟨fun hl => hl.eq hleads hlen, ?_⟩
  rintro rfl
  exact hleads.names

/-- A line that is to be put aside, where an unfinished archive has been left behind. -/
def interrupted : FileSystem where
  entries := [(["app.log"], .file 1), (["app.log.gz.tmp"], .file 2)]
  data := #[{}, { content := [111, 107, 10], modified := 3 }, { content := [31] }]

/-- A disk that is full when the first chunk is written. -/
def diskFull : Refusals := fun s =>
  if s = .writeChunk 0 then some { error := .other "No space left on device (os error 28)" } else none

/-- The line is stored, and kept when the disk is full. -/
theorem putAside_all_or_nothing_line :
    let done := putAsideUnless Gzip.compress (fun _ => none) ⟨"app.log"⟩ ⟨"app.log.gz"⟩
      { files := interrupted }
    let stuck := putAsideUnless Gzip.compress diskFull ⟨"app.log"⟩ ⟨"app.log.gz"⟩
      { files := interrupted }
    done.1 = .ok () ∧
      Stored Gzip.decompress? (fun _ => none) ⟨"app.log"⟩ ⟨"app.log.gz"⟩ interrupted done.2.files ∧
      stuck.1.isOk = false ∧
      Kept diskFull ⟨"app.log"⟩ ⟨"app.log.gz"⟩ interrupted stuck.2.files := by
  intro done stuck
  have hsource : ∀ l, interrupted.Names ⟨"app.log"⟩ l ↔ l = ["app.log"] :=
    fun _ => names_iff_of_edge (by decide +kernel)
  have htarget : ∀ l, interrupted.Names ⟨"app.log.gz"⟩ l ↔ l = ["app.log.gz"] :=
    fun _ => names_iff_of_edge (by decide +kernel)
  have htemp : ∀ l, interrupted.Names (temporary ⟨"app.log.gz"⟩) l ↔ l = ["app.log.gz.tmp"] :=
    fun _ => names_iff_of_edge (by decide +kernel)
  have hwf : interrupted.WellFormed := ⟨by decide, by decide, by decide⟩
  have hsound : interrupted.Sound := ⟨by decide, by decide⟩
  have hown : ∀ l, interrupted.Names (temporary ⟨"app.log.gz"⟩) l → interrupted.Unshared l := by
    intro l hl
    rw [(htemp l).mp hl]
    have hfile : interrupted.entryAt? ["app.log.gz.tmp"] = some (.file 2) := by decide +kernel
    refine ⟨fun t ht => ?_, fun id m hid hm => hsound.location_unique hm hid⟩
    rw [hfile] at ht
    cases ht
  have hapart : ∀ l, interrupted.Names ⟨"app.log"⟩ l → ¬ interrupted.Names ⟨"app.log.gz"⟩ l := by
    intro l hl
    rw [htarget, (hsource l).mp hl]
    decide
  have hfound : ∀ l e, interrupted.find true ⟨"app.log"⟩ = .ok (l, e) →
      ¬ interrupted.Names (temporary ⟨"app.log.gz"⟩) l := by
    have hfind : interrupted.find true ⟨"app.log"⟩ = .ok (["app.log"], .file 1) := by decide +kernel
    intro l e hl
    rw [hfind] at hl
    obtain ⟨rfl, -⟩ := Prod.mk.inj (Except.ok.inj hl)
    rw [htemp]
    decide
  have hdone : done.1 = .ok () := eq_ok_of_isOk (by decide +kernel)
  have hstuck : stuck.1.isOk = false := by decide +kernel
  obtain ⟨e, he⟩ := eq_error_of_isOk hstuck
  have hexists : interrupted.exists? ⟨"app.log"⟩ = true := by decide +kernel
  have hstored := putAside_all_or_nothing (w := { files := interrupted })
    Gzip.decompress?_compress hwf hsound.known hown hapart hfound (Prod.mk.eta (p := done)).symm
  have hkept := putAside_all_or_nothing (w := { files := interrupted })
    Gzip.decompress?_compress hwf hsound.known hown hapart hfound (Prod.mk.eta (p := stuck)).symm
  exact ⟨hdone, hstored.2.1 hexists hdone, hstuck, hkept.2.2 e he⟩

/-! ## Nothing in the way -/

/-- What is short enough with the suffix is short enough. -/
theorem fits_of_temporary (h : fs.Leads target d x) (hlen : checkLength (temporary target) = .ok ())
    (hx : isTooLong (x ++ "." ++ "tmp") = false) : checkLength target = .ok () ∧ isTooLong x = false := by
  obtain ⟨front, -, hsplits, -⟩ := h.way
  have htext : target.text.toList ≠ [] := by
    rw [hsplits.text]
    exact List.append_ne_nil_of_right_ne_nil front hsplits.ne_nil
  refine ⟨checkLength_of_start ?_ htext hlen, ?_⟩
  · rw [temporary, String.toList_append]
    exact List.prefix_append _ _
  · have hprefix : x.toList <+: (x ++ "." ++ "tmp").toList := by
      rw [String.append_assoc, String.toList_append]
      exact List.prefix_append _ _
    have hbytes := Text.byteLength_le_of_prefix hprefix
    simp only [isTooLong, decide_eq_false_iff_not, Nat.not_lt] at hx ⊢
    omega

/-- **A file is compressed** if the system refuses nothing, the target leads to a name that
    is no directory, and the temporary name fits and is that of a file of its own or free. -/
theorem putAside_isOk (hwf : w.files.WellFormed) (hknown : ∀ i ∈ w.files.fileIds, i < w.files.data.size)
    (hsource : w.files.status true source = .ok (.file id)) (htarget : w.files.Leads target d x)
    (hdir : w.files.isDirectoryAt (d ++ [x]) = false)
    (hlen : checkLength (temporary target) = .ok ()) (hx : isTooLong (x ++ "." ++ "tmp") = false)
    (hplain : w.files.PlainAt (d ++ [x ++ "." ++ "tmp"]))
    (hown : w.files.Unshared (d ++ [x ++ "." ++ "tmp"])) :
    (putAsideBy compress source target w).1 = .ok () := by
  have htemp := leads_temporary htarget
  have hne := suffix_ne x "tmp"
  obtain ⟨fs₁, i, hopen⟩ := htemp.openFile_isOk hlen hx hplain .truncate
  obtain ⟨-, hbegun⟩ := htemp.begun hwf hknown hown hopen
  have hread : fs₁.read (.file id) = .ok (fs₁.contentOf id) := rfl
  have hdraft := hbegun.append (compress (fs₁.contentOf id))
  have hwrite : writeTemporary compress (fun _ => none) source target (.file id) w.files =
      (.ok (), fs₁.append i (compress (fs₁.contentOf id))) := writeTemporary_unrefused hopen hread
  generalize fs₁.append i (compress (fs₁.contentOf id)) = drafted at hdraft hwrite
  -- The target is what it was, so that the archive can take its place.
  have hdir' : drafted.isDirectoryAt (d ++ [x]) = false := by
    have hstays := hdraft.rest (d ++ [x]) fun heq => hne (child_inj.mp heq).symm
    rw [isDirectoryAt, hstays.entry]
    exact hdir
  obtain ⟨j, hj, -⟩ := hdraft.file
  obtain ⟨hlen', hx'⟩ := fits_of_temporary htarget hlen hx
  have hrename := (htemp.mono hdraft.covers_new).rename_over (htarget.mono hdraft.covers_new) hne
    (shown_eq_some_iff.mpr ⟨⟨hlen, hx⟩, hj⟩) hlen' hx' hdir'
  have hexists : w.files.exists? source = true := by
    rw [exists?, hsource]
    rfl
  simp only [putAsideBy, putAsideUnless, settle, hexists, hsource, unlessRefused, hwrite,
    renameReplacing, hrename, Bool.not_true, Bool.false_eq_true, if_false]
  split <;> rfl

/-! ## A link under the temporary name -/

/-- A directory in place of the source, an older archive, and a link to that archive under
    the temporary name. -/
def linkedArchive : FileSystem where
  entries := [(["app.log"], .directory 1), (["app.log.gz"], .file 2),
    (["app.log.gz.tmp"], .link ⟨"app.log.gz"⟩)]
  data := #[{}, {}, { content := [97, 114, 99, 104, 105, 118, 101] }]

/-- A line that is to be put aside, and a link to its archive, which is not there yet, under
    the temporary name. -/
def linkedNothing : FileSystem where
  entries := [(["app.log"], .file 1), (["app.log.gz.tmp"], .link ⟨"app.log.gz"⟩)]
  data := #[{}, { content := [108, 105, 110, 101, 10] }]

/-- The archive is written through the link.  If compression fails, an older archive has been
    begun anew; if it succeeds, the link takes the place of the new archive, and what the
    source held is lost. -/
theorem putAside_through_link :
    let stuck := putAside ⟨"app.log"⟩ ⟨"app.log.gz"⟩ { files := linkedArchive }
    let done := putAside ⟨"app.log"⟩ ⟨"app.log.gz"⟩ { files := linkedNothing }
    (linkedArchive.find true ⟨"app.log"⟩ = .ok (["app.log"], .directory 1) ∧
      (∀ l, linkedArchive.Names ⟨"app.log.gz"⟩ l ↔ l = ["app.log.gz"]) ∧
      (∀ l, linkedArchive.Names (temporary ⟨"app.log.gz"⟩) l ↔ l = ["app.log.gz.tmp"]) ∧
      (∃ e, stuck.1 = .error e) ∧
      ¬ Kept (fun _ => none) ⟨"app.log"⟩ ⟨"app.log.gz"⟩ linkedArchive stuck.2.files) ∧
    linkedNothing.find true ⟨"app.log"⟩ = .ok (["app.log"], .file 1) ∧
      (∀ l, linkedNothing.Names ⟨"app.log.gz"⟩ l ↔ l = ["app.log.gz"]) ∧
      (∀ l, linkedNothing.Names (temporary ⟨"app.log.gz"⟩) l ↔ l = ["app.log.gz.tmp"]) ∧
      done.1 = .ok () ∧ done.2.files.entries = [(["app.log.gz"], .link ⟨"app.log.gz"⟩)] ∧
      ¬ Stored Gzip.decompress? (fun _ => none) ⟨"app.log"⟩ ⟨"app.log.gz"⟩ linkedNothing
        done.2.files := by
  intro stuck done
  constructor
  · have htarget : ∀ l, linkedArchive.Names ⟨"app.log.gz"⟩ l ↔ l = ["app.log.gz"] :=
      fun _ => names_iff_of_edge (by decide +kernel)
    have hchanged : stuck.2.files.fileAt? ["app.log.gz"] ≠ linkedArchive.fileAt? ["app.log.gz"] := by
      decide +kernel
    refine ⟨by decide +kernel, htarget, fun _ => names_iff_of_edge (by decide +kernel),
      eq_error_of_isOk (by decide +kernel), fun hkept => hchanged ?_⟩
    exact (hkept.atTarget _ ((htarget _).mpr rfl)).fileAt?
  · have htarget : ∀ l, linkedNothing.Names ⟨"app.log.gz"⟩ l ↔ l = ["app.log.gz"] :=
      fun _ => names_iff_of_edge (by decide +kernel)
    have hnone : done.2.files.fileAt? ["app.log.gz"] = none := by decide +kernel
    refine ⟨by decide +kernel, htarget, fun _ => names_iff_of_edge (by decide +kernel),
      eq_ok_of_isOk (by decide +kernel), by decide +kernel, fun hstored => ?_⟩
    obtain ⟨l, stream, -, hl, hstream, -⟩ := hstored.archive
    rw [(htarget l).mp hl, hnone] at hstream
    cases hstream

end Rotation.Compressed

end Logbook
