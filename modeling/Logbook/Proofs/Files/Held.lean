import Logbook.Proofs.Files.Live

/-! # The files of a directory

    What the file under a name of a directory holds, after another name has been taken
    away, after a file has been moved from one name to another, and after a file has grown.
-/

namespace Logbook.FileSystem

variable {fs fs' : FileSystem} {l m d : Location} {x y z : String} {bytes : List UInt8}

/-- The bytes of the file at a location; none if there is no file. -/
def fileAt? (fs : FileSystem) (l : Location) : Option (List UInt8) :=
  match fs.entryAt? l with
  | some (.file id) => some (fs.contentOf id)
  | _ => none

theorem fileAt?_of_file {id : FileId} (h : fs.entryAt? l = some (.file id)) :
    fs.fileAt? l = some (fs.bytesAt l) := by
  rw [fileAt?, bytesAt, h]

theorem fileAt?_eq_some_iff :
    fs.fileAt? l = some bytes ↔ ∃ id, fs.entryAt? l = some (.file id) ∧ fs.bytesAt l = bytes := by
  constructor
  · intro h
    unfold fileAt? at h
    split at h
    · next id hid => exact ⟨id, hid, (bytesAt_of_file hid).trans (Option.some.inj h)⟩
    · cases h
  · intro h
    obtain ⟨id, hid, hbytes⟩ := h
    rw [fileAt?_of_file hid, hbytes]

/-- A location that holds a file or nothing has no file if it holds nothing. -/
theorem PlainAt.fileAt?_isSome (h : fs.PlainAt l) : (fs.fileAt? l).isSome = (fs.entryAt? l).isSome := by
  cases hentry : fs.entryAt? l with
  | none => rw [fileAt?, hentry]; rfl
  | some e =>
    obtain ⟨id, rfl⟩ := h e hentry
    rw [fileAt?, hentry]
    rfl

/-- Locations with the same entry and the same bytes have the same file. -/
theorem fileAt?_congr (hentry : fs'.entryAt? m = fs.entryAt? l)
    (hbytes : fs'.bytesAt m = fs.bytesAt l) : fs'.fileAt? m = fs.fileAt? l := by
  cases hl : fs.entryAt? l with
  | none => rw [fileAt?, fileAt?, hentry, hl]
  | some e =>
    cases e with
    | file id => rw [fileAt?_of_file hl, fileAt?_of_file (hentry.trans hl), hbytes]
    | directory id | link t => rw [fileAt?, fileAt?, hentry, hl]

/-- Trees with the same data and the same entry have the same file. -/
theorem fileAt?_of_data (hdata : fs'.data = fs.data) (hentry : fs'.entryAt? m = fs.entryAt? l) :
    fs'.fileAt? m = fs.fileAt? l := by
  refine fileAt?_congr hentry (bytesAt_congr hentry ?_)
  intro id _
  rw [contentOf, contentOf, hdata]

theorem fileAt?_of_none (h : fs.entryAt? l = none) : fs.fileAt? l = none := by
  rw [fileAt?, h]

/-- The files of a directory after a name has been taken away. -/
theorem fileAt?_take_child (fs : FileSystem) (y w : String) :
    (fs.take (d ++ [y])).fileAt? (d ++ [w]) = if w = y then none else fs.fileAt? (d ++ [w]) := by
  have hentry : (fs.take (d ++ [y])).entryAt? (d ++ [w]) =
      if d ++ [w] = d ++ [y] then none else fs.entryAt? (d ++ [w]) :=
    entryAt?_take (child_ne_nil d y) _
  simp only [child_inj] at hentry
  by_cases hw : w = y
  · rw [if_pos hw] at hentry ⊢
    exact fileAt?_of_none hentry
  · rw [if_neg hw] at hentry ⊢
    exact fileAt?_of_data rfl hentry

/-- The files of a directory after one has been moved from a name to another. -/
theorem fileAt?_move_child (fs : FileSystem) (hyz : y ≠ z) (w : String) :
    (fs.move (d ++ [y]) (d ++ [z])).fileAt? (d ++ [w]) =
      if w = z then fs.fileAt? (d ++ [y]) else if w = y then none else fs.fileAt? (d ++ [w]) := by
  have hentry := entryAt?_move_child (d := d) fs hyz w
  by_cases hz : w = z
  · rw [if_pos hz] at hentry ⊢
    exact fileAt?_of_data rfl hentry
  · rw [if_neg hz] at hentry ⊢
    by_cases hy : w = y
    · rw [if_pos hy] at hentry ⊢
      exact fileAt?_of_none hentry
    · rw [if_neg hy] at hentry ⊢
      exact fileAt?_of_data rfl hentry

/-- A file that grows changes no other. -/
theorem Grows.fileAt?_other (h : Grows l bytes fs fs') (hm : m ≠ l) :
    fs'.fileAt? m = fs.fileAt? m :=
  fileAt?_congr (h.entry m hm) (h.other m hm)

/-- What has come behind a file, or is the first in it. -/
theorem Grows.fileAt?_here {id : FileId} (h : Grows l bytes fs fs')
    (hplain : fs.PlainAt l) (hthere : fs'.entryAt? l = some (.file id)) :
    fs'.fileAt? l = some ((fs.fileAt? l).getD [] ++ bytes) := by
  have hold : (fs.fileAt? l).getD [] = fs.bytesAt l := by
    cases hentry : fs.entryAt? l with
    | none => rw [fileAt?_of_none hentry, bytesAt_of_none hentry]; rfl
    | some e =>
      obtain ⟨i, rfl⟩ := hplain e hentry
      rw [fileAt?_of_file hentry]
      rfl
  rw [fileAt?_of_file hthere, h.here, hold]

/-- A file that can be asked for is removed. -/
theorem Leads.removeFile_eq_ok {p : Path} {id : FileId} (h : fs.Leads p d x)
    (hshown : fs.shown p d x = some (.file id)) : fs.removeFile p = .ok (fs.take (d ++ [x])) := by
  obtain ⟨⟨hlen, hx⟩, hentry⟩ := shown_eq_some_iff.mp hshown
  simp [FileSystem.removeFile, h.edge hlen, look_name, hx, hentry, Ending.isName, Ending.location,
    bind, Except.bind]

/-- A file whose name is short enough can be opened to write to it; it is made if there is
    none. -/
theorem Leads.openFile_isOk {p : Path} (h : fs.Leads p d x) (hlen : checkLength p = .ok ())
    (hx : isTooLong x = false) (hplain : fs.PlainAt (d ++ [x])) (mode : FileMode) :
    ∃ fs' id, fs.openFile p mode = .ok (fs', id) := by
  have hend : fs.ending (!·) p = .ok ⟨d, .name x, false⟩ := by
    refine h.ending hlen (.inr fun t ht => ?_)
    obtain ⟨id, hid⟩ := hplain _ (shown_eq_some_iff.mp ht).2
    cases hid
  cases hentry : fs.entryAt? (d ++ [x]) with
  | none =>
    refine ⟨(fs.allot { modified := fs.now }).1.put (d ++ [x]) (.file fs.data.size), fs.data.size, ?_⟩
    simp [FileSystem.openFile, hend, look_name, hx, hentry, Ending.isName, Ending.location, allot,
      bind, Except.bind]
  | some e =>
    obtain ⟨id, rfl⟩ := hplain e hentry
    cases mode with
    | append =>
      refine ⟨fs, id, ?_⟩
      simp [FileSystem.openFile, hend, look_name, hx, hentry, Ending.isName, bind, Except.bind]
    | truncate =>
      refine ⟨fs.setContent id [], id, ?_⟩
      simp [FileSystem.openFile, hend, look_name, hx, hentry, Ending.isName, bind, Except.bind]

/-- A file gets another name in its directory that is short enough and no directory. -/
theorem Leads.rename_over {p q : Path} {id : FileId} (h : fs.Leads p d x) (h' : fs.Leads q d y)
    (hxy : x ≠ y) (hshown : fs.shown p d x = some (.file id)) (hlen : checkLength q = .ok ())
    (hy : isTooLong y = false) (hdir : fs.isDirectoryAt (d ++ [y]) = false) :
    fs.rename p q = .ok (fs.move (d ++ [x]) (d ++ [y])) := by
  obtain ⟨⟨hlenp, hx⟩, hentry⟩ := shown_eq_some_iff.mp hshown
  have hne : d ++ [x] ≠ d ++ [y] := by simpa using hxy
  have hprefix : (d ++ [y]).isPrefixOf (d ++ [x]) = false := by
    rw [← Bool.not_eq_true, List.isPrefixOf_iff_prefix]
    intro hpre
    exact hne (hpre.eq_of_length (by simp)).symm
  have hnull : refuseNull [p, q] = .ok () := by simp [refuseNull, h.nonnull, h'.nonnull]
  simp [FileSystem.rename, hnull, h.edge hlenp, h'.edge hlen, Ending.isName, look_name, hx, hy,
    hentry, Ending.location, checkMove, hprefix, hdir, hxy, bind, Except.bind]

/-- A file gets another name in its directory that is short enough and free. -/
theorem Leads.rename_eq_ok {p q : Path} {id : FileId} (h : fs.Leads p d x) (h' : fs.Leads q d y)
    (hxy : x ≠ y) (hshown : fs.shown p d x = some (.file id)) (hlen : checkLength q = .ok ())
    (hy : isTooLong y = false) (hfree : fs.entryAt? (d ++ [y]) = none) :
    fs.rename p q = .ok (fs.move (d ++ [x]) (d ++ [y])) :=
  h.rename_over h' hxy hshown hlen hy (by simp [isDirectoryAt, hfree])

/-- A file that is not there is made when it is opened. -/
theorem Leads.openFile_new {p : Path} {mode : FileMode} {id : FileId} (h : fs.Leads p d x)
    (hnone : fs.entryAt? (d ++ [x]) = none) (hok : fs.openFile p mode = .ok (fs', id)) :
    (checkLength p = .ok () ∧ isTooLong x = false) ∧ id = fs.data.size ∧
      fs' = (fs.allot { modified := fs.now }).1.put (d ++ [x]) (.file fs.data.size) := by
  obtain ⟨a, s, hend, -, -, hcases⟩ := openFile_cases hok
  obtain ⟨-, hlen, -⟩ := ending_cases hend
  have hend' : fs.ending (!·) p = .ok ⟨d, .name x, false⟩ := by
    refine h.ending hlen (.inr fun t ht => ?_)
    rw [(shown_eq_some_iff.mp ht).2] at hnone
    cases hnone
  rw [hend'] at hend
  obtain rfl := Except.ok.inj hend
  obtain ⟨hlook, -⟩ | ⟨hlook, hid, hfs⟩ := hcases
  · have hfound := (Leads.look_ok hlen hlook).2
    rw [(shown_eq_some_iff.mp hfound.symm).2] at hnone
    cases hnone
  · exact ⟨⟨hlen, (Leads.look_ok hlen hlook).1⟩, hid, hfs⟩

end Logbook.FileSystem
