import Logbook.Proofs.Files.Live

/-! # Trees that differ in times alone

    The way of a path is told by the entries of a tree, so it is the same in a tree that
    differs in the times of its files.  Directories that are made in both are made under
    the same names, and the trees still differ in times alone.
-/

namespace Logbook

namespace FileSystem

variable {fs fs' gs : FileSystem} {p : Path}

/-- **Alike**: two trees have the same entries, and the same contents of files. -/
structure Alike (fs gs : FileSystem) : Prop where
  entries : gs.entries = fs.entries
  size : gs.data.size = fs.data.size
  content : ∀ id, gs.contentOf id = fs.contentOf id

theorem Alike.of_data (hentries : gs.entries = fs.entries) (hdata : gs.data = fs.data) :
    fs.Alike gs :=
  ⟨hentries, by rw [hdata], fun id => by rw [contentOf, contentOf, hdata]⟩

theorem Alike.entryAt? (h : fs.Alike gs) (l : Location) : gs.entryAt? l = fs.entryAt? l :=
  entryAt?_congr h.entries l

theorem Alike.bytesAt (h : fs.Alike gs) (l : Location) : gs.bytesAt l = fs.bytesAt l :=
  bytesAt_congr (h.entryAt? l) fun id _ => h.content id

/-- A live file stays where it is when times change alone. -/
theorem Site.alike {d : Location} {x : String} {own : String → Bool} (hsite : Site p d x own fs)
    (h : fs.Alike gs) : Site p d x own gs := by
  refine hsite.congr (.of_entries h.entries) (hsite.sound.congr h.entries h.size) ?_
  intro e he
  rw [h.entryAt?] at he
  exact hsite.plain e he

/-! ## The same ways -/

section Ways

variable (h : gs.entries = fs.entries)
include h

theorem advance_congr (here : Location) (ps : List Path.Part) :
    gs.advance here ps = fs.advance here ps := by
  induction ps generalizing here with
  | nil => rfl
  | cons part ps ih => simp only [advance, entryAt?_congr h, ih]

theorem look_congr (e : Ending) : gs.look e = fs.look e := by
  simp only [look, entryAt?_congr h]

theorem walk_congr_entries (follow : Bool → Bool) (n : Nat) (here : Location)
    (ps : List Path.Part) (slash : Bool) :
    gs.walk follow n here ps slash = fs.walk follow n here ps slash := by
  induction n generalizing here ps slash with
  | zero =>
    unfold walk
    simp only [advance_congr h, look_congr h]
  | succ n ih =>
    unfold walk
    simp only [advance_congr h, look_congr h, ih]

theorem ending_congr (follow : Bool → Bool) (p : Path) : gs.ending follow p = fs.ending follow p := by
  simp only [ending, walk_congr_entries h]

theorem status_congr (follow : Bool) (p : Path) : gs.status follow p = fs.status follow p := by
  simp only [status, find, ending_congr h, look_congr h]

theorem isDirectory_congr (p : Path) : gs.isDirectory p = fs.isDirectory p := by
  simp only [isDirectory, status_congr h]

end Ways

/-! ## Directories that are made -/

/-- To make a directory comes out alike. -/
theorem Alike.makeDirectory (h : fs.Alike gs) (p : Path) :
    (∃ e, fs.makeDirectory p = .error e ∧ gs.makeDirectory p = .error e) ∨
      ∃ fs' gs', fs.makeDirectory p = .ok fs' ∧ gs.makeDirectory p = .ok gs' ∧ fs'.Alike gs' := by
  simp only [FileSystem.makeDirectory, edge, ending_congr h.entries, look_congr h.entries, bind,
    Except.bind]
  cases fs.ending (fun _ => false) p with
  | error e => exact .inl ⟨e, rfl, rfl⟩
  | ok e =>
    dsimp only
    split
    · exact .inl ⟨_, rfl, rfl⟩
    · cases fs.look e with
      | error e => exact .inl ⟨e, rfl, rfl⟩
      | ok found =>
        cases found with
        | some _ => exact .inl ⟨_, rfl, rfl⟩
        | none =>
          refine .inr ⟨_, _, rfl, rfl, ?_, ?_, fun id => ?_⟩
          · simp [put, allot, h.entries, h.size]
          · simp [put, allot, h.size]
          · have hfs := contentOf_allot fs { modified := fs.now } id
            have hgs := contentOf_allot gs { modified := gs.now } id
            rw [h.size, h.content] at hgs
            exact hgs.trans hfs.symm

/-- What is told of a directory that could not be made. -/
theorem Alike.settled (h : fs.Alike gs) (p : Path) (e : SystemError) :
    (if gs.isDirectory p then ((.ok (), gs) : Except SystemError Unit × FileSystem)
      else (.error e, gs)).1 =
        (if fs.isDirectory p then ((.ok (), fs) : Except SystemError Unit × FileSystem)
          else (.error e, fs)).1 ∧
      (if fs.isDirectory p then ((.ok (), fs) : Except SystemError Unit × FileSystem)
        else (.error e, fs)).2.Alike
          (if gs.isDirectory p then ((.ok (), gs) : Except SystemError Unit × FileSystem)
            else (.error e, gs)).2 := by
  rw [isDirectory_congr h.entries]
  split <;> exact ⟨rfl, h⟩

/-- To make a directory with those above it comes out alike. -/
theorem Alike.makeDirectoriesUpTo (h : fs.Alike gs) (n : Nat) (p : Path) :
    (gs.makeDirectoriesUpTo n p).1 = (fs.makeDirectoriesUpTo n p).1 ∧
      (fs.makeDirectoriesUpTo n p).2.Alike (gs.makeDirectoriesUpTo n p).2 := by
  induction n generalizing p fs gs with
  | zero => exact ⟨rfl, h⟩
  | succ n ih =>
    rw [FileSystem.makeDirectoriesUpTo, FileSystem.makeDirectoriesUpTo]
    split
    · exact ⟨rfl, h⟩
    · rcases h.makeDirectory p with ⟨e, hfs, hgs⟩ | ⟨fs', gs', hfs, hgs, hmade⟩
      · rw [hfs, hgs]
        by_cases he : e = .notFound
        · subst he
          dsimp only
          cases p.parent? with
          | none => exact ⟨rfl, h⟩
          | some parent =>
            dsimp only
            obtain ⟨hr, halike⟩ := ih h parent
            cases hfs₁ : fs.makeDirectoriesUpTo n parent with
            | mk r fs₁ =>
              cases hgs₁ : gs.makeDirectoriesUpTo n parent with
              | mk r' gs₁ =>
                rw [hfs₁, hgs₁] at hr halike
                obtain rfl : r' = r := hr
                cases r' with
                | error e => exact ⟨rfl, halike⟩
                | ok u =>
                  dsimp only
                  rcases halike.makeDirectory p with ⟨e, hfs', hgs'⟩ | ⟨fs', gs', hfs', hgs', hmade⟩
                  · rw [hfs', hgs']
                    exact halike.settled p e
                  · rw [hfs', hgs']
                    exact ⟨rfl, hmade⟩
        · -- Any other failure is settled by what is there.
          cases e <;> first | exact absurd rfl he | exact h.settled p _
      · rw [hfs, hgs]
        exact ⟨rfl, hmade⟩

end FileSystem

/-- A handle stands for the same file when times change alone. -/
theorem LogFile.Tracks.alike {f : LogFile} {d : Location} {x : String} {fs gs : FileSystem}
    (htracks : f.Tracks d x fs) (h : fs.Alike gs) : f.Tracks d x gs :=
  htracks.congr (h.entryAt? _) (h.bytesAt _)

/-- To make the directory of a live file comes out alike. -/
theorem LogFile.prepareDirectory_alike {fs gs : FileSystem} (h : fs.Alike gs) (path : Path) :
    (prepareDirectory path gs).1 = (prepareDirectory path fs).1 ∧
      (prepareDirectory path fs).2.Alike (prepareDirectory path gs).2 := by
  unfold prepareDirectory FileSystem.makeDirectories
  cases path.parent? with
  | none => exact ⟨rfl, h⟩
  | some parent =>
    dsimp only
    split
    · exact ⟨rfl, h⟩
    · obtain ⟨hr, halike⟩ := h.makeDirectoriesUpTo (parent.text.length + 1) parent
      cases hfs : fs.makeDirectoriesUpTo (parent.text.length + 1) parent with
      | mk r fs₁ =>
        cases hgs : gs.makeDirectoriesUpTo (parent.text.length + 1) parent with
        | mk r' gs₁ =>
          rw [hfs, hgs] at hr halike
          obtain rfl : r' = r := hr
          cases r' <;> exact ⟨rfl, halike⟩

end Logbook
