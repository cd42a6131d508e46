import Logbook.Proofs.Files.Opened

/-! # Directories that are made before a file is opened

    Before a live file is opened its directory is made, with those above it that are
    missing.  This may fail half-way, and what has been made by then stays.

    To do it again comes to the same and makes nothing more: what was made is there, and
    what could not be made cannot be made now.  A path of which a part does not lead to a
    directory names nothing, so that none of the directories above it can have been the
    reason if it fails a second time, or have gone missing if it does not.
-/

namespace Logbook

namespace FileSystem

variable {fs fs' : FileSystem} {follow : Bool → Bool} {n m : Nat} {here d l : Location}
  {ps : List Path.Part} {slash : Bool} {a : Ending} {p dir : Path}

/-! ## Directories -/

/-- A walk that does not follow a link at its end comes to the same end as any other,
    unless it ends at a link. -/
theorem walk_any (h : fs.walk (fun _ => false) n here ps slash = .ok a)
    (hnolink : ∀ t, fs.look a ≠ .ok (some (.link t))) :
    fs.walk follow n here ps slash = .ok a := by
  induction n using Nat.strongRecOn generalizing here ps slash with
  | _ n ih =>
    rcases walk_cases h with ⟨d, part, hadv, rfl, -⟩ | ⟨m, d, t, rest, rfl, hadv, hrest⟩ |
      ⟨m, d, part, t, rfl, -, -, hfollow, -⟩
    · exact walk_of_last hadv fun t ht => absurd ht (hnolink t)
    · rw [walk_succ_of_link hadv]
      exact ih m (Nat.lt_succ_self m) hrest
    · -- No link at the end has been followed.
      cases hfollow

/-- Where a walk comes to an end, one that does not follow a link at its end comes to
    that end or to a link. -/
theorem walk_stops (h : fs.walk follow n here ps slash = .ok a) :
    ∃ b, fs.walk (fun _ => false) n here ps slash = .ok b ∧
      (b = a ∨ ∃ t, fs.look b = .ok (some (.link t))) := by
  induction n using Nat.strongRecOn generalizing here ps slash with
  | _ n ih =>
    rcases walk_cases h with ⟨d, part, hadv, rfl, -⟩ | ⟨m, d, t, rest, rfl, hadv, hrest⟩ |
      ⟨m, d, part, t, rfl, hadv, hlook, -, -⟩
    · exact ⟨_, walk_of_last hadv fun _ _ => rfl, .inl rfl⟩
    · rw [walk_succ_of_link hadv]
      exact ih m (Nat.lt_succ_self m) hrest
    · exact ⟨_, walk_of_last hadv fun _ _ => rfl, .inr ⟨t, hlook⟩⟩

/-- The way of a path to a directory ends there. -/
theorem isDirectory_iff : fs.isDirectory p = true ↔
    ∃ a id, fs.ending (fun _ => true) p = .ok a ∧ fs.look a = .ok (some (.directory id)) := by
  constructor
  · intro h
    unfold isDirectory at h
    split at h
    · next id hstatus =>
      obtain ⟨a, hend, hlook, -⟩ := status_cases hstatus
      exact ⟨a, id, hend, hlook⟩
    · cases h
  · rintro ⟨a, id, hend, hlook⟩
    simp [isDirectory, status, find, hend, hlook, bind, Except.bind, Except.map]

/-- An ending that comes with the way of a path. -/
theorem ending_of_walk (hnull : p.hasNull = false) (hlen : checkLength p = .ok ())
    (hwalk : fs.walk follow linkLimit [] p.turns p.endsInSlash = .ok a) :
    fs.ending follow p = .ok a := by
  simp [ending, refuseNull, hnull, hlen, bind, Except.bind, hwalk]

/-- The way of a path to a directory also ends if a link at its end is not followed. -/
theorem edge_of_isDirectory (h : fs.isDirectory p = true) :
    ∃ a e, fs.edge p = .ok a ∧ fs.look a = .ok (some e) := by
  obtain ⟨a, id, hend, hlook⟩ := isDirectory_iff.mp h
  obtain ⟨hnull, hlen, hwalk⟩ := ending_cases hend
  obtain ⟨b, hstop, hb⟩ := walk_stops hwalk
  have hedge : fs.edge p = .ok b := ending_of_walk hnull hlen hstop
  rcases hb with rfl | ⟨t, ht⟩
  · exact ⟨b, .directory id, hedge, hlook⟩
  · exact ⟨b, .link t, hedge, ht⟩

/-- A directory that is there stays when nothing is lost. -/
theorem Keeps.isDirectory (hkeeps : fs.Keeps fs') (h : fs.isDirectory p = true) :
    fs'.isDirectory p = true := by
  obtain ⟨a, id, hend, hlook⟩ := isDirectory_iff.mp h
  obtain ⟨hnull, hlen, hwalk⟩ := ending_cases hend
  -- The walk ends at the same place, and the directory there is kept.
  have hlook' : fs'.look a = .ok (some (.directory id)) := by
    have hentry := hkeeps.entry (entryAt?_of_look hlook)
    unfold look at hlook ⊢
    split at hlook
    · split at hlook
      · cases hlook
      · next hshort => rw [if_neg hshort, hentry]
    · rw [hentry]
  have hwalk' := walk_mono hkeeps.covers hwalk fun t ht => by
    rw [hlook'] at ht
    cases ht
  exact isDirectory_iff.mpr ⟨a, id, ending_of_walk hnull hlen hwalk', hlook'⟩

/-- A way that goes on from somewhere, or ends in a directory there, is in a directory. -/
theorem Way.isDirectoryAt (h : fs.Way n here ps d m) (hd : fs.isDirectoryAt d = true) :
    fs.isDirectoryAt here = true := by
  cases h with
  | nil => exact hd
  | turn _ hhere _ | name hhere _ _ _ | link hhere _ _ _ => exact hhere

/-- The parent of a path that leads somewhere is a directory. -/
theorem isDirectory_parent (h : fs.edge p = .ok a) (hparent : p.parent? = some dir) :
    dir.text.isEmpty = true ∨ fs.isDirectory dir = true := by
  obtain ⟨hnull, hlen, hwalk⟩ := ending_cases h
  rcases Path.turns_of_parent? hparent with hempty | ⟨here, rest, hturns, -, hrest, hne, hinit⟩
  · exact .inl (by simpa using hempty)
  · right
    obtain ⟨rs, x, rfl⟩ : ∃ rs x, rest = rs ++ [x] := by
      rcases List.eq_nil_or_concat rest with rfl | ⟨rs, x, rfl⟩
      · exact absurd rfl hrest
      · exact ⟨rs, x, List.concat_eq_append⟩
    -- The way of the parent is the front of the way of the path, and stops in a directory
    -- because the way goes on there.
    rw [hturns, ← List.append_assoc, List.append_assoc dir.turns] at hwalk
    obtain ⟨d, m, -, hd, hway⟩ := way_of_walk rfl hwalk
    obtain ⟨l, k, hfirst, hon⟩ := hway.split
    obtain ⟨id, hfind⟩ := find_directory (hasNull_of_start hinit hnull)
      (checkLength_of_start hinit hne hlen) hfirst (hon.isDirectoryAt hd)
    simp [isDirectory, status, hfind, Except.map]

/-! ## One directory -/

/-- A directory is not made where there is one. -/
theorem makeDirectory_of_isDirectory (h : fs.isDirectory p = true) :
    fs.makeDirectory p = .error .alreadyExists := by
  obtain ⟨a, e, hedge, hlook⟩ := edge_of_isDirectory h
  simp only [makeDirectory, hedge, hlook, bind, Except.bind]
  split <;> rfl

/-- A directory that has been made is there. -/
theorem isDirectory_of_makeDirectory (h : fs.makeDirectory p = .ok fs') :
    fs'.isDirectory p = true := by
  have hkeeps := makeDirectory_keeps h
  obtain ⟨a, hedge, hname, hlook, rfl⟩ := makeDirectory_cases h
  obtain ⟨s, hloc, hpart⟩ := Ending.location_of_isName hname
  have hfound : look ((fs.allot { modified := fs.now }).1.put a.location
      (.directory fs.data.size)) a = .ok (some (.directory fs.data.size)) := by
    simp only [look, hpart] at hlook ⊢
    split at hlook
    · cases hlook
    · next hshort =>
      rw [if_neg hshort, hloc]
      exact congrArg Except.ok ((entryAt?_put (child_ne_nil _ s) _ _).trans (if_pos rfl))
  have hnolink : ∀ t, look ((fs.allot { modified := fs.now }).1.put a.location
      (.directory fs.data.size)) a ≠ .ok (some (.link t)) := by
    intro t ht
    rw [hfound] at ht
    cases ht
  -- The way is the same as before, and ends at the directory now.
  obtain ⟨hnull, hlen, hwalk⟩ := ending_cases hedge
  have hwalk' := walk_mono hkeeps.covers hwalk hnolink
  exact isDirectory_iff.mpr
    ⟨a, _, ending_of_walk hnull hlen (walk_any hwalk' hnolink), hfound⟩

/-! ## A directory and those above it -/

/-- Nothing is made where the directory is there. -/
theorem makeDirectoriesUpTo_of_there (h : p.text.isEmpty = true ∨ fs.isDirectory p = true)
    (n : Nat) : fs.makeDirectoriesUpTo (n + 1) p = (.ok (), fs) := by
  rw [makeDirectoriesUpTo]
  split
  · rfl
  · next hne =>
    have hdir := h.resolve_left hne
    rw [makeDirectory_of_isDirectory hdir]
    dsimp only
    rw [if_pos hdir]

/-- What has been made is there. -/
theorem there_of_makeDirectoriesUpTo (h : fs.makeDirectoriesUpTo n p = (.ok (), fs')) :
    p.text.isEmpty = true ∨ fs'.isDirectory p = true := by
  have hthere : ∀ {gs : FileSystem}, Attempt p gs (.ok ()) fs' → fs'.isDirectory p = true := by
    intro gs honce
    cases honce with
    | made hmake => exact isDirectory_of_makeDirectory hmake
    | there _ hdir => exact hdir
  cases n with
  | zero => cases (Prod.mk.inj h).1
  | succ n =>
    rcases makeDirectoriesUpTo_cases h with ⟨hempty, -⟩ | ⟨-, honce | ⟨-, ⟨e, he⟩, -⟩ |
      ⟨dir, r₁, fs₁, -, -, ⟨e, -, he, -⟩ | ⟨-, honce⟩⟩⟩
    · exact .inl hempty
    · exact .inr (hthere honce)
    · cases he
    · cases he
    · exact .inr (hthere honce)

/-- How a directory could not be made. -/
theorem makeDirectoriesUpTo_error {e : SystemError}
    (h : fs.makeDirectoriesUpTo (n + 1) p = (.error e, fs')) :
    p.text.isEmpty = false ∧
      (fs' = fs ∨
        (∃ dir e', p.parent? = some dir ∧ fs.makeDirectoriesUpTo n dir = (.error e', fs')) ∨
        ∃ dir e', p.parent? = some dir ∧ fs.makeDirectoriesUpTo n dir = (.ok (), fs') ∧
          fs'.makeDirectory p = .error e' ∧ fs'.isDirectory p = false) := by
  rcases makeDirectoriesUpTo_cases h with ⟨-, hok, -⟩ | ⟨hname, honce | ⟨-, -, rfl⟩ |
    ⟨dir, r₁, fs₁, hparent, hup, ⟨e', rfl, -, rfl⟩ | ⟨rfl, honce⟩⟩⟩
  · cases hok
  · cases honce
    exact ⟨hname, .inl rfl⟩
  · exact ⟨hname, .inl rfl⟩
  · exact ⟨hname, .inr (.inl ⟨dir, e', hparent, hup⟩)⟩
  · cases honce with
    | failed hfail hdir => exact ⟨hname, .inr (.inr ⟨dir, e, hparent, hup, hfail, hdir⟩)⟩

/-- A directory is not made if it cannot be and those above it need not or cannot be. -/
theorem makeDirectoriesUpTo_fails {e : SystemError} (hne : p.text.isEmpty = false)
    (hmake : fs.makeDirectory p = .error e) (hdir : fs.isDirectory p = false)
    (hup : ∀ dir, p.parent? = some dir → ∃ r, fs.makeDirectoriesUpTo n dir = (r, fs)) :
    ∃ e', fs.makeDirectoriesUpTo (n + 1) p = (.error e', fs) := by
  rw [makeDirectoriesUpTo, hne, hmake]
  simp only [Bool.false_eq_true, if_false, hdir]
  -- Only a missing parent makes it try those above.
  by_cases he : e = .notFound
  · subst he
    dsimp only
    cases hparent : p.parent? with
    | none => exact ⟨_, rfl⟩
    | some dir =>
      obtain ⟨r, hr⟩ := hup dir hparent
      dsimp only
      rw [hr]
      cases r with
      | error e => exact ⟨_, rfl⟩
      | ok u =>
        dsimp only
        rw [hmake]
        simp only [hdir, Bool.false_eq_true, if_false]
        exact ⟨_, rfl⟩
  · cases e <;> first | exact absurd rfl he | exact ⟨_, rfl⟩

/-- **What could not be made cannot be made again**, and nothing more is made in the
    attempt. -/
theorem makeDirectoriesUpTo_again {e : SystemError}
    (h : fs.makeDirectoriesUpTo n p = (.error e, fs')) :
    ∃ e', fs'.makeDirectoriesUpTo n p = (.error e', fs') := by
  -- The induction goes up the path; at each directory the three ways to fail are told apart.
  induction n generalizing p e with
  | zero => exact ⟨_, rfl⟩
  | succ n ih =>
    obtain ⟨hne, rfl | ⟨dir, e', hparent, hup⟩ | ⟨dir, e', hparent, hup, hmake, hdir⟩⟩ :=
      makeDirectoriesUpTo_error h
    · exact ⟨e, h⟩
    · -- The directories above could not be made, so the path leads nowhere even now.
      cases n with
      | zero =>
        obtain rfl := (Prod.mk.inj hup).2
        exact ⟨e, h⟩
      | succ n =>
        obtain ⟨e'', hagain⟩ := ih hup
        have hmissing : ¬ (dir.text.isEmpty = true ∨ fs'.isDirectory dir = true) := by
          intro hthere
          rw [makeDirectoriesUpTo_of_there hthere] at hagain
          cases (Prod.mk.inj hagain).1
        have hlost : ∀ a, fs'.edge p ≠ .ok a :=
          fun a ha => hmissing (isDirectory_parent ha hparent)
        have hdir : fs'.isDirectory p = false := by
          rw [Bool.eq_false_iff]
          intro hthere
          obtain ⟨a, -, ha, -⟩ := edge_of_isDirectory hthere
          exact hlost a ha
        cases hmake : fs'.makeDirectory p with
        | ok fs₂ =>
          obtain ⟨a, ha, -⟩ := makeDirectory_cases hmake
          exact absurd ha (hlost a)
        | error e₂ =>
          refine makeDirectoriesUpTo_fails hne hmake hdir fun dir' hdir' => ?_
          obtain rfl : dir = dir' := Option.some.inj (hparent.symm.trans hdir')
          exact ⟨_, hagain⟩
    · -- The directories above are there, and the failure is one of this directory alone.
      refine makeDirectoriesUpTo_fails hne hmake hdir fun dir' hdir' => ?_
      obtain rfl : dir = dir' := Option.some.inj (hparent.symm.trans hdir')
      cases n with
      | zero => cases (Prod.mk.inj hup).1
      | succ n =>
        exact ⟨_, makeDirectoriesUpTo_of_there (there_of_makeDirectoriesUpTo hup) n⟩

end FileSystem

namespace LogFile

open FileSystem

variable {path : Path} {fs fs' : FileSystem} {r : Except LogError Unit}

/-! ## The directory of a live file -/

/-- **Directory there**: the directory that a path is to be in is there, or none is
    named. -/
def DirectoryThere (path : Path) (fs : FileSystem) : Prop :=
  ∀ dir, path.parent? = some dir → dir.text.isEmpty = true ∨ fs.isDirectory dir = true

/-- A directory that is there stays when nothing is lost. -/
theorem DirectoryThere.keeps (h : DirectoryThere path fs) (hkeeps : fs.Keeps fs') :
    DirectoryThere path fs' :=
  fun dir hdir => (h dir hdir).imp_right hkeeps.isDirectory

/-- A directory is there in every tree with the same entries. -/
theorem DirectoryThere.congr (h : DirectoryThere path fs) (hentries : fs'.entries = fs.entries) :
    DirectoryThere path fs' := by
  intro dir hdir
  rw [isDirectory_congr hentries]
  exact h dir hdir

/-- Where the directory is there, nothing is made. -/
theorem prepareDirectory_of_there (h : DirectoryThere path fs) :
    prepareDirectory path fs = (.ok (), fs) := by
  unfold prepareDirectory
  cases hparent : path.parent? with
  | none => rfl
  | some dir =>
    dsimp only
    split
    · rfl
    · rw [makeDirectories, makeDirectoriesUpTo_of_there (h dir hparent)]

/-- A directory that has been made is there. -/
theorem there_of_prepareDirectory (h : prepareDirectory path fs = (.ok (), fs')) :
    DirectoryThere path fs' := by
  intro dir hdir
  unfold prepareDirectory at h
  rw [hdir] at h
  dsimp only at h
  split at h
  · next hempty => exact .inl hempty
  · split at h
    · next fs₁ hmade =>
      obtain rfl := (Prod.mk.inj h).2
      exact there_of_makeDirectoriesUpTo hmade
    · cases (Prod.mk.inj h).1

/-- **To make the directory again comes to the same** and changes nothing. -/
theorem prepareDirectory_again (h : prepareDirectory path fs = (r, fs')) :
    ∃ r', prepareDirectory path fs' = (r', fs') ∧ (r' = .ok () ↔ r = .ok ()) := by
  cases r with
  | ok u =>
    exact ⟨.ok (), prepareDirectory_of_there (there_of_prepareDirectory h), Iff.rfl⟩
  | error e =>
    unfold prepareDirectory at h ⊢
    cases hparent : path.parent? with
    | none =>
      rw [hparent] at h
      cases (Prod.mk.inj h).1
    | some dir =>
      rw [hparent] at h
      dsimp only at h ⊢
      split at h
      · cases (Prod.mk.inj h).1
      · next hne =>
        rw [if_neg hne]
        split at h
        · cases (Prod.mk.inj h).1
        · next e' fs₁ hmade =>
          obtain rfl := (Prod.mk.inj h).2
          -- What failed fails again, perhaps with another error.
          obtain ⟨e'', hagain⟩ := makeDirectoriesUpTo_again hmade
          rw [makeDirectories, hagain]
          exact ⟨_, rfl, by simp⟩

end LogFile

end Logbook
