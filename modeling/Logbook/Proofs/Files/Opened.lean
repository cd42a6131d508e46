import Logbook.Proofs.Files.Alike
import Logbook.Proofs.Files.WellFormed

/-! # Files that have been opened

    To open a file follows the same way as to ask what its path names.  A file that has
    just been opened is therefore what its path names, whether it was there or has been
    made, and whatever links the way leads through.

    The identity of a file is given once.  It stays the identity of that file when the
    name is moved or taken away, also of a file that is only held open any more; no other
    file and no directory ever gets it.
-/

namespace Logbook

namespace FileSystem

variable {fs fs' fs'' : FileSystem} {follow : Bool → Bool} {n : Nat} {here l : Location}
  {ps : List Path.Part} {slash : Bool} {a : Ending} {p : Path} {id : FileId} {e : Entry}

/-! ## Walks in a tree that has more -/

/-- A stretch comes to the same halt in a tree that covers the first one. -/
theorem advance_mono {stop : Stop} (hc : fs'.Covers fs) (h : fs.advance here ps = .ok stop) :
    fs'.advance here ps = .ok stop := by
  induction ps generalizing here with
  | nil => exact h
  | cons part ps ih =>
    have hhere := isDirectoryAt_of_advance h (List.cons_ne_nil part ps)
    have hhere' := hc.directory hhere
    by_cases hps : ps = []
    · subst hps
      rw [advance_last hhere] at h
      rw [advance_last hhere', h]
    · -- Each step of the stretch is one in the tree that covers the first one, too.
      rcases advance_cases h hps with ⟨hpart, hrest⟩ | ⟨s, rfl, hs, ⟨t, ht, rfl⟩ | hrest⟩
      · rw [advance_turn hpart hhere' hps]
        exact ih hrest
      · exact advance_link hhere' hs (hc.link ht) hps
      · have hnext := isDirectoryAt_of_advance hrest hps
        rw [advance_name hhere' hs (hc.directory hnext) hps]
        exact ih hrest

/-- A link that is looked up is there in a tree that covers the first one. -/
theorem look_link_mono {t : Path} (hc : fs'.Covers fs) (h : fs.look a = .ok (some (.link t))) :
    fs'.look a = .ok (some (.link t)) := by
  unfold look at h ⊢
  split at h
  · split at h
    · cases h
    · next hshort =>
      rw [if_neg hshort, hc.link (Except.ok.inj h)]
  · rw [hc.link (Except.ok.inj h)]

/-- A walk ends at the same place in a tree that covers the first one, unless a link to
    be followed has come there: by induction on the links that may be used. -/
theorem walk_mono (hc : fs'.Covers fs) (h : fs.walk follow n here ps slash = .ok a)
    (hend : ∀ t, fs'.look a ≠ .ok (some (.link t))) :
    fs'.walk follow n here ps slash = .ok a := by
  induction n using Nat.strongRecOn generalizing here ps slash with
  | ind n ih =>
    rcases walk_cases h with ⟨d, part, hadv, rfl, -⟩ | ⟨m, d, t, rest, rfl, hadv, hrest⟩ |
      ⟨m, d, part, t, rfl, hadv, hlook, hfollow, hrest⟩
    · exact walk_of_last (advance_mono hc hadv) fun t ht => absurd ht (hend t)
    · rw [walk_succ_of_link (advance_mono hc hadv)]
      exact ih m (Nat.lt_succ_self m) hrest
    · rw [walk_succ_of_last_link (advance_mono hc hadv) (look_link_mono hc hlook) hfollow]
      exact ih m (Nat.lt_succ_self m) hrest

/-- A walk that has met no slash at its end follows links there whether it is to do so
    always or only without a slash. -/
theorem walk_always (h : fs.walk (!·) n here ps slash = .ok a) (ha : a.slash = false) :
    fs.walk (fun _ => true) n here ps slash = .ok a := by
  induction n using Nat.strongRecOn generalizing here ps slash with
  | ind n ih =>
    rcases walk_cases h with ⟨d, part, hadv, rfl, hlink⟩ | ⟨m, d, t, rest, rfl, hadv, hrest⟩ |
      ⟨m, d, part, t, rfl, hadv, hlook, -, hrest⟩
    · -- A link at the end would have been followed without a slash, which is the case here.
      apply walk_of_last hadv
      intro t ht
      have hslash := hlink t ht
      rw [show slash = false from ha] at hslash
      cases hslash
    · rw [walk_succ_of_link hadv]
      exact ih m (Nat.lt_succ_self m) hrest
    · rw [walk_succ_of_last_link hadv hlook rfl]
      exact ih m (Nat.lt_succ_self m) hrest

/-! ## What is opened -/

/-- A tree in which every entry is where it was has the directories and the links. -/
theorem Keeps.covers (h : fs.Keeps fs') : fs'.Covers fs := by
  refine ⟨?_, h.entry⟩
  intro l hl
  obtain ⟨i, hi⟩ := isDirectoryAt_iff.mp hl
  exact isDirectoryAt_iff.mpr ⟨i, h.entry hi⟩

/-- A file that has been opened is what the path names. -/
theorem status_of_openFile (h : fs.openFile p .append = .ok (fs', id)) :
    fs'.status true p = .ok (.file id) := by
  have hkeeps := openFile_keeps h
  obtain ⟨a, s, hend, hslash, hpart, hcases⟩ := openFile_cases h
  -- The file is found where the way ends, in the tree in which it is there.
  have hfound : fs'.look a = .ok (some (.file id)) := by
    rcases hcases with ⟨hlook, hsame, -⟩ | ⟨hlook, rfl, rfl⟩
    · rw [hsame rfl]
      exact hlook
    · have hloc : a.location = a.directory ++ [s] := by simp [Ending.location, hpart]
      simp only [look, hpart] at hlook ⊢
      split at hlook
      · cases hlook
      · next hshort =>
        rw [if_neg hshort, hloc]
        exact congrArg Except.ok ((entryAt?_put (child_ne_nil _ s) _ _).trans (if_pos rfl))
  have hnolink : ∀ t, fs'.look a ≠ .ok (some (.link t)) := by
    intro t ht
    rw [hfound] at ht
    cases ht
  obtain ⟨hnull, hlen, hwalk⟩ := ending_cases hend
  have hwalk' := walk_mono hkeeps.covers (walk_always hwalk hslash) hnolink
  have hend' : fs'.ending (fun _ => true) p = .ok a := by
    simp [ending, refuseNull, hnull, hlen, bind, Except.bind, hwalk']
  simp [status, find, hend', hfound, hslash, bind, Except.bind, Except.map]

/-! ## Identities -/

/-- **Held**: an identity is that of a file whose data are there, and no directory has
    it. -/
structure Held (fs : FileSystem) (id : FileId) : Prop where
  known : id < fs.data.size
  notRoot : id ≠ 0
  apart : ∀ l, (l, Entry.directory id) ∉ fs.entries

/-- **Told apart**: no identity is both that of a file and that of a directory, and
    those that are still to be given are not in use. -/
structure ToldApart (fs : FileSystem) : Prop where
  root : 0 < fs.data.size
  file : ∀ l i, (l, Entry.file i) ∈ fs.entries → fs.Held i
  directory : ∀ l i, (l, Entry.directory i) ∈ fs.entries → i < fs.data.size

/-- The files at first: none. -/
theorem toldApart_empty : ({} : FileSystem).ToldApart :=
  ⟨by decide, nofun, nofun⟩

/-- What a location other than the root holds is among the entries. -/
theorem mem_entries (hl : l ≠ []) (h : fs.entryAt? l = some e) : (l, e) ∈ fs.entries := by
  rw [entryAt?_eq_lookup hl] at h
  obtain ⟨xs, ys, heq, -⟩ := List.lookup_eq_some_iff.mp h
  simp [heq]

/-- The file at a location is held. -/
theorem ToldApart.held (h : fs.ToldApart) (hl : fs.entryAt? l = some (.file id)) : fs.Held id := by
  have hroot : l ≠ [] := by
    rintro rfl
    cases hl
  exact h.file l id (mem_entries hroot hl)

/-- What is looked up is at its location. -/
theorem entryAt?_of_look {found : Option Entry} (h : fs.look a = .ok found) :
    fs.entryAt? a.location = found := by
  unfold look at h
  split at h
  · split at h
    · cases h
    · exact Except.ok.inj h
  · exact Except.ok.inj h

/-- What a path names is found at the end of its way; only a directory can be named with a
    slash after it. -/
theorem status_cases (h : fs.status true p = .ok e) :
    ∃ a, fs.ending (fun _ => true) p = .ok a ∧ fs.look a = .ok (some e) ∧
      (a.slash = false ∨ ∃ i, e = .directory i) := by
  unfold status find at h
  cases hend : fs.ending (true || ·) p with
  | error err =>
    rw [hend] at h
    cases h
  | ok a =>
    rw [hend] at h
    simp only [bind, Except.bind] at h
    cases hfound : fs.look a with
    | error err =>
      rw [hfound] at h
      cases h
    | ok found =>
      rw [hfound] at h
      cases found with
      | none => cases h
      | some entry =>
        cases entry with
        | directory i =>
          obtain rfl := Except.ok.inj h
          exact ⟨a, hend, hfound, .inr ⟨i, rfl⟩⟩
        -- With a slash after it only a directory can be named.
        | file i | link t =>
          dsimp only at h
          split at h
          · cases h
          · next hslash =>
            obtain rfl := Except.ok.inj h
            exact ⟨a, hend, hfound, .inl (Bool.eq_false_iff.mpr hslash)⟩

/-- What a path names is at some location. -/
theorem entryAt?_of_status (h : fs.status true p = .ok e) : ∃ l, fs.entryAt? l = some e := by
  obtain ⟨a, -, hlook, -⟩ := status_cases h
  exact ⟨a.location, entryAt?_of_look hlook⟩

/-- A path with the identity of a file names that file. -/
theorem status_of_identity (hheld : fs.Held id) (h : fs.identity? p = some id) :
    fs.status true p = .ok (.file id) := by
  unfold identity? at h
  split at h
  · next i hi =>
    obtain rfl := Option.some.inj h
    exact hi
  · next i hi =>
    obtain rfl := Option.some.inj h
    obtain ⟨l, hl⟩ := entryAt?_of_status hi
    -- What is held is neither the root nor any other directory.
    by_cases hroot : l = []
    · subst hroot
      exact absurd (Entry.directory.inj (Option.some.inj hl)).symm hheld.notRoot
    · exact absurd (mem_entries hroot hl) (hheld.apart l)
  · cases h

/-- The identity of a path that names a file. -/
theorem identity?_of_status (h : fs.status true p = .ok (.file id)) : fs.identity? p = some id := by
  rw [identity?, h]

/-- **Outlives**: the files that are held in a tree are held in another, in which files
    and directories are told apart if they were. -/
structure Outlives (fs fs' : FileSystem) : Prop where
  held : ∀ {id}, fs.Held id → fs'.Held id
  apart : fs.ToldApart → fs'.ToldApart

namespace Outlives

theorem refl (fs : FileSystem) : fs.Outlives fs := ⟨id, id⟩

theorem trans (h : fs.Outlives fs') (h' : fs'.Outlives fs'') : fs.Outlives fs'' :=
  ⟨fun hheld => h'.held (h.held hheld), fun hapart => h'.apart (h.apart hapart)⟩

/-- A tree with entries of another, perhaps at other places, and links. -/
theorem of_entries (hsize : fs'.data.size = fs.data.size)
    (hentries : ∀ l e, (l, e) ∈ fs'.entries → (∃ k, (k, e) ∈ fs.entries) ∨ ∃ t, e = .link t) :
    fs.Outlives fs' := by
  -- A file is held unless a directory has its identity, and no new one has.
  have hheld : ∀ {id}, fs.Held id → fs'.Held id := by
    intro i hi
    refine ⟨hsize ▸ hi.known, hi.notRoot, ?_⟩
    intro l hl
    rcases hentries l _ hl with ⟨k, hk⟩ | ⟨t, ht⟩
    · exact hi.apart k hk
    · cases ht
  refine ⟨hheld, ?_⟩
  intro hapart
  refine ⟨hsize ▸ hapart.root, ?_, ?_⟩
  · intro l i hl
    rcases hentries l _ hl with ⟨k, hk⟩ | ⟨t, ht⟩
    · exact hheld (hapart.file k i hk)
    · cases ht
  · intro l i hl
    rcases hentries l _ hl with ⟨k, hk⟩ | ⟨t, ht⟩
    · exact hsize ▸ hapart.directory k i hk
    · cases ht

/-- An entry with a new identity. -/
theorem put_allot (fs : FileSystem) (data : FileData) (l : Location)
    (he : e = .file fs.data.size ∨ e = .directory fs.data.size) :
    fs.Outlives ((fs.allot data).1.put l e) := by
  have hsize : ((fs.allot data).1.put l e).data.size = fs.data.size + 1 := by simp [put, allot]
  have hentries : ∀ k b, (k, b) ∈ ((fs.allot data).1.put l e).entries →
      b = e ∨ (k, b) ∈ fs.entries := by
    intro k b hb
    simp only [put, allot, List.mem_cons, List.mem_filter, Prod.mk.injEq] at hb
    rcases hb with ⟨-, heq⟩ | ⟨hb, -⟩
    · exact .inl heq
    · exact .inr hb
  -- What is held is known already, and the new identity is not.
  have hheld : ∀ {id}, fs.Held id → ((fs.allot data).1.put l e).Held id := by
    intro i hi
    have hknown := hi.known
    refine ⟨hsize ▸ Nat.lt_succ_of_lt hknown, hi.notRoot, ?_⟩
    intro k hk
    rcases hentries k _ hk with heq | hold
    · rcases he with rfl | rfl
      · cases heq
      · obtain rfl := Entry.directory.inj heq
        exact Nat.lt_irrefl _ hknown
    · exact hi.apart k hold
  refine ⟨hheld, ?_⟩
  intro hapart
  have hroot := hapart.root
  refine ⟨hsize ▸ Nat.succ_pos _, ?_, ?_⟩
  · intro k i hk
    rcases hentries k _ hk with heq | hold
    · rcases he with rfl | rfl
      · -- The new identity is beyond those of all directories.
        obtain rfl := Entry.file.inj heq
        refine ⟨hsize ▸ Nat.lt_succ_self _, Nat.ne_of_gt hroot, ?_⟩
        intro j hj
        rcases hentries j _ hj with heq' | hold
        · cases heq'
        · exact Nat.lt_irrefl _ (hapart.directory j _ hold)
      · cases heq
    · exact hheld (hapart.file k i hold)
  · intro k i hk
    rcases hentries k _ hk with heq | hold
    · rcases he with rfl | rfl
      · cases heq
      · obtain rfl := Entry.directory.inj heq
        exact hsize ▸ Nat.lt_succ_self _
    · exact hsize ▸ Nat.lt_succ_of_lt (hapart.directory k i hold)

/-- A tree that differs in the contents and the times of files alone. -/
theorem of_data (hentries : fs'.entries = fs.entries) (hsize : fs'.data.size = fs.data.size) :
    fs.Outlives fs' := by
  apply of_entries hsize
  intro l e he
  rw [hentries] at he
  exact .inl ⟨l, he⟩

end Outlives

/-- What is made holds nothing, as it did before it was there. -/
theorem contentOf_allot_empty (fs : FileSystem) {data : FileData} (hdata : data.content = [])
    (id : FileId) : (fs.allot data).1.contentOf id = fs.contentOf id := by
  rw [contentOf_allot]
  split
  · next heq =>
    subst heq
    simp [hdata, contentOf, Array.getD_eq_getD_getElem?]
  · rfl

/-- To make a directory touches no file. -/
theorem makeDirectory_outlives (h : fs.makeDirectory p = .ok fs') :
    fs.Outlives fs' ∧ ∀ id, fs'.contentOf id = fs.contentOf id := by
  obtain ⟨a, -, -, -, rfl⟩ := makeDirectory_cases h
  exact ⟨.put_allot fs _ _ (.inr rfl), contentOf_allot_empty fs rfl⟩

/-- To open a file takes no other file away. -/
theorem openFile_outlives {mode : FileMode} (h : fs.openFile p mode = .ok (fs', id)) :
    fs.Outlives fs' := by
  obtain ⟨a, s, -, -, -, ⟨-, hsame, hcut⟩ | ⟨-, -, rfl⟩⟩ := openFile_cases h
  · cases mode with
    | append =>
      rw [hsame rfl]
      exact .refl fs
    | truncate =>
      rw [hcut rfl]
      exact .of_data rfl (size_setContent fs id [])
  · exact .put_allot fs _ _ (.inl rfl)

/-- To open a file to append to it changes no content. -/
theorem contentOf_openFile (h : fs.openFile p .append = .ok (fs', id)) (other : FileId) :
    fs'.contentOf other = fs.contentOf other := by
  obtain ⟨a, s, -, -, -, ⟨-, hsame, -⟩ | ⟨-, -, rfl⟩⟩ := openFile_cases h
  · rw [hsame rfl]
  · exact contentOf_allot_empty fs rfl other

/-- To open a file to begin it anew does to the names what to open it to append to it
    does, and to no other file more. -/
theorem openFile_append_of {mode : FileMode} (h : fs.openFile p mode = .ok (fs', id)) :
    ∃ fs₁, fs.openFile p .append = .ok (fs₁, id) ∧ fs'.entries = fs₁.entries ∧
      ∀ other, mode = .append ∨ other ≠ id → fs'.contentOf other = fs₁.contentOf other := by
  cases mode with
  | append => exact ⟨fs', h, rfl, fun _ _ => rfl⟩
  | truncate =>
    obtain ⟨a, s, hend, hslash, hpart, hcases⟩ := openFile_cases h
    have hname : a.isName = true := by rw [Ending.isName, hpart]
    -- A file that is there is cut, and one that is not is made as it would be to append to it.
    rcases hcases with ⟨hlook, -, hcut⟩ | ⟨hlook, rfl, rfl⟩
    · refine ⟨fs, ?_, ?_, fun other hother => ?_⟩
      · simp [openFile, hend, hslash, hname, hlook, bind, Except.bind]
      · rw [hcut rfl]
        rfl
      · have hne : other ≠ id := by simpa using hother
        rw [hcut rfl]
        simp [contentOf, setContent, Array.getD_eq_getD_getElem?, Array.getElem?_modify, Ne.symm hne]
    · refine ⟨_, ?_, rfl, fun _ _ => rfl⟩
      simp [openFile, hend, hslash, hname, hlook, bind, Except.bind, allot]

/-- **Opens**: every entry is where it was, and every file holds what it held, unless it is
    the one that a path names then and is begun anew. -/
structure Opens (p : Path) (mode : FileMode) (fs fs' : FileSystem) : Prop where
  entry : ∀ {l e}, fs.entryAt? l = some e → fs'.entryAt? l = some e
  content : ∀ id, mode = .append ∨ fs'.status true p ≠ .ok (.file id) →
    fs'.contentOf id = fs.contentOf id

/-- To open a file opens it at most. -/
theorem openFile_opens {mode : FileMode} (h : fs.openFile p mode = .ok (fs', id)) :
    Opens p mode fs fs' := by
  obtain ⟨fs₁, hopen, hentries, hcontent⟩ := openFile_append_of h
  refine ⟨fun hl => ?_, fun other hother => ?_⟩
  · rw [entryAt?_congr hentries]
    exact (openFile_keeps hopen).entry hl
  · rw [hcontent other, contentOf_openFile hopen]
    refine hother.imp_right fun hnot heq => hnot ?_
    rw [status_congr hentries, heq]
    exact status_of_openFile hopen

/-! ## What others do -/

/-- **Disturbance**: somebody else renames something, removes a file or a link, writes a
    file from its start, makes a directory or a link, or changes times. -/
inductive Disturbance : FileSystem → FileSystem → Prop where
  | rename {fs fs' : FileSystem} {p q : Path} (h : fs.rename p q = .ok fs') : Disturbance fs fs'
  | remove {fs fs' : FileSystem} {p : Path} (h : fs.removeFile p = .ok fs') : Disturbance fs fs'
  | write {fs fs' : FileSystem} {p : Path} {bytes : List UInt8}
      (h : fs.writePath p bytes = .ok fs') : Disturbance fs fs'
  | directory {fs fs' : FileSystem} {p : Path} (h : fs.makeDirectory p = .ok fs') :
      Disturbance fs fs'
  | link {fs fs' : FileSystem} {p q : Path} (h : fs.makeLink p q = .ok fs') : Disturbance fs fs'
  | time {fs fs' : FileSystem} (h : fs.Alike fs') : Disturbance fs fs'

/-- A file that is held is held after whatever others do. -/
theorem Disturbance.outlives (h : fs.Disturbance fs') : fs.Outlives fs' := by
  cases h with
  | rename h =>
    obtain ⟨old, new, -, -, -, -, -, -, -, -, -, rfl⟩ := rename_cases h
    split
    · exact .refl fs
    · -- A move gives entries other places.
      refine Outlives.of_entries rfl ?_
      intro l e he
      left
      simp only [move, List.mem_map, List.mem_filter, Prod.mk.injEq] at he
      obtain ⟨⟨k, b⟩, ⟨hk, -⟩, -, rfl⟩ := he
      exact ⟨k, hk⟩
  | remove h =>
    obtain ⟨a, -, -, -, -, -, -, rfl⟩ := removeFile_cases h
    refine Outlives.of_entries rfl ?_
    intro l e he
    exact .inl ⟨l, (List.mem_filter.mp he).1⟩
  | @write p bytes h =>
    unfold writePath at h
    split at h
    · cases h
    · next fs₁ id hopen =>
      obtain rfl := Except.ok.inj h
      exact (openFile_outlives hopen).trans
        (.of_data (entries_append fs₁ id bytes) (size_append fs₁ id bytes))
  | directory h => exact (makeDirectory_outlives h).1
  | @link p q h =>
    obtain ⟨a, -, -, -, rfl⟩ := makeLink_cases h
    -- A link is no file, so that it is not in the way of one.
    refine Outlives.of_entries rfl ?_
    intro l e he
    simp only [put, List.mem_cons, List.mem_filter, Prod.mk.injEq] at he
    rcases he with ⟨-, rfl⟩ | ⟨he, -⟩
    · exact .inr ⟨q, rfl⟩
    · exact .inl ⟨l, he⟩
  | time h => exact .of_data h.entries h.size

end FileSystem

/-! ## The live file -/

namespace LogFile

open FileSystem

variable {f f' : LogFile} {fs fs' : FileSystem}

/-- **Reopen**: an open file stays as it is.  A closed one that could be opened is what
    its path names right after that, and no content has changed. -/
theorem reopen_names {r : Except LogError LogFile} (happends : f.Appends)
    (h : f.reopen fs = (r, fs')) :
    fs.Outlives fs' ∧ (∀ id, fs'.contentOf id = fs.contentOf id) ∧ ∀ f', r = .ok f' →
      (f.isOpen = true → f' = f ∧ fs' = fs) ∧
      (f.isOpen = false → ∃ handle, f'.handle? = some handle ∧
        fs'.status true f.path = .ok (.file handle.id)) := by
  rcases reopen_cases h with ⟨hopen, rfl, rfl⟩ | ⟨hclosed, r₁, fs₁, hprepare, hcases⟩
  · refine ⟨.refl _, fun _ => rfl, ?_⟩
    intro f' heq
    obtain rfl := Except.ok.inj heq
    refine ⟨fun _ => ⟨rfl, rfl⟩, ?_⟩
    intro hclosed
    rw [hopen] at hclosed
    cases hclosed
  · -- To make the directory changes no content, whether it could be made or not.
    obtain ⟨houtlives, hcontent⟩ := prepareDirectory_induction
      (R := fun a b => a.Outlives b ∧ ∀ id, b.contentOf id = a.contentOf id)
      (fun a => ⟨.refl a, fun _ => rfl⟩)
      (fun h h' => ⟨h.1.trans h'.1, fun id => (h'.2 id).trans (h.2 id)⟩)
      makeDirectory_outlives hprepare
    rcases hcases with ⟨⟨e, rfl⟩, rfl⟩ | ⟨-, id, hopened, rfl⟩
    · exact ⟨houtlives, hcontent, nofun⟩
    · rw [happends.mode] at hopened
      refine ⟨houtlives.trans (openFile_outlives hopened), ?_, ?_⟩
      · intro other
        exact (contentOf_openFile hopened other).trans (hcontent other)
      · intro f' heq
        obtain rfl := Except.ok.inj heq
        refine ⟨fun hopen => ?_, fun _ => ⟨_, rfl, status_of_openFile hopened⟩⟩
        rw [hclosed] at hopen
        cases hopen

/-- To open a closed file, whatever comes of it. -/
theorem reopen_opens {r : Except LogError LogFile} (hclosed : f.isOpen = false)
    (h : f.reopen fs = (r, fs')) : fs.Opens f.path f.mode fs' := by
  rcases reopen_cases h with ⟨hopen, -, -⟩ | ⟨-, r₁, fs₁, hprepare, hcases⟩
  · rw [hclosed] at hopen
    cases hopen
  · have hkeeps := prepareDirectory_keeps hprepare
    -- To make the directory changes no content, whether it could be made or not.
    have hcontent : ∀ id, fs₁.contentOf id = fs.contentOf id :=
      prepareDirectory_induction (R := fun a b => ∀ id, b.contentOf id = a.contentOf id)
        (fun _ _ => rfl) (fun h h' id => (h' id).trans (h id))
        (fun h => (makeDirectory_outlives h).2) hprepare
    rcases hcases with ⟨-, rfl⟩ | ⟨-, id, hopen, -⟩
    · exact ⟨hkeeps.entry, fun id _ => hcontent id⟩
    · have hopens := openFile_opens hopen
      exact ⟨fun hl => hopens.entry (hkeeps.entry hl),
        fun id hid => (hopens.content id hid).trans (hcontent id)⟩

end LogFile

end Logbook
