import Logbook.Proofs.Files.Live
import Mathlib.Data.List.Induction

/-! # Trees in which nothing is lost

    In a well-formed tree every name is in a directory and no name is there twice.  To
    make directories, to open a file to append to it and to write behind its end keeps a
    tree well-formed, keeps every entry where it is, and only adds to what files hold.
-/

namespace Logbook

namespace FileSystem

variable {fs fs' fs'' : FileSystem} {d d' l m : Location} {s x y : String} {e : Entry} {id : FileId}
  {p : Path}

/-! ## Well-formed trees -/

/-- The locations of a tree. -/
def keys (fs : FileSystem) : List Location := fs.entries.map Prod.fst

/-- **Well-formed**: what there is, is in a directory, and each location is there once. -/
structure WellFormed (fs : FileSystem) : Prop where
  distinct : fs.keys.Nodup
  parent : ∀ l, l ∈ fs.keys → fs.isDirectoryAt l.dropLast = true
  rooted : [] ∉ fs.keys

/-- A location is one of the tree if something is held there. -/
theorem mem_keys_iff (hl : l ≠ []) : l ∈ fs.keys ↔ ∃ e, fs.entryAt? l = some e := by
  rw [entryAt?_eq_lookup hl, keys, List.mem_map]
  constructor
  · rintro ⟨⟨k, e⟩, hmem, rfl⟩
    cases hlookup : fs.entries.lookup k with
    | some e' => exact ⟨e', rfl⟩
    | none =>
      have hnot := List.lookup_eq_none_iff.mp hlookup _ hmem
      simp at hnot
  · rintro ⟨e, he⟩
    obtain ⟨xs, ys, heq, -⟩ := List.lookup_eq_some_iff.mp he
    exact ⟨(l, e), by simp [heq], rfl⟩

/-- A location that holds no directory is no directory. -/
theorem isDirectoryAt_eq_false (h : fs.entryAt? l = some e) (he : ∀ id, e ≠ .directory id) :
    fs.isDirectoryAt l = false := by
  rw [Bool.eq_false_iff]
  intro hdir
  obtain ⟨id, hid⟩ := isDirectoryAt_iff.mp hdir
  rw [h] at hid
  exact he id (Option.some.inj hid)

namespace WellFormed

/-- What is below a location is below a directory. -/
theorem isDirectoryAt_of_below (h : fs.WellFormed) {r : Location} (hr : r ≠ [])
    (he : fs.entryAt? (l ++ r) = some e) : fs.isDirectoryAt l = true := by
  induction r using List.reverseRecOn generalizing e with
  | nil => exact absurd rfl hr
  | append_singleton r y ih =>
    have hne : l ++ (r ++ [y]) ≠ [] := by simp
    have hparent := h.parent _ ((mem_keys_iff hne).mpr ⟨e, he⟩)
    rw [← List.append_assoc, List.dropLast_concat] at hparent
    by_cases hnil : r = []
    · rwa [hnil, List.append_nil] at hparent
    · obtain ⟨i, hi⟩ := isDirectoryAt_iff.mp hparent
      exact ih hnil hi

/-- No file has a location on the way to another. -/
theorem not_below (h : fs.WellFormed) (hl : fs.isDirectoryAt l = false)
    (he : fs.entryAt? m = some e) (hne : m ≠ l) : ¬ l <+: m := by
  rintro ⟨r, rfl⟩
  have hr : r ≠ [] := by
    rintro rfl
    exact hne (List.append_nil l)
  rw [h.isDirectoryAt_of_below hr he] at hl
  cases hl

/-- The names in a directory are there once each. -/
theorem nodup_childNames (h : fs.WellFormed) (d : Location) : (fs.childNames d).Nodup := by
  have hnames : fs.childNames d = fs.keys.filterMap (childName? d) := by
    rw [childNames_eq, keys, List.filterMap_map]
    rfl
  rw [hnames]
  refine h.distinct.filterMap fun k k' y hk hk' => ?_
  rw [childName?_eq_some_iff.mp hk, childName?_eq_some_iff.mp hk']

/-- A new name in a directory. -/
theorem put_new (h : fs.WellFormed) (hd : fs.isDirectoryAt d = true)
    (hnone : fs.entryAt? (d ++ [y]) = none) (e : Entry) : (fs.put (d ++ [y]) e).WellFormed := by
  have hkeys : ∀ k, k ∈ (fs.put (d ++ [y]) e).keys → k = d ++ [y] ∨ k ∈ fs.keys := by
    intro k hk
    simp only [keys, put, List.map_cons, List.mem_cons, List.mem_map, List.mem_filter] at hk ⊢
    rcases hk with rfl | ⟨q, ⟨hq, -⟩, rfl⟩
    · exact .inl rfl
    · exact .inr ⟨q, hq, rfl⟩
  have hdir : ∀ {k}, fs.isDirectoryAt k = true → (fs.put (d ++ [y]) e).isDirectoryAt k = true := by
    intro k hk
    obtain ⟨i, hi⟩ := isDirectoryAt_iff.mp hk
    refine isDirectoryAt_iff.mpr ⟨i, ?_⟩
    rw [entryAt?_put (child_ne_nil d y), if_neg, hi]
    rintro rfl
    rw [hnone] at hi
    cases hi
  refine ⟨?_, fun k hk => ?_, fun hnil => ?_⟩
  · -- An entry replaces those of the same name, so no name comes twice.
    have hrest : ((fs.entries.filter fun q => q.1 ≠ d ++ [y]).map Prod.fst).Nodup :=
      h.distinct.sublist (List.filter_sublist.map _)
    refine List.nodup_cons.mpr ⟨fun hmem => ?_, hrest⟩
    obtain ⟨q, hq, heq⟩ := List.mem_map.mp hmem
    have hne : q.1 ≠ d ++ [y] := by simpa using (List.mem_filter.mp hq).2
    exact hne heq
  · rcases hkeys k hk with rfl | hold
    · rw [List.dropLast_concat]
      exact hdir hd
    · exact hdir (h.parent k hold)
  · rcases hkeys [] hnil with heq | hold
    · exact child_ne_nil d y heq.symm
    · exact h.rooted hold

/-- A name that is no directory may be taken away. -/
theorem take (h : fs.WellFormed) (hfile : fs.isDirectoryAt (d ++ [y]) = false) :
    (fs.take (d ++ [y])).WellFormed := by
  have hsub : (fs.take (d ++ [y])).keys.Sublist fs.keys := List.filter_sublist.map _
  refine ⟨h.distinct.sublist hsub, fun k hk => ?_, fun hnil => h.rooted (hsub.subset hnil)⟩
  have hdir := h.parent k (hsub.subset hk)
  obtain ⟨i, hi⟩ := isDirectoryAt_iff.mp hdir
  refine isDirectoryAt_iff.mpr ⟨i, ?_⟩
  rw [entryAt?_take (child_ne_nil d y), if_neg, hi]
  intro heq
  rw [heq, hfile] at hdir
  cases hdir

/-- Nothing lies below a name that is no directory, so to move it changes its own location
    alone. -/
theorem relocated_eq (h : fs.WellFormed) (hfile : fs.isDirectoryAt (d ++ [x]) = false)
    {k : Location} (hk : k ∈ fs.keys) (l : Location) :
    relocated (d ++ [x]) l k = if k = d ++ [x] then l else k := by
  have hne : k ≠ [] := fun hnil => h.rooted (hnil ▸ hk)
  obtain ⟨a, ha⟩ := (mem_keys_iff hne).mp hk
  unfold relocated
  by_cases hks : k = d ++ [x]
  · subst hks
    simp
  · have hnot : (d ++ [x]).isPrefixOf k = false := by
      rw [Bool.eq_false_iff]
      intro hunder
      exact h.not_below hfile ha hks (List.isPrefixOf_iff_prefix.mp hunder)
    simp [hnot, hks]

/-- The locations after a name that is no directory has been moved. -/
theorem keys_move (h : fs.WellFormed) (hfile : fs.isDirectoryAt (d ++ [x]) = false)
    (l : Location) : (fs.move (d ++ [x]) l).keys =
      (fs.take l).keys.map fun k => if k = d ++ [x] then l else k := by
  simp only [keys, FileSystem.move, FileSystem.take, List.map_map]
  refine List.map_congr_left fun q hq => ?_
  exact h.relocated_eq hfile (List.mem_map_of_mem (List.mem_filter.mp hq).1) l

/-- A directory stays where it is when names that are none are moved. -/
theorem isDirectoryAt_move (h : fs.WellFormed) (hfile : fs.isDirectoryAt (d ++ [x]) = false)
    (ht : fs.isDirectoryAt (d' ++ [y]) = false) {k : Location} (hk : fs.isDirectoryAt k = true) :
    (fs.move (d ++ [x]) (d' ++ [y])).isDirectoryAt k = true := by
  obtain ⟨i, hi⟩ := isDirectoryAt_iff.mp hk
  have hks : k ≠ d ++ [x] := by
    rintro rfl
    rw [hfile] at hk
    cases hk
  have hkt : k ≠ d' ++ [y] := by
    rintro rfl
    rw [ht] at hk
    cases hk
  refine isDirectoryAt_iff.mpr ⟨i, ?_⟩
  rw [entryAt?_move_elsewhere (h.not_below hfile hi hks) (h.not_below ht hi hkt), hi]

/-- A name that is no directory may come in place of another such name. -/
theorem move (h : fs.WellFormed) (hd : fs.isDirectoryAt d' = true)
    (hfile : fs.isDirectoryAt (d ++ [x]) = false) (ht : fs.isDirectoryAt (d' ++ [y]) = false) :
    (fs.move (d ++ [x]) (d' ++ [y])).WellFormed := by
  have hkeys := h.keys_move hfile (d' ++ [y])
  have hmem : ∀ {k}, k ∈ (fs.take (d' ++ [y])).keys → k ∈ fs.keys ∧ k ≠ d' ++ [y] := by
    intro k hk
    obtain ⟨q, hq, rfl⟩ := List.mem_map.mp hk
    obtain ⟨hq, hne⟩ := List.mem_filter.mp hq
    exact ⟨List.mem_map_of_mem hq, by simpa using hne⟩
  refine ⟨?_, fun k hk => ?_, fun hnil => ?_⟩
  · -- The target is taken away before, so no other name becomes the same.
    rw [hkeys]
    refine List.Nodup.map_on ?_ ((h.take ht).distinct)
    intro j hj k hk heq
    have hjy := (hmem hj).2
    have hky := (hmem hk).2
    split at heq <;> split at heq <;> simp_all
  · rw [hkeys] at hk
    obtain ⟨j, hj, rfl⟩ := List.mem_map.mp hk
    split
    · rw [List.dropLast_concat]
      exact h.isDirectoryAt_move hfile ht hd
    · exact h.isDirectoryAt_move hfile ht (h.parent j (hmem hj).1)
  · rw [hkeys] at hnil
    obtain ⟨j, hj, heq⟩ := List.mem_map.mp hnil
    split at heq
    · exact child_ne_nil d' y heq
    · exact h.rooted (heq ▸ (hmem hj).1)

theorem congr (h : fs.WellFormed) (hentries : fs'.entries = fs.entries) : fs'.WellFormed := by
  have hkeys : fs'.keys = fs.keys := by rw [keys, keys, hentries]
  refine ⟨hkeys ▸ h.distinct, fun l hl => ?_, hkeys ▸ h.rooted⟩
  have hdir := h.parent l (hkeys ▸ hl)
  rw [isDirectoryAt, entryAt?_congr hentries]
  exact hdir

end WellFormed

/-! ## Nothing is lost -/

/-- **Keeps**: every entry is where it was, files hold what they held and perhaps more,
    and the tree stays well-formed. -/
structure Keeps (fs fs' : FileSystem) : Prop where
  entry : ∀ {l e}, fs.entryAt? l = some e → fs'.entryAt? l = some e
  content : ∀ id, fs.contentOf id <+: fs'.contentOf id
  wellFormed : fs.WellFormed → fs'.WellFormed

namespace Keeps

theorem refl (fs : FileSystem) : fs.Keeps fs := ⟨id, fun _ => List.prefix_refl _, id⟩

theorem trans (h : fs.Keeps fs') (h' : fs'.Keeps fs'') : fs.Keeps fs'' :=
  ⟨fun he => h'.entry (h.entry he), fun id => (h.content id).trans (h'.content id),
    fun hwf => h'.wellFormed (h.wellFormed hwf)⟩

/-- A new entry with an identity of its own. -/
theorem put_new (hd : fs.isDirectoryAt d = true) (hnone : fs.entryAt? (d ++ [y]) = none)
    (data : FileData) (e : Entry) : fs.Keeps ((fs.allot data).1.put (d ++ [y]) e) := by
  have hentry : ∀ l, (fs.allot data).1.entryAt? l = fs.entryAt? l := entryAt?_congr rfl
  refine ⟨fun {l a} hl => ?_, fun i => ?_, fun hwf => ?_⟩
  · rw [entryAt?_put (child_ne_nil d y), if_neg, hentry, hl]
    rintro rfl
    rw [hnone] at hl
    cases hl
  · show fs.contentOf i <+: (fs.allot data).1.contentOf i
    rw [contentOf_allot]
    split
    · next heq =>
      -- There was no such file before.
      have hempty : fs.contentOf i = [] := by
        simp [contentOf, heq, Array.getD_eq_getD_getElem?]
      rw [hempty]
      exact List.nil_prefix
    · exact List.prefix_refl _
  · have hsame : (fs.allot data).1.WellFormed := hwf.congr rfl
    refine hsame.put_new ?_ ?_ e
    · rw [isDirectoryAt, hentry]
      exact hd
    · rw [hentry, hnone]

/-- A file that is written behind its end. -/
theorem append (fs : FileSystem) (id : FileId) (bytes : List UInt8) :
    fs.Keeps (fs.append id bytes) := by
  refine ⟨fun {l e} he => ?_, fun i => ?_, fun hwf => hwf.congr (entries_append fs id bytes)⟩
  · rw [entryAt?_congr (entries_append fs id bytes), he]
  · by_cases hid : id < fs.data.size
    · rw [contentOf_append hid]
      split
      · next heq =>
        rw [heq]
        exact List.prefix_append _ _
      · exact List.prefix_refl _
    · -- To write to what is not there changes nothing.
      have hsame : (fs.append id bytes).contentOf i = fs.contentOf i := by
        unfold FileSystem.append
        split
        · rfl
        · simp only [setContent, contentOf, Array.getD_eq_getD_getElem?, Array.getElem?_modify]
          split
          · next heq =>
            subst heq
            simp [Nat.not_lt.mp hid]
          · rfl
      exact ⟨[], (List.append_nil _).trans hsame.symm⟩

/-- A name that stays. -/
theorem childName (h : fs.Keeps fs') (hy : y ∈ fs.childNames d) : y ∈ fs'.childNames d := by
  obtain ⟨e, he⟩ := mem_childNames_iff.mp hy
  exact mem_childNames_iff.mpr ⟨e, h.entry he⟩

end Keeps

/-! ## Where a walk ends -/

/-- A stretch comes to a halt in a directory. -/
theorem advance_directory {here : Location} {ps : List Path.Part} {stop : Stop}
    (h : fs.advance here ps = .ok stop) (hhere : fs.isDirectoryAt here = true) :
    (∀ d a, stop = .last d a → fs.isDirectoryAt d = true) ∧
      ∀ d t rest, stop = .link d t rest → fs.isDirectoryAt d = true := by
  induction ps generalizing here with
  | nil =>
    obtain rfl := Except.ok.inj h
    refine ⟨fun d a heq => ?_, fun d t rest heq => by cases heq⟩
    cases heq
    exact hhere
  | cons part ps ih =>
    -- A stretch halts in front of its last part, or at a link.
    by_cases hps : ps = []
    · subst hps
      rw [advance_last hhere] at h
      obtain rfl := Except.ok.inj h
      refine ⟨fun d a heq => ?_, fun d t rest heq => by cases heq⟩
      cases heq
      exact hhere
    · rcases advance_cases h hps with ⟨-, hrest⟩ | ⟨s, rfl, -, ⟨t, -, rfl⟩ | hrest⟩
      · exact ih hrest (isDirectoryAt_of_advance hrest hps)
      · refine ⟨fun d a heq => (by cases heq), fun d t' rest heq => ?_⟩
        cases heq
        exact hhere
      · exact ih hrest (isDirectoryAt_of_advance hrest hps)

/-- **Walk**: a walk that comes to an end has ended before the last part, or has gone on
    from a link, on the way or at its end. -/
theorem walk_cases {follow : Bool → Bool} {n : Nat} {here : Location} {ps : List Path.Part}
    {slash : Bool} {a : Ending} (h : fs.walk follow n here ps slash = .ok a) :
    (∃ d part, fs.advance here ps = .ok (.last d part) ∧ a = ⟨d, part, slash⟩ ∧
        ∀ t, fs.look a = .ok (some (.link t)) → follow slash = false) ∨
      (∃ m d t rest, n = m + 1 ∧ fs.advance here ps = .ok (.link d t rest) ∧
        fs.walk follow m d (t.turns ++ rest) slash = .ok a) ∨
      ∃ m d part t, n = m + 1 ∧ fs.advance here ps = .ok (.last d part) ∧
        fs.look ⟨d, part, slash⟩ = .ok (some (.link t)) ∧ follow slash = true ∧
        fs.walk follow m d t.turns (slash || t.endsInSlash) = .ok a := by
  cases hadv : fs.advance here ps with
  | error err =>
    rw [walk.eq_1, hadv] at h
    cases h
  | ok stop =>
    cases stop with
    | link d t rest =>
      cases n with
      | zero =>
        rw [walk_zero_of_link hadv] at h
        cases h
      | succ m =>
        rw [walk_succ_of_link hadv] at h
        exact .inr (.inl ⟨m, d, t, rest, rfl, rfl, h⟩)
    | last d part =>
      by_cases hlink : ∃ t, fs.look ⟨d, part, slash⟩ = .ok (some (.link t)) ∧ follow slash = true
      · obtain ⟨t, ht, hfollow⟩ := hlink
        cases n with
        | zero =>
          rw [walk.eq_1, hadv] at h
          simp only [ht, hfollow, if_true] at h
          cases h
        | succ m =>
          rw [walk_succ_of_last_link hadv ht hfollow] at h
          exact .inr (.inr ⟨m, d, part, t, rfl, rfl, ht, hfollow, h⟩)
      · have hstay : ∀ t, fs.look ⟨d, part, slash⟩ = .ok (some (.link t)) → follow slash = false := by
          intro t ht
          rw [Bool.eq_false_iff]
          intro hfollow
          exact hlink ⟨t, ht, hfollow⟩
        rw [walk_of_last hadv hstay] at h
        obtain rfl := Except.ok.inj h
        exact .inl ⟨d, part, rfl, rfl, hstay⟩

/-- A walk ends in a directory. -/
theorem walk_in_directory {follow : Bool → Bool} {n : Nat} {here : Location}
    {ps : List Path.Part} {slash : Bool} {a : Ending}
    (h : fs.walk follow n here ps slash = .ok a) (hhere : fs.isDirectoryAt here = true) :
    fs.isDirectoryAt a.directory = true := by
  -- By induction on the links that may still be followed.
  induction n using Nat.strongRecOn generalizing here ps slash with
  | _ n ih =>
    rcases walk_cases h with ⟨d, part, hadv, rfl, -⟩ | ⟨m, d, t, rest, rfl, hadv, hrest⟩ |
      ⟨m, d, part, t, rfl, hadv, -, -, hrest⟩
    · exact (advance_directory hadv hhere).1 d part rfl
    · exact ih m (Nat.lt_succ_self m) hrest ((advance_directory hadv hhere).2 d t rest rfl)
    · exact ih m (Nat.lt_succ_self m) hrest ((advance_directory hadv hhere).1 d part rfl)

/-- The last part of a path is looked up in a directory. -/
theorem ending_in_directory {follow : Bool → Bool} {a : Ending} (h : fs.ending follow p = .ok a) :
    fs.isDirectoryAt a.directory = true := by
  obtain ⟨-, -, hwalk⟩ := ending_cases h
  exact walk_in_directory hwalk (isDirectoryAt_root fs)

/-! ## Operations that lose nothing -/

/-- To make a directory loses nothing. -/
theorem makeDirectory_keeps (h : fs.makeDirectory p = .ok fs') : fs.Keeps fs' := by
  obtain ⟨a, hedge, hname, hlook, rfl⟩ := makeDirectory_cases h
  obtain ⟨s, hloc, hpart⟩ := Ending.location_of_isName hname
  have hnone := entryAt?_of_look_none hpart hlook
  rw [hloc] at hnone ⊢
  exact .put_new (ending_in_directory hedge) hnone _ _

/-- **Attempt**: a directory is made, or is there although it could not be made, or the
    failure is told. -/
inductive Attempt (p : Path) (fs : FileSystem) : Except SystemError Unit → FileSystem → Prop
  | made {fs' : FileSystem} (hmake : fs.makeDirectory p = .ok fs') : Attempt p fs (.ok ()) fs'
  | there {e : SystemError} (hfail : fs.makeDirectory p = .error e)
      (hdir : fs.isDirectory p = true) : Attempt p fs (.ok ()) fs
  | failed {e : SystemError} (hfail : fs.makeDirectory p = .error e)
      (hdir : fs.isDirectory p = false) : Attempt p fs (.error e) fs

/-- What is told of a directory that could not be made is an attempt at it. -/
theorem attempt_of_error {e : SystemError} {r : Except SystemError Unit}
    (hfail : fs.makeDirectory p = .error e)
    (h : (if fs.isDirectory p then ((.ok (), fs) : Except SystemError Unit × FileSystem)
      else (.error e, fs)) = (r, fs')) : Attempt p fs r fs' := by
  split at h
  · next hdir =>
    obtain ⟨rfl, rfl⟩ := Prod.mk.inj h
    exact .there hfail hdir
  · next hdir =>
    obtain ⟨rfl, rfl⟩ := Prod.mk.inj h
    exact .failed hfail (Bool.eq_false_iff.mpr hdir)

/-- **A directory and those above it.**  Where there is no name left there is nothing to do.
    Else there is one attempt at it; but if its parent is missing those above it are made
    first, and the attempt is made once they are there. -/
theorem makeDirectoriesUpTo_cases {n : Nat} {r : Except SystemError Unit}
    (h : fs.makeDirectoriesUpTo (n + 1) p = (r, fs')) :
    (p.text.isEmpty = true ∧ r = .ok () ∧ fs' = fs) ∨
      p.text.isEmpty = false ∧ (Attempt p fs r fs' ∨
        (p.parent? = none ∧ (∃ e, r = .error e) ∧ fs' = fs) ∨
        ∃ dir r₁ fs₁, p.parent? = some dir ∧ fs.makeDirectoriesUpTo n dir = (r₁, fs₁) ∧
          ((∃ e, r₁ = .error e ∧ r = .error e ∧ fs' = fs₁) ∨
            r₁ = .ok () ∧ Attempt p fs₁ r fs')) := by
  rw [makeDirectoriesUpTo] at h
  split at h
  · next hempty =>
    obtain ⟨rfl, rfl⟩ := Prod.mk.inj h
    exact .inl ⟨hempty, rfl, rfl⟩
  · next hname =>
    refine .inr ⟨Bool.eq_false_iff.mpr hname, ?_⟩
    split at h
    · next fs₁ hmake =>
      obtain ⟨rfl, rfl⟩ := Prod.mk.inj h
      exact .inl (.made hmake)
    · -- Only a missing parent makes it go on.
      right
      split at h
      · next hparent =>
        obtain ⟨rfl, rfl⟩ := Prod.mk.inj h
        exact .inl ⟨hparent, ⟨_, rfl⟩, rfl⟩
      · next dir hparent =>
        right
        split at h
        · next e fs₁ hup =>
          obtain ⟨rfl, rfl⟩ := Prod.mk.inj h
          exact ⟨dir, _, _, hparent, hup, .inl ⟨e, rfl, rfl, rfl⟩⟩
        · next fs₁ hup =>
          refine ⟨dir, _, fs₁, hparent, hup, .inr ⟨rfl, ?_⟩⟩
          split at h
          · next fs₂ hmake =>
            obtain ⟨rfl, rfl⟩ := Prod.mk.inj h
            exact .made hmake
          · next e hfail => exact attempt_of_error hfail h
    · next e hfail => exact .inl (attempt_of_error hfail h)

/-- What holds of a tree and the one that it becomes when a directory is made holds too
    when those above it are made with it, whether that succeeds or not. -/
theorem makeDirectoriesUpTo_induction {R : FileSystem → FileSystem → Prop} (hrefl : ∀ fs, R fs fs)
    (htrans : ∀ {fs fs' fs''}, R fs fs' → R fs' fs'' → R fs fs'')
    (hmake : ∀ {fs fs' p}, makeDirectory fs p = .ok fs' → R fs fs') {n : Nat}
    {r : Except SystemError Unit} (h : fs.makeDirectoriesUpTo n p = (r, fs')) : R fs fs' := by
  have hattempt : ∀ {p : Path} {fs fs' : FileSystem} {r : Except SystemError Unit},
      Attempt p fs r fs' → R fs fs' := by
    intro p fs fs' r h
    cases h with
    | made hmade => exact hmake hmade
    | there | failed => exact hrefl fs
  induction n generalizing p fs fs' r with
  | zero =>
    obtain ⟨-, rfl⟩ := Prod.mk.inj h
    exact hrefl fs
  | succ n ih =>
    rcases makeDirectoriesUpTo_cases h with ⟨-, -, rfl⟩ | ⟨-, honce | ⟨-, -, rfl⟩ |
      ⟨dir, r₁, fs₁, -, hup, ⟨e, -, -, rfl⟩ | ⟨-, honce⟩⟩⟩
    · exact hrefl fs'
    · exact hattempt honce
    · exact hrefl fs'
    · exact ih hup
    · exact htrans (ih hup) (hattempt honce)

/-- To open a file to append to it loses nothing. -/
theorem openFile_keeps (h : fs.openFile p .append = .ok (fs', id)) : fs.Keeps fs' := by
  obtain ⟨a, s, hend, -, hpart, ⟨-, hsame, -⟩ | ⟨hlook, -, rfl⟩⟩ := openFile_cases h
  · rw [hsame rfl]
    exact .refl fs
  · have hnone := entryAt?_of_look_none hpart hlook
    have hloc : a.location = a.directory ++ [s] := by simp [Ending.location, hpart]
    rw [hloc] at hnone ⊢
    exact .put_new (ending_in_directory hend) hnone _ _

end FileSystem

/-! ## The live file -/

namespace LogFile

open FileSystem

variable {f f' : LogFile} {fs fs' : FileSystem}

/-- **Appends**: a live file is opened to append to it, and has been opened so. -/
structure Appends (f : LogFile) : Prop where
  mode : f.mode = .append
  handle : ∀ h, f.handle? = some h → h.place? = none

/-- A closed file has no handle. -/
theorem Appends.close (h : f.Appends) : f.close.Appends := ⟨h.mode, fun _ hnone => by cases hnone⟩

/-- What holds of a tree and the one that it becomes when a directory is made holds too
    when the directory of a live file is made. -/
theorem prepareDirectory_induction {R : FileSystem → FileSystem → Prop} (hrefl : ∀ fs, R fs fs)
    (htrans : ∀ {fs fs' fs''}, R fs fs' → R fs' fs'' → R fs fs'')
    (hmake : ∀ {fs fs' p}, makeDirectory fs p = .ok fs' → R fs fs') {path : Path}
    {r : Except LogError Unit} (h : prepareDirectory path fs = (r, fs')) : R fs fs' := by
  unfold prepareDirectory at h
  split at h
  · -- No parent, or one that is there: nothing is made.
    obtain ⟨-, rfl⟩ := Prod.mk.inj h
    exact hrefl fs
  · next parent _ =>
    split at h
    · obtain ⟨-, rfl⟩ := Prod.mk.inj h
      exact hrefl fs
    · cases hmade : fs.makeDirectories parent with
      | mk r₁ fs₁ =>
        have hrel : R fs fs₁ := makeDirectoriesUpTo_induction hrefl htrans hmake hmade
        rw [hmade] at h
        cases r₁ <;> obtain ⟨-, rfl⟩ := Prod.mk.inj h <;> exact hrel

/-- To make the directory of a file loses nothing. -/
theorem prepareDirectory_keeps {path : Path} {r : Except LogError Unit}
    (h : prepareDirectory path fs = (r, fs')) : fs.Keeps fs' :=
  prepareDirectory_induction Keeps.refl Keeps.trans makeDirectory_keeps h

/-- To open a live file loses nothing. -/
theorem reopen_keeps {r : Except LogError LogFile} (happends : f.Appends)
    (h : f.reopen fs = (r, fs')) :
    fs.Keeps fs' ∧ ∀ f', r = .ok f' → f'.Appends ∧ f.SameSettings f' := by
  rcases reopen_cases h with ⟨-, rfl, rfl⟩ | ⟨-, r₁, fs₁, hprepare, hcases⟩
  · refine ⟨.refl _, fun f' heq => ?_⟩
    obtain rfl := Except.ok.inj heq
    exact ⟨happends, .refl f⟩
  · have hkeeps := prepareDirectory_keeps hprepare
    -- In append mode the file that is opened is not cut.
    rcases hcases with ⟨⟨e, rfl⟩, rfl⟩ | ⟨-, id, hopen, rfl⟩
    · exact ⟨hkeeps, nofun⟩
    · rw [happends.mode] at hopen
      refine ⟨hkeeps.trans (openFile_keeps hopen), fun f' heq => ?_⟩
      obtain rfl := Except.ok.inj heq
      refine ⟨⟨happends.mode, fun h hh => ?_⟩, rfl⟩
      obtain rfl := Option.some.inj hh
      simp only [happends.mode]

/-- A live file that is renewed loses nothing. -/
theorem Renewed.keeps (h : f.Renewed fs f' fs') (happends : f.Appends) :
    fs.Keeps fs' ∧ f'.Appends ∧ f.SameSettings f' := by
  rcases h with ⟨-, rfl, rfl⟩ | ⟨-, hreopen⟩
  · exact ⟨.refl _, happends, .refl _⟩
  · obtain ⟨hkeeps, hopened⟩ := reopen_keeps happends hreopen
    exact ⟨hkeeps, hopened f' rfl⟩

/-- To write a line loses nothing. -/
theorem writeLine_keeps {text terminator : String} {r : Except LogError LogFile}
    (happends : f.Appends) (h : f.writeLine text terminator fs = (r, fs')) :
    fs.Keeps fs' ∧ ∀ f', r = .ok f' → f'.Appends ∧ f.SameSettings f' := by
  rcases writeLine_cases h with ⟨e, hreopen, rfl⟩ |
    ⟨f₁, fs₁, handle, handle', hreopen, hhandle, hsend, rfl⟩
  · exact ⟨(reopen_keeps happends hreopen).1, nofun⟩
  · obtain ⟨hkeeps, hopened⟩ := reopen_keeps happends hreopen
    obtain ⟨happends₁, hsettings⟩ := hopened f₁ rfl
    -- A line goes behind the end, wherever the handle was.
    have hplace := happends₁.handle handle hhandle
    rw [send_append hplace] at hsend
    obtain ⟨rfl, rfl⟩ := Prod.mk.inj hsend
    refine ⟨hkeeps.trans (.append fs₁ handle.id _), fun f' heq => ?_⟩
    obtain rfl := Except.ok.inj heq
    refine ⟨⟨happends₁.mode, fun h hh => ?_⟩, hsettings.trans rfl⟩
    obtain rfl := Option.some.inj hh
    exact hplace

end LogFile

end Logbook
