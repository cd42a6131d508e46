import Logbook.Proofs.Files.Held
import Logbook.Proofs.Files.Opened
import Logbook.Proofs.Results
import Logbook.Proofs.Rotation.Retention

/-! # Files that take the place of others

    A file is begun anew under one name, written, and renamed to another.  As long as no
    other name stands for it, nothing else in the tree is touched by that: every other
    location keeps its entry, and every other file its content and its time.
-/

namespace Logbook.FileSystem

variable {fs fs' fs'' : FileSystem} {p q : Path} {d l m : Location} {x y : String}
  {id other : FileId} {e : Entry} {bytes : List UInt8}

/-! ## The data of other files -/

/-- To give a file a content changes no other file. -/
theorem data_setContent (fs : FileSystem) (bytes : List UInt8) (h : other ≠ id) :
    (fs.setContent id bytes).data.getD other {} = fs.data.getD other {} := by
  simp [setContent, Array.getD_eq_getD_getElem?, Array.getElem?_modify, Ne.symm h]

/-- To write to a file changes no other file. -/
theorem data_append (fs : FileSystem) (bytes : List UInt8) (h : other ≠ id) :
    (fs.append id bytes).data.getD other {} = fs.data.getD other {} := by
  unfold append
  split
  · rfl
  · exact data_setContent fs _ h

/-- A new file changes no other file. -/
theorem data_allot (fs : FileSystem) (data : FileData) (h : other < fs.data.size) :
    (fs.allot data).1.data.getD other {} = fs.data.getD other {} := by
  simp [allot, Array.getD_eq_getD_getElem?, Array.getElem?_push, Nat.ne_of_lt h]

/-- What a file holds that has been given a content. -/
theorem contentOf_setContent (fs : FileSystem) (bytes : List UInt8) (h : id < fs.data.size) :
    (fs.setContent id bytes).contentOf id = bytes := by
  simp [setContent, contentOf, Array.getD_eq_getD_getElem?, Array.getElem_modify, h]

/-! ## Untouched locations -/

/-- **Untouched**: a location holds the entry that it held, and if that is a file, the file
    has the content and the time that it had. -/
structure Untouched (fs fs' : FileSystem) (l : Location) : Prop where
  entry : fs'.entryAt? l = fs.entryAt? l
  data : ∀ id, fs.entryAt? l = some (.file id) → fs'.data.getD id {} = fs.data.getD id {}

namespace Untouched

theorem refl (fs : FileSystem) (l : Location) : fs.Untouched fs l := ⟨rfl, fun _ _ => rfl⟩

theorem trans (h : fs.Untouched fs' l) (h' : fs'.Untouched fs'' l) : fs.Untouched fs'' l :=
  ⟨h'.entry.trans h.entry, fun id hid => (h'.data id (h.entry.trans hid)).trans (h.data id hid)⟩

theorem contentOf (h : fs.Untouched fs' l) (hl : fs.entryAt? l = some (.file id)) :
    fs'.contentOf id = fs.contentOf id := by
  rw [FileSystem.contentOf, FileSystem.contentOf, h.data id hl]

theorem fileAt? (h : fs.Untouched fs' l) : fs'.fileAt? l = fs.fileAt? l :=
  fileAt?_congr h.entry (bytesAt_congr h.entry fun _ hid => h.contentOf hid)

/-- Only the location that is taken away is touched. -/
theorem take (fs : FileSystem) (h : l ≠ d ++ [x]) : fs.Untouched (fs.take (d ++ [x])) l :=
  ⟨by rw [entryAt?_take (child_ne_nil d x), if_neg h], fun _ _ => rfl⟩

/-- Only the file that is written is touched. -/
theorem append (bytes : List UInt8) (h : fs.entryAt? l ≠ some (.file id)) :
    fs.Untouched (fs.append id bytes) l := by
  refine ⟨entryAt?_congr (entries_append fs id bytes) l, fun other hother => ?_⟩
  refine data_append fs bytes fun heq => h ?_
  rw [hother, heq]

end Untouched

/-! ## A name moved to another -/

/-- In a well-formed tree a name that is no directory comes in place of another of the same
    directory, and nothing else is different. -/
theorem WellFormed.entryAt?_move (h : fs.WellFormed) (hd : fs.isDirectoryAt d = true)
    (hsource : fs.isDirectoryAt (d ++ [x]) = false) (htarget : fs.isDirectoryAt (d ++ [y]) = false)
    (hxy : x ≠ y) (m : Location) : (fs.move (d ++ [x]) (d ++ [y])).entryAt? m =
      if m = d ++ [y] then fs.entryAt? (d ++ [x])
      else if m = d ++ [x] then none else fs.entryAt? m := by
  have hnames := entryAt?_move_child (d := d) fs hxy
  have hmoved := h.move hd hsource htarget
  by_cases hmy : m = d ++ [y]
  · rw [hmy, hnames, if_pos rfl, if_pos rfl]
  by_cases hmx : m = d ++ [x]
  · rw [hmx, hnames, if_neg hxy, if_pos rfl, if_neg (by simpa using hxy), if_pos rfl]
  rw [if_neg hmy, if_neg hmx]
  -- Below the two names there is nothing, neither before nor after.
  have hfree : d ++ [x] <+: m ∨ d ++ [y] <+: m → fs.entryAt? m = none ∧
      (fs.move (d ++ [x]) (d ++ [y])).entryAt? m = none := by
    have hsource' : (fs.move (d ++ [x]) (d ++ [y])).isDirectoryAt (d ++ [x]) = false := by
      rw [isDirectoryAt, hnames, if_neg hxy, if_pos rfl]
    have htarget' : (fs.move (d ++ [x]) (d ++ [y])).isDirectoryAt (d ++ [y]) = false := by
      rw [isDirectoryAt, hnames, if_pos rfl]
      exact hsource
    rw [Option.eq_none_iff_forall_ne_some, Option.eq_none_iff_forall_ne_some]
    rintro (hunder | hunder)
    · exact ⟨fun a ha => h.not_below hsource ha hmx hunder,
        fun a ha => hmoved.not_below hsource' ha hmx hunder⟩
    · exact ⟨fun a ha => h.not_below htarget ha hmy hunder,
        fun a ha => hmoved.not_below htarget' ha hmy hunder⟩
  by_cases hunder : d ++ [x] <+: m ∨ d ++ [y] <+: m
  · obtain ⟨hbefore, hafter⟩ := hfree hunder
    rw [hbefore, hafter]
  · exact entryAt?_move_elsewhere (fun hx => hunder (.inl hx)) (fun hy => hunder (.inr hy))

/-- A tree covers another if it has all the directories and links of that. -/
theorem covers_of_entries (h : ∀ m e, fs'.entryAt? m = some e → (∀ id, e ≠ .file id) →
    fs.entryAt? m = some e) : fs.Covers fs' := by
  refine ⟨fun hdir => ?_, fun hlink => h _ _ hlink nofun⟩
  obtain ⟨i, hi⟩ := isDirectoryAt_iff.mp hdir
  exact isDirectoryAt_iff.mpr ⟨i, h _ _ hi nofun⟩

/-! ## Names -/

/-- **Names**: a location is the name that a path leads to. -/
def Names (fs : FileSystem) (p : Path) (l : Location) : Prop := ∃ d x, fs.Leads p d x ∧ l = d ++ [x]

theorem Leads.names (h : fs.Leads p d x) : fs.Names p (d ++ [x]) := ⟨d, x, h, rfl⟩

/-- A path names one location only. -/
theorem Names.eq (h : fs.Names p l) (hleads : fs.Leads p d x) (hlen : checkLength p = .ok ()) :
    l = d ++ [x] := by
  obtain ⟨d', y, hleads', rfl⟩ := h
  obtain ⟨rfl, rfl⟩ := hleads.unique hleads' hlen
  rfl

/-- What is found somewhere is there. -/
theorem entryAt?_of_find {follow : Bool} (h : fs.find follow p = .ok (l, e)) :
    fs.entryAt? l = some e := by
  simp only [find, bind_eq_ok] at h
  obtain ⟨a, -, found, hlook, h⟩ := h
  have hentry := entryAt?_of_look hlook
  cases found with
  | none => cases h
  | some entry =>
    have hfound : (a.location, entry) = (l, e) := by
      cases entry with
      | directory i => exact Except.ok.inj h
      | file i | link t =>
        dsimp only at h
        split at h
        · cases h
        · exact Except.ok.inj h
    obtain ⟨rfl, rfl⟩ := Prod.mk.inj hfound
    exact hentry

/-- What a path names is found somewhere. -/
theorem find_of_status {follow : Bool} (h : fs.status follow p = .ok e) :
    ∃ l, fs.find follow p = .ok (l, e) := by
  obtain ⟨⟨l, _⟩, hfind, rfl⟩ := map_eq_ok_iff.mp h
  exact ⟨l, hfind⟩

/-- What exists under a name that is no link is found there. -/
theorem Leads.find_of_exists (h : fs.Leads p d x) (hlink : ∀ t, fs.entryAt? (d ++ [x]) ≠ some (.link t))
    (hexists : fs.exists? p = true) : ∃ e, fs.find true p = .ok (d ++ [x], e) := by
  obtain ⟨e, hshown⟩ := h.shown_of_exists hexists
  obtain ⟨⟨hlen, hx⟩, hentry⟩ := shown_eq_some_iff.mp hshown
  have hend : fs.ending (true || ·) p = .ok ⟨d, .name x, false⟩ :=
    h.ending hlen (.inr fun t ht => hlink t (shown_eq_some_iff.mp ht).2)
  refine ⟨e, ?_⟩
  simp only [find, hend, bind, Except.bind, look_name, hx, hentry]
  cases e <;> rfl

/-! ## Ways with and without a link at the end -/

/-- Whatever links are followed at the end of a way, the way has an end without following
    them: the same one, or a link. -/
theorem walk_unfollowed {follow : Bool → Bool} {n : Nat} {here : Location} {ps : List Path.Part}
    {slash : Bool} {a : Ending} (h : fs.walk follow n here ps slash = .ok a) :
    ∃ b, fs.walk (fun _ => false) n here ps slash = .ok b ∧
      (b = a ∨ ∃ t, fs.look b = .ok (some (.link t))) ∧ b.slash = slash ∧
      (a.slash = false → slash = false) := by
  induction n using Nat.strongRecOn generalizing here ps slash with
  | ind n ih =>
    rcases walk_cases h with ⟨d, part, hadv, rfl, -⟩ | ⟨m, d, t, rest, rfl, hadv, hrest⟩ |
      ⟨m, d, part, t, rfl, hadv, hlook, -, hrest⟩
    · exact ⟨_, walk_of_last hadv fun _ _ => rfl, .inl rfl, rfl, id⟩
    · rw [walk_succ_of_link hadv]
      exact ih m (Nat.lt_succ_self m) hrest
    · obtain ⟨-, -, -, -, hslash⟩ := ih m (Nat.lt_succ_self m) hrest
      refine ⟨_, walk_of_last hadv fun _ _ => rfl, .inr ⟨t, hlook⟩, rfl, fun ha => ?_⟩
      exact (Bool.or_eq_false_iff.mp (hslash ha)).1

/-- The end of a way without following a link there. -/
theorem edge_of_ending {follow : Bool → Bool} {a : Ending} (h : fs.ending follow p = .ok a) :
    ∃ b, fs.edge p = .ok b ∧ (b = a ∨ ∃ t, fs.look b = .ok (some (.link t))) ∧
      (a.slash = false → b.slash = false) := by
  obtain ⟨hnull, hlen, hwalk⟩ := ending_cases h
  obtain ⟨b, hedge, hb, hslash, hslash'⟩ := walk_unfollowed hwalk
  refine ⟨b, ?_, hb, fun ha => hslash.trans (hslash' ha)⟩
  simp [edge, ending, refuseNull, hnull, hlen, hedge, bind, Except.bind]

/-- What is no directory is looked up under a name. -/
theorem WellFormed.isName_of_look (h : fs.WellFormed) {a : Ending}
    (hdir : fs.isDirectoryAt a.directory = true) (hlook : fs.look a = .ok (some e))
    (he : ∀ i, e ≠ .directory i) : ∃ s, a.part = .name s := by
  have hentry := entryAt?_of_look hlook
  have hnot : fs.isDirectoryAt a.location = false := isDirectoryAt_eq_false hentry he
  cases hpart : a.part with
  | name s => exact ⟨s, rfl⟩
  | root =>
    rw [Ending.location, hpart] at hnot
    cases hnot
  | here =>
    simp only [Ending.location, hpart] at hnot
    rw [hdir] at hnot
    cases hnot
  | up =>
    simp only [Ending.location, hpart] at hnot
    by_cases hroot : a.directory = []
    · rw [hroot] at hnot
      cases hnot
    · obtain ⟨i, hi⟩ := isDirectoryAt_iff.mp hdir
      have hup := h.parent _ ((mem_keys_iff hroot).mpr ⟨_, hi⟩)
      rw [hup] at hnot
      cases hnot

/-- A path that names a file, perhaps through links, leads to a name. -/
theorem WellFormed.leads_of_file (h : fs.WellFormed) (hstatus : fs.status true p = .ok (.file id)) :
    ∃ d x, fs.Leads p d x := by
  obtain ⟨a, hend, hlook, hslash⟩ := status_cases hstatus
  have ha : a.slash = false := hslash.resolve_right fun ⟨_, hi⟩ => nomatch hi
  obtain ⟨b, hedge, hb, hslash⟩ := edge_of_ending hend
  obtain ⟨e, he, hplain⟩ : ∃ e, fs.look b = .ok (some e) ∧ ∀ i, e ≠ .directory i := by
    rcases hb with rfl | ⟨t, ht⟩
    · exact ⟨_, hlook, nofun⟩
    · exact ⟨_, ht, nofun⟩
  obtain ⟨s, hs⟩ := h.isName_of_look (ending_in_directory hedge) he hplain
  refine ⟨b.directory, s, (leads_of_edge ?_).1⟩
  rw [hedge]
  cases b
  simp_all

/-- A path that has an end and is written as a front and a name leads to that name. -/
theorem leads_of_ending {follow : Bool → Bool} {a : Ending} {front : List Char}
    (hsplits : p.Splits front x) (h : fs.ending follow p = .ok a) : ∃ d, fs.Leads p d x := by
  obtain ⟨b, hedge, -, -⟩ := edge_of_ending h
  obtain ⟨d, hleads, -⟩ := edge_of_splits hsplits hedge
  exact ⟨d, hleads⟩

/-! ## Files begun anew -/

/-- **Unshared**: what a location holds is no link, and if it is a file, no other location
    holds that file. -/
structure Unshared (fs : FileSystem) (l : Location) : Prop where
  noLink : ∀ t, fs.entryAt? l ≠ some (.link t)
  alone : ∀ id m, fs.entryAt? l = some (.file id) → fs.entryAt? m = some (.file id) → m = l

/-- **Begun**: a location that held a file or nothing holds an empty file that is nowhere
    else, and everything else is untouched. -/
structure Begun (l : Location) (id : FileId) (fs fs' : FileSystem) : Prop where
  wellFormed : fs'.WellFormed
  plain : fs.PlainAt l
  here : fs'.entryAt? l = some (.file id)
  known : id < fs'.data.size
  empty : fs'.contentOf id = []
  rest : ∀ m, m ≠ l → fs.Untouched fs' m
  elsewhere : ∀ m, m ≠ l → fs.entryAt? m ≠ some (.file id)

/-- **Drafted**: a location that held a file or nothing holds a file with the given bytes,
    and everything else is untouched. -/
structure Drafted (l : Location) (bytes : List UInt8) (fs fs' : FileSystem) : Prop where
  wellFormed : fs'.WellFormed
  plain : fs.PlainAt l
  file : ∃ id, fs'.entryAt? l = some (.file id) ∧ fs'.contentOf id = bytes
  rest : ∀ m, m ≠ l → fs.Untouched fs' m

/-- A file that is opened to begin it anew is begun, if no other name stands for it. -/
theorem Leads.begun (hleads : fs.Leads p d x) (hwf : fs.WellFormed)
    (hknown : ∀ i ∈ fs.fileIds, i < fs.data.size) (hown : fs.Unshared (d ++ [x]))
    (hopen : fs.openFile p .truncate = .ok (fs', id)) :
    (checkLength p = .ok () ∧ isTooLong x = false) ∧ Begun (d ++ [x]) id fs fs' := by
  obtain ⟨a, s, hend, -, -, hcases⟩ := openFile_cases hopen
  obtain ⟨-, hlen, -⟩ := ending_cases hend
  have hend' : fs.ending (!·) p = .ok ⟨d, .name x, false⟩ :=
    hleads.ending hlen (.inr fun t ht => hown.noLink t (shown_eq_some_iff.mp ht).2)
  rw [hend'] at hend
  obtain rfl := Except.ok.inj hend
  have hknown' : ∀ {m i}, fs.entryAt? m = some (.file i) → i < fs.data.size :=
    fun hm => hknown _ (mem_fileIds hm)
  rcases hcases with ⟨hlook, -, hcut⟩ | ⟨hlook, rfl, rfl⟩
  · -- The file is there.
    obtain rfl := hcut rfl
    have hentry := entryAt?_of_look hlook
    -- No other name stands for the file, so cutting it is seen nowhere else.
    have helsewhere : ∀ m, m ≠ d ++ [x] → fs.entryAt? m ≠ some (.file id) :=
      fun m hm heq => hm (hown.alone id m hentry heq)
    refine ⟨⟨hlen, (Leads.look_ok hlen hlook).1⟩, hwf.congr rfl, ?_, ?_, ?_, ?_, ?_, helsewhere⟩
    · exact fun e he => ⟨id, Option.some.inj (he.symm.trans hentry)⟩
    · rw [entryAt?_congr (entries_setContent fs id [])]
      exact hentry
    · rw [size_setContent]
      exact hknown' hentry
    · exact contentOf_setContent fs [] (hknown' hentry)
    · refine fun m hm => ⟨entryAt?_congr (entries_setContent fs id []) m, fun i hi => ?_⟩
      refine data_setContent fs [] fun heq => helsewhere m hm ?_
      rw [hi, heq]
  · -- The file is made.
    have hnone := entryAt?_of_look_none rfl hlook
    have hput : ∀ m, ((fs.allot { modified := fs.now }).1.put (d ++ [x])
        (.file fs.data.size)).entryAt? m = if m = d ++ [x] then some (.file fs.data.size)
          else fs.entryAt? m := entryAt?_put (child_ne_nil d x) _
    refine ⟨⟨hlen, (Leads.look_ok hlen hlook).1⟩, ?_, ?_, ?_, ?_, ?_, ?_, ?_⟩
    · exact (Keeps.put_new hleads.directory hnone _ _).wellFormed hwf
    · exact fun e he => nomatch hnone.symm.trans he
    · exact (hput _).trans (if_pos rfl)
    · simp [put, allot]
    · exact (contentOf_allot fs _ _).trans (if_pos rfl)
    · refine fun m hm => ⟨(hput m).trans (if_neg hm), fun i hi => ?_⟩
      exact data_allot fs _ (hknown' hi)
    · exact fun m _ heq => Nat.lt_irrefl _ (hknown' heq)

/-- A file that has been begun holds what is written to it. -/
theorem Begun.append (h : Begun l id fs fs') (bytes : List UInt8) :
    Drafted l bytes fs (fs'.append id bytes) := by
  have hentry := entryAt?_congr (entries_append fs' id bytes)
  refine ⟨h.wellFormed.congr (entries_append fs' id bytes), h.plain, ⟨id, ?_, ?_⟩, fun m hm => ?_⟩
  · rw [hentry, h.here]
  · rw [contentOf_append h.known, if_pos rfl, h.empty, List.nil_append]
  · refine (h.rest m hm).trans (.append bytes fun heq => h.elsewhere m hm ?_)
    rw [← (h.rest m hm).entry, heq]

namespace Drafted

/-- A draft brings no directory and no link. -/
theorem covers (h : Drafted l bytes fs fs') : fs.Covers fs' := by
  refine covers_of_entries fun m e he hfile => ?_
  by_cases hm : m = l
  · obtain ⟨i, hi, -⟩ := h.file
    rw [hm, hi] at he
    exact absurd (Option.some.inj he).symm (hfile i)
  · rw [← (h.rest m hm).entry, he]

/-- A draft takes no directory and no link away. -/
theorem covers_new (h : Drafted l bytes fs fs') : fs'.Covers fs := by
  refine covers_of_entries fun m e he hfile => ?_
  by_cases hm : m = l
  · rw [hm] at he
    obtain ⟨i, rfl⟩ := h.plain e he
    exact absurd rfl (hfile i)
  · rw [(h.rest m hm).entry, he]

/-- What a draft did is undone, but for what the location held, when it is taken away. -/
theorem take (h : Drafted (d ++ [x]) bytes fs fs') (hm : m ≠ d ++ [x]) :
    fs.Untouched (fs'.take (d ++ [x])) m :=
  (h.rest m hm).trans (.take fs' hm)

end Drafted

/-! ## Files renamed over others -/

/-- **Placed**: a name holds a file with the given bytes, another one of the same directory
    is free, and everything else is untouched. -/
structure Placed (d : Location) (x y : String) (bytes : List UInt8) (fs fs' : FileSystem) : Prop where
  covers : fs.Covers fs'
  here : fs'.fileAt? (d ++ [y]) = some bytes
  free : fs'.entryAt? (d ++ [x]) = none
  rest : ∀ m, m ≠ d ++ [x] → m ≠ d ++ [y] → fs.Untouched fs' m

/-- A draft that gets the name of what is no directory is placed there. -/
theorem Drafted.placed (h : Drafted (d ++ [x]) bytes fs fs') (hd : fs.isDirectoryAt d = true)
    (hxy : x ≠ y) (hdir : fs'.isDirectoryAt (d ++ [y]) = false) :
    Placed d x y bytes fs (fs'.move (d ++ [x]) (d ++ [y])) := by
  obtain ⟨i, hi, hbytes⟩ := h.file
  have hentry := h.wellFormed.entryAt?_move (h.covers_new.directory hd)
    (isDirectoryAt_eq_false hi nofun) hdir hxy
  have hne : d ++ [x] ≠ d ++ [y] := by simpa using hxy
  have hhere := (hentry (d ++ [y])).trans (if_pos rfl)
  have hfree := ((hentry (d ++ [x])).trans (if_neg hne)).trans (if_pos rfl)
  have hrest : ∀ m, m ≠ d ++ [x] → m ≠ d ++ [y] →
      fs.Untouched (fs'.move (d ++ [x]) (d ++ [y])) m := by
    intro m hx hy
    refine (h.rest m hx).trans ⟨?_, fun _ _ => rfl⟩
    rw [hentry, if_neg hy, if_neg hx]
  refine ⟨?_, ?_, hfree, hrest⟩
  · -- What is no file stands under neither of the two names, so it was there before.
    refine covers_of_entries fun m e he hfile => ?_
    by_cases hx : m = d ++ [x]
    · rw [hx, hfree] at he
      cases he
    by_cases hy : m = d ++ [y]
    · rw [hy, hhere, hi] at he
      exact absurd (Option.some.inj he).symm (hfile i)
    rw [← (hrest m hx hy).entry, he]
  · have hmoved : (fs'.move (d ++ [x]) (d ++ [y])).fileAt? (d ++ [y]) = fs'.fileAt? (d ++ [x]) :=
      fileAt?_of_data rfl hhere
    rw [hmoved, FileSystem.fileAt?, hi]
    exact congrArg some hbytes

/-- A way that ends before a name, without a slash after it, leads to that name. -/
theorem leads_of_isName {a : Ending} (hedge : fs.edge p = .ok a) (hname : a.isName = true)
    (hslash : a.slash = false) :
    ∃ y, a.location = a.directory ++ [y] ∧ fs.Leads p a.directory y := by
  obtain ⟨y, hloc, hpart⟩ := Ending.location_of_isName hname
  obtain ⟨d, part, slash⟩ := a
  obtain rfl : part = .name y := hpart
  obtain rfl : slash = false := hslash
  exact ⟨y, hloc, (leads_of_edge hedge).1⟩

/-- A file that is renamed comes under the name that the other path leads to, in place of
    what is no directory. -/
theorem Leads.rename_file (h : fs.Leads p d x) (hfile : fs.entryAt? (d ++ [x]) = some (.file id))
    (hok : fs.rename p q = .ok fs') :
    ∃ d' y, fs.Leads q d' y ∧ fs.isDirectoryAt (d' ++ [y]) = false ∧
      (d ++ [x] ≠ d' ++ [y] → fs' = fs.move (d ++ [x]) (d' ++ [y])) := by
  obtain ⟨old, new, -, -, hold, hnew, -, hname, -, -, hmove, rfl⟩ := rename_cases hok
  obtain ⟨-, rfl⟩ := h.edge_cases hold
  have hhere : (Ending.mk d (.name x) false).location = d ++ [x] := rfl
  simp only [hhere, checkMove, hfile, Bool.false_or] at hmove
  split at hmove
  · cases hmove
  · next hslash =>
    obtain ⟨y, hloc, hleads⟩ := leads_of_isName hnew hname (by simpa using hslash)
    rw [hloc] at hmove
    refine ⟨new.directory, y, hleads, ?_, fun hne => ?_⟩
    · by_cases hsame : d ++ [x] = new.directory ++ [y]
      · rw [← hsame]
        exact isDirectoryAt_eq_false hfile (by simp)
      · -- A file may not come in place of a directory.
        rw [if_neg hsame] at hmove
        cases hdir : fs.isDirectoryAt (new.directory ++ [y]) with
        | false => rfl
        | true =>
          rw [hdir] at hmove
          cases hunder : (new.directory ++ [y]).isPrefixOf (d ++ [x]) <;>
            simp [hunder] at hmove
    · rw [hhere, hloc, if_neg hne]

/-- What can be removed has a path that leads to its name. -/
theorem leads_of_removeFile (h : fs.removeFile p = .ok fs') : ∃ d x, fs.Leads p d x := by
  obtain ⟨a, -, hedge, hname, hslash, -⟩ := removeFile_cases h
  obtain ⟨y, -, hleads⟩ := leads_of_isName hedge hname hslash
  exact ⟨a.directory, y, hleads⟩

end Logbook.FileSystem
