import Logbook.Proofs.Files.Places

/-! # The live file in its tree

    A live file that is appended to grows at its own place and nowhere else: it is made
    if it is not there, opened if it is closed, and written to behind its end.  While it
    is open, its handle stands for the file at its place, and the bytes counted are
    those of that file.
-/

namespace Logbook

namespace FileSystem

variable {fs fs' fs'' : FileSystem} {l m : Location} {d : Location} {x y : String} {id : FileId}
  {bytes more : List UInt8}

/-! ## Names in a directory -/

/-- The name of a location in a directory, if it is right in that directory. -/
def childName? (d k : Location) : Option String := if k.dropLast = d then k.getLast? else none

theorem childName?_eq_some_iff {k : Location} : childName? d k = some y ↔ k = d ++ [y] := by
  unfold childName?
  constructor
  · intro h
    split at h
    · next hd =>
      obtain ⟨ys, rfl⟩ := List.getLast?_eq_some_iff.mp h
      have hys : ys = d := by simpa using hd
      rw [hys]
    · cases h
  · rintro rfl
    simp

theorem childNames_eq (fs : FileSystem) (d : Location) :
    fs.childNames d = fs.entries.filterMap fun p => childName? d p.1 := rfl

theorem childNames_congr (h : fs'.entries = fs.entries) (d : Location) :
    fs'.childNames d = fs.childNames d := by
  rw [childNames, childNames, h]

/-- The names in a directory are those under which something is held. -/
theorem mem_childNames_iff : y ∈ fs.childNames d ↔ ∃ e, fs.entryAt? (d ++ [y]) = some e := by
  rw [entryAt?_eq_lookup (child_ne_nil d y), childNames_eq, List.mem_filterMap]
  constructor
  · rintro ⟨⟨k, e⟩, hmem, hy⟩
    obtain rfl : k = d ++ [y] := childName?_eq_some_iff.mp hy
    cases hlookup : fs.entries.lookup (d ++ [y]) with
    | some e' => exact ⟨e', rfl⟩
    | none =>
      have hnot := List.lookup_eq_none_iff.mp hlookup _ hmem
      simp at hnot
  · rintro ⟨e, he⟩
    obtain ⟨xs, ys, heq, -⟩ := List.lookup_eq_some_iff.mp he
    exact ⟨(d ++ [y], e), by simp [heq], childName?_eq_some_iff.mpr rfl⟩

/-- The names of a directory that are left when one has been taken away. -/
theorem mem_childNames_take : x ∈ (fs.take (d ++ [y])).childNames d ↔ x ≠ y ∧ x ∈ fs.childNames d := by
  rw [mem_childNames_iff, mem_childNames_iff, entryAt?_take (child_ne_nil d y)]
  simp only [child_inj]
  by_cases hxy : x = y
  · simp [hxy]
  · simp [hxy]

/-- The names of a directory in which one has been moved to another. -/
theorem of_mem_childNames_move {z : String} (hyz : y ≠ z)
    (h : x ∈ (fs.move (d ++ [y]) (d ++ [z])).childNames d) :
    x ≠ y ∧ (x = z ∨ x ∈ fs.childNames d) := by
  obtain ⟨e, he⟩ := mem_childNames_iff.mp h
  rw [entryAt?_move_child fs hyz] at he
  by_cases hxz : x = z
  · exact ⟨hxz ▸ hyz.symm, .inl hxz⟩
  · rw [if_neg hxz] at he
    split at he
    · cases he
    · next hxy => exact ⟨hxy, .inr (mem_childNames_iff.mpr ⟨e, he⟩)⟩

theorem nodup_childNames_take (h : (fs.childNames d).Nodup) (l : Location) :
    ((fs.take l).childNames d).Nodup :=
  h.sublist (List.filter_sublist.filterMap _)

theorem nodup_childNames_put (h : (fs.childNames d).Nodup) (l : Location) (e : Entry) :
    ((fs.put l e).childNames d).Nodup := by
  have hrest := nodup_childNames_take h l
  rw [childNames_eq, put, List.filterMap_cons]
  cases hl : childName? d l with
  | none => exact hrest
  | some y =>
    obtain rfl := childName?_eq_some_iff.mp hl
    refine List.nodup_cons.mpr ⟨?_, hrest⟩
    intro hy
    -- The entry that was there has been taken out.
    obtain ⟨p, hp, hname⟩ := List.mem_filterMap.mp hy
    have hne : p.1 ≠ d ++ [y] := by simpa using (List.mem_filter.mp hp).2
    exact hne (childName?_eq_some_iff.mp hname)

/-- In the directory the name that is moved becomes the other one. -/
theorem childName?_relocated {k : Location} (hk : k ≠ d ++ [y]) :
    childName? d (relocated (d ++ [x]) (d ++ [y]) k) =
      (childName? d k).map fun w => if w = x then y else w := by
  by_cases hx : k = d ++ [x]
  · subst hx
    have hself : relocated (d ++ [x]) (d ++ [y]) (d ++ [x]) = d ++ [y] :=
      (relocated_eq_target_iff hk).mpr rfl
    rw [hself, childName?_eq_some_iff.mpr rfl, childName?_eq_some_iff.mpr rfl]
    simp
  · cases hname : childName? d k with
    | some w =>
      obtain rfl := childName?_eq_some_iff.mp hname
      have hwx : w ≠ x := fun heq => hx (heq ▸ rfl)
      have hwy : w ≠ y := fun heq => hk (heq ▸ rfl)
      have hstays : relocated (d ++ [x]) (d ++ [y]) (d ++ [w]) = d ++ [w] :=
        (relocated_eq_iff (child_not_below (Ne.symm hwx)) (child_not_below (Ne.symm hwy))).mpr rfl
      rw [hstays, hname]
      simp [hwx]
    | none =>
      rw [Option.map_none, Option.eq_none_iff_forall_ne_some]
      intro w hw
      have hwk := childName?_eq_some_iff.mp hw
      unfold relocated at hwk
      split at hwk
      · next hunder =>
        -- What is moved from deeper down stays deeper down.
        obtain ⟨r, rfl⟩ := List.isPrefixOf_iff_prefix.mp hunder
        have hlen := congrArg List.length hwk
        simp only [List.length_append, List.length_drop, List.length_cons, List.length_nil] at hlen
        have hr : r = [] := List.eq_nil_of_length_eq_zero (by omega)
        exact hx (by simp [hr])
      · subst hwk
        rw [childName?_eq_some_iff.mpr rfl] at hname
        cases hname

theorem nodup_childNames_move (h : (fs.childNames d).Nodup) (x y : String) :
    ((fs.move (d ++ [x]) (d ++ [y])).childNames d).Nodup := by
  have hrest := nodup_childNames_take h (d ++ [y])
  have hnames : (fs.move (d ++ [x]) (d ++ [y])).childNames d =
      ((fs.take (d ++ [y])).childNames d).map fun w => if w = x then y else w := by
    rw [childNames_eq, childNames_eq, move, take, List.filterMap_map, List.map_filterMap]
    refine List.filterMap_congr fun p hp => ?_
    have hne : p.1 ≠ d ++ [y] := by simpa using (List.mem_filter.mp hp).2
    exact childName?_relocated hne
  have hnot : y ∉ (fs.take (d ++ [y])).childNames d := by
    rw [mem_childNames_iff, entryAt?_take (child_ne_nil d y), if_pos rfl]
    simp
  rw [hnames]
  refine List.Nodup.map_on ?_ hrest
  intro v hv w hw heq
  have hvy : v ≠ y := fun h => hnot (h ▸ hv)
  have hwy : w ≠ y := fun h => hnot (h ▸ hw)
  split at heq <;> split at heq <;> simp_all

/-! ## Growing at one place -/

/-- The bytes of the file at a location; none if there is no file. -/
def bytesAt (fs : FileSystem) (l : Location) : List UInt8 :=
  match fs.entryAt? l with
  | some (.file id) => fs.contentOf id
  | _ => []

theorem bytesAt_of_file (h : fs.entryAt? l = some (.file id)) : fs.bytesAt l = fs.contentOf id := by
  rw [bytesAt, h]

theorem bytesAt_of_none (h : fs.entryAt? l = none) : fs.bytesAt l = [] := by
  rw [bytesAt, h]

/-- A location with the same entry and data as another holds the same bytes. -/
theorem bytesAt_congr (hentry : fs'.entryAt? m = fs.entryAt? l)
    (hcontent : ∀ id, fs.entryAt? l = some (.file id) → fs'.contentOf id = fs.contentOf id) :
    fs'.bytesAt m = fs.bytesAt l := by
  rw [bytesAt, bytesAt, hentry]
  split
  · next id hid => exact hcontent id hid
  · rfl

/-- A location holds a file or nothing. -/
def PlainAt (fs : FileSystem) (l : Location) : Prop := ∀ e, fs.entryAt? l = some e → ∃ id, e = .file id

/-- **Grows**: bytes have come behind those of the file at one location, and nothing
    else is different. -/
structure Grows (l : Location) (bytes : List UInt8) (fs fs' : FileSystem) : Prop where
  sound : fs'.Sound
  plain : fs'.PlainAt l
  entry : ∀ m, m ≠ l → fs'.entryAt? m = fs.entryAt? m
  other : ∀ m, m ≠ l → fs'.bytesAt m = fs.bytesAt m
  here : fs'.bytesAt l = fs.bytesAt l ++ bytes
  nodup : ∀ d, (fs.childNames d).Nodup → (fs'.childNames d).Nodup

namespace Grows

theorem refl (hsound : fs.Sound) (hplain : fs.PlainAt l) : Grows l [] fs fs where
  sound := hsound
  plain := hplain
  entry _ _ := rfl
  other _ _ := rfl
  here := by simp
  nodup _ h := h

theorem trans (h : Grows l bytes fs fs') (h' : Grows l more fs' fs'') :
    Grows l (bytes ++ more) fs fs'' where
  sound := h'.sound
  plain := h'.plain
  entry m hm := (h'.entry m hm).trans (h.entry m hm)
  other m hm := (h'.other m hm).trans (h.other m hm)
  here := by rw [h'.here, h.here, List.append_assoc]
  nodup d hd := h'.nodup d (h.nodup d hd)

/-- A file that is written behind its end. -/
theorem append (hsound : fs.Sound) (hfile : fs.entryAt? l = some (.file id)) :
    Grows l bytes fs (fs.append id bytes) := by
  have hentry : ∀ m, (fs.append id bytes).entryAt? m = fs.entryAt? m :=
    entryAt?_congr (entries_append fs id bytes)
  have hid := hsound.lt_size hfile
  refine ⟨hsound.congr (entries_append fs id bytes) (size_append fs id bytes), ?_,
    fun m _ => hentry m, fun m hm => ?_, ?_, fun d hd => ?_⟩
  · intro e he
    rw [hentry, hfile] at he
    exact ⟨id, (Option.some.inj he).symm⟩
  · refine bytesAt_congr (hentry m) fun i hi => ?_
    -- The file of another name is another file.
    have hne : i ≠ id := by
      rintro rfl
      exact hm (hsound.location_unique hi hfile)
    rw [contentOf_append hid, if_neg hne]
  · rw [bytesAt_of_file ((hentry l).trans hfile), bytesAt_of_file hfile, contentOf_append hid,
      if_pos rfl]
  · rwa [childNames_congr (entries_append fs id bytes)]

/-- A file that is made holds nothing. -/
theorem create (hsound : fs.Sound) (hl : l ≠ []) (hnone : fs.entryAt? l = none) (data : FileData)
    (hdata : data.content = []) :
    Grows l [] fs ((fs.allot data).1.put l (.file fs.data.size)) := by
  have hentry : ∀ m, ((fs.allot data).1.put l (.file fs.data.size)).entryAt? m =
      if m = l then some (.file fs.data.size) else fs.entryAt? m := fun m => entryAt?_put hl _ m
  have hcontent : ∀ i, ((fs.allot data).1.put l (.file fs.data.size)).contentOf i =
      if i = fs.data.size then [] else fs.contentOf i := by
    intro i
    have hallot := contentOf_allot fs data i
    rw [hdata] at hallot
    exact hallot
  refine ⟨hsound.put_allot data l (.inl rfl), ?_, fun m hm => ?_, fun m hm => ?_, ?_, fun d hd => ?_⟩
  · intro e he
    rw [hentry, if_pos rfl] at he
    exact ⟨_, (Option.some.inj he).symm⟩
  · rw [hentry, if_neg hm]
  · refine bytesAt_congr (by rw [hentry, if_neg hm]) fun i hi => ?_
    have hne : i ≠ fs.data.size := Nat.ne_of_lt (hsound.lt_size hi)
    rw [hcontent, if_neg hne]
  · have hnew := (hentry l).trans (if_pos rfl)
    rw [bytesAt_of_file hnew, bytesAt_of_none hnone, hcontent, if_pos rfl]
    rfl
  · exact nodup_childNames_put hd l _

/-- A place that is one of the own names grows inside them. -/
theorem sameOutside {own : String → Bool} (h : Grows (d ++ [x]) bytes fs fs') (hx : own x = true) :
    SameOutside d own fs fs' := by
  intro m hm
  refine h.entry m ?_
  rintro rfl
  rw [owned_child, hx] at hm
  cases hm

end Grows

end FileSystem

/-! ## The open file -/

namespace LogFile

open FileSystem

variable {f f' : LogFile} {fs fs' : FileSystem} {d l : Location} {x : String}

/-- The file with a handle for what it has been opened to. -/
def opened (f : LogFile) (id : FileId) (fs : FileSystem) : LogFile :=
  let place? :=
    match f.mode with
    | .append => none
    | .truncate => some 0
  { f with handle? := some { id, place? }, counted := (fs.contentOf id).length }

/-- **What comes of opening**: an open file stays as it is.  The directory of a closed one is
    made, and then it is opened, unless one of the two fails. -/
theorem reopen_cases {r : Except LogError LogFile} (h : f.reopen fs = (r, fs')) :
    f.isOpen = true ∧ r = .ok f ∧ fs' = fs ∨
      f.isOpen = false ∧ ∃ r₁ fs₁, prepareDirectory f.path fs = (r₁, fs₁) ∧
        ((∃ e, r = .error e) ∧ fs' = fs₁ ∨
          r₁ = .ok () ∧ ∃ id, fs₁.openFile f.path f.mode = .ok (fs', id) ∧
            r = .ok (f.opened id fs')) := by
  unfold reopen at h
  split at h
  · next hopen =>
    obtain ⟨rfl, rfl⟩ := Prod.mk.inj h
    exact .inl ⟨hopen, rfl, rfl⟩
  · next hclosed =>
    refine .inr ⟨by simpa using hclosed, ?_⟩
    rcases hprepare : prepareDirectory f.path fs with ⟨r₁, fs₁⟩
    rw [hprepare] at h
    refine ⟨r₁, fs₁, rfl, ?_⟩
    cases r₁ with
    | error e =>
      obtain ⟨rfl, rfl⟩ := Prod.mk.inj h
      exact .inl ⟨⟨e, rfl⟩, rfl⟩
    | ok u =>
      dsimp only at h
      cases hopen : fs₁.openFile f.path f.mode with
      | error e =>
        rw [hopen] at h
        obtain ⟨rfl, rfl⟩ := Prod.mk.inj h
        exact .inl ⟨⟨_, rfl⟩, rfl⟩
      | ok result =>
        obtain ⟨fs₂, id⟩ := result
        rw [hopen] at h
        obtain ⟨rfl, rfl⟩ := Prod.mk.inj h
        exact .inr ⟨rfl, id, rfl, rfl⟩

/-- A file that has been opened is open. -/
theorem isOpen_of_reopen (h : f.reopen fs = (.ok f', fs')) : f'.isOpen = true := by
  rcases reopen_cases h with ⟨hopen, heq, -⟩ | ⟨-, r₁, fs₁, -, ⟨⟨e, heq⟩, -⟩ | ⟨-, id, -, heq⟩⟩
  · rw [Except.ok.inj heq]
    exact hopen
  · cases heq
  · rw [Except.ok.inj heq]
    rfl

/-- **What comes of a line**: the file is opened if need be, and what is written goes through
    its handle. -/
theorem writeLine_cases {r : Except LogError LogFile} {text terminator : String}
    (h : f.writeLine text terminator fs = (r, fs')) :
    (∃ e, f.reopen fs = (.error e, fs') ∧ r = .error e) ∨
      ∃ f₁ fs₁ handle handle', f.reopen fs = (.ok f₁, fs₁) ∧ f₁.handle? = some handle ∧
        send handle (lineBytes text terminator) fs₁ = (handle', fs') ∧
        r = .ok { f₁ with
          handle? := some handle', counted := f₁.counted + (lineBytes text terminator).length } := by
  unfold writeLine at h
  rcases hreopen : f.reopen fs with ⟨r₁, fs₁⟩
  rw [hreopen] at h
  cases r₁ with
  | error e =>
    obtain ⟨rfl, rfl⟩ := Prod.mk.inj h
    exact .inl ⟨e, rfl, rfl⟩
  | ok f₁ =>
    right
    obtain ⟨handle, hhandle⟩ := Option.isSome_iff_exists.mp (isOpen_of_reopen hreopen)
    simp only [hhandle] at h
    obtain ⟨rfl, rfl⟩ := Prod.mk.inj h
    exact ⟨f₁, fs₁, handle, _, rfl, hhandle, rfl, rfl⟩

/-- Through a handle without a place, what is written goes behind the end of the file. -/
theorem send_append {handle : Handle} (hplace : handle.place? = none) (bytes : List UInt8)
    (fs : FileSystem) : send handle bytes fs = (handle, fs.append handle.id bytes) := by
  unfold send
  rw [hplace]

/-- **Tracks**: what is written to an open live file comes behind the file that its path
    leads to, and the bytes of that file have been counted. -/
structure Tracks (f : LogFile) (d : Location) (x : String) (fs : FileSystem) : Prop where
  mode : f.mode = .append
  handle : ∀ h, f.handle? = some h →
    h.place? = none ∧ fs.shown f.path d x = some (.file h.id) ∧
      f.counted = (fs.bytesAt (d ++ [x])).length

/-- A closed file has nothing to keep track of. -/
theorem Tracks.close (h : f.Tracks d x fs) (fs' : FileSystem) : f.close.Tracks d x fs' :=
  ⟨h.mode, fun _ hnone => by cases hnone⟩

/-- A tree that holds the same at the place of the live file keeps it on track. -/
theorem Tracks.congr (h : f.Tracks d x fs) (hentry : fs'.entryAt? (d ++ [x]) = fs.entryAt? (d ++ [x]))
    (hbytes : fs'.bytesAt (d ++ [x]) = fs.bytesAt (d ++ [x])) : f.Tracks d x fs' := by
  refine ⟨h.mode, fun h' hh' => ?_⟩
  rw [shown, hentry, hbytes]
  exact h.handle h' hh'

/-- **Same settings**: two live files differ in what is open and counted alone. -/
def SameSettings (f f' : LogFile) : Prop :=
  f' = { f with handle? := f'.handle?, counted := f'.counted }

theorem SameSettings.refl (f : LogFile) : f.SameSettings f := rfl

theorem SameSettings.trans {f'' : LogFile} (h : f.SameSettings f') (h' : f'.SameSettings f'') :
    f.SameSettings f'' := by
  rw [SameSettings] at h h' ⊢
  rw [h', h]

theorem SameSettings.close (f : LogFile) : f.SameSettings f.close := rfl

theorem SameSettings.path (h : f.SameSettings f') : f'.path = f.path := by rw [h]

theorem SameSettings.delay (h : f.SameSettings f') : f'.delay = f.delay := by rw [h]

theorem SameSettings.namer (h : f.SameSettings f') : f'.namer? = f.namer? := by rw [h]

theorem SameSettings.rotator (h : f.SameSettings f') : f'.rotator? = f.rotator? := by rw [h]

/-- The directory of a path that leads somewhere is there already. -/
theorem prepareDirectory_of_leads {p : Path} (h : fs.Leads p d x)
    (hlen : checkLength p = .ok ()) : prepareDirectory p fs = (.ok (), fs) := by
  unfold prepareDirectory
  rcases h.parent hlen with ⟨hparent, -⟩ | ⟨dir, m, hparent, -, hnull, hdirlen, hway⟩
  · rw [hparent]
    rfl
  · rw [hparent]
    dsimp only
    split
    · rfl
    · rw [makeDirectories_of_way hnull hdirlen hway h.directory]

/-- To open the live file makes it if it is not there, and changes nothing else; if it
    cannot be opened nothing changes at all. -/
theorem reopen_spec {r : Except LogError LogFile} (hleads : fs.Leads f.path d x)
    (hlen : checkLength f.path = .ok ()) (hsound : fs.Sound) (hplain : fs.PlainAt (d ++ [x]))
    (htracks : f.Tracks d x fs) (h : f.reopen fs = (r, fs')) :
    Grows (d ++ [x]) [] fs fs' ∧ (∀ e, r = .error e → fs' = fs) ∧ ∀ f', r = .ok f' →
      f.SameSettings f' ∧ f'.Tracks d x fs' ∧ ∃ handle, f'.handle? = some handle := by
  have hsame := Grows.refl hsound hplain
  rcases reopen_cases h with ⟨hopen, rfl, rfl⟩ | ⟨-, r₁, fs₁, hprepare, hcases⟩
  · refine ⟨hsame, nofun, ?_⟩
    intro f' heq
    obtain rfl := Except.ok.inj heq
    exact ⟨.refl f, htracks, Option.isSome_iff_exists.mp hopen⟩
  · rw [prepareDirectory_of_leads hleads hlen] at hprepare
    obtain ⟨-, rfl⟩ := Prod.mk.inj hprepare
    rcases hcases with ⟨⟨e, rfl⟩, rfl⟩ | ⟨-, id, hopen, rfl⟩
    · exact ⟨hsame, fun _ _ => rfl, nofun⟩
    · rw [htracks.mode] at hopen
      -- The file is there, or it is made now.
      obtain ⟨hgrows, hshown⟩ : Grows (d ++ [x]) [] fs fs' ∧
          fs'.shown f.path d x = some (.file id) := by
        rcases hleads.openFile hplain hopen with ⟨hshown, rfl⟩ | ⟨hfits, hnone, rfl, rfl⟩
        · exact ⟨hsame, hshown⟩
        · refine ⟨.create hsound (child_ne_nil d x) hnone _ rfl, ?_⟩
          rw [shown_eq_some_iff]
          exact ⟨hfits, (entryAt?_put (child_ne_nil d x) _ _).trans (if_pos rfl)⟩
      refine ⟨hgrows, nofun, ?_⟩
      intro f' heq
      obtain rfl := Except.ok.inj heq
      refine ⟨rfl, ⟨htracks.mode, ?_⟩, _, rfl⟩
      intro handle heq
      obtain rfl := Option.some.inj heq
      have hentry := (shown_eq_some_iff.mp hshown).2
      exact ⟨by rw [htracks.mode], hshown, by rw [bytesAt_of_file hentry]; rfl⟩

/-- A line that is written comes behind what the live file holds, and nothing else
    changes; if it cannot be written, nothing changes at all. -/
theorem writeLine_spec {r : Except LogError LogFile} {text terminator : String}
    (hleads : fs.Leads f.path d x) (hlen : checkLength f.path = .ok ()) (hsound : fs.Sound)
    (hplain : fs.PlainAt (d ++ [x])) (htracks : f.Tracks d x fs)
    (h : f.writeLine text terminator fs = (r, fs')) :
    (∀ e, r = .error e → fs' = fs) ∧ ∀ f', r = .ok f' →
      Grows (d ++ [x]) (lineBytes text terminator) fs fs' ∧ f.SameSettings f' ∧
        f'.Tracks d x fs' ∧ ∃ handle, f'.handle? = some handle := by
  rcases writeLine_cases h with ⟨e, hreopen, rfl⟩ |
    ⟨f₁, fs₁, handle, handle', hreopen, hhandle, hsend, rfl⟩
  · obtain ⟨-, hfailed, -⟩ := reopen_spec hleads hlen hsound hplain htracks hreopen
    exact ⟨fun _ _ => hfailed e rfl, nofun⟩
  · obtain ⟨hgrows, -, hopened⟩ := reopen_spec hleads hlen hsound hplain htracks hreopen
    obtain ⟨hsettings, htracks₁, -⟩ := hopened f₁ rfl
    obtain ⟨hplace, hshown, hcounted⟩ := htracks₁.handle handle hhandle
    rw [send_append hplace] at hsend
    obtain ⟨rfl, rfl⟩ := Prod.mk.inj hsend
    -- The file that the handle stands for is the one at the place of the live file.
    have hwritten : Grows (d ++ [x]) (lineBytes text terminator) fs₁
        (fs₁.append handle.id (lineBytes text terminator)) :=
      .append hgrows.sound (shown_eq_some_iff.mp hshown).2
    refine ⟨nofun, ?_⟩
    intro f' heq
    obtain rfl := Except.ok.inj heq
    refine ⟨hgrows.trans hwritten, hsettings.trans rfl, ⟨htracks₁.mode, ?_⟩, _, rfl⟩
    intro handle' heq
    obtain rfl := Option.some.inj heq
    refine ⟨hplace, ?_, ?_⟩
    · rw [shown, entryAt?_congr (entries_append _ _ _)]
      exact hshown
    · rw [hwritten.here, List.length_append, ← hcounted]

end LogFile

/-! ## The place of a live file -/

namespace FileSystem

variable {fs fs' : FileSystem} {path q : Path} {d : Location} {x y : String}
  {own : String → Bool} {bytes : List UInt8}

/-- **Site**: the path of a live file leads to a name in a directory, on a way that does
    not use the names `own` of that directory, and a file or nothing is there. -/
structure Site (path : Path) (d : Location) (x : String) (own : String → Bool)
    (fs : FileSystem) : Prop where
  sound : fs.Sound
  way : (fs.without d own).Leads path d x
  length : checkLength path = .ok ()
  plain : fs.PlainAt (d ++ [x])

/-- A way that does not use own names is there whatever becomes of them. -/
theorem SameOutside.leads (h : SameOutside d own fs fs') (hq : (fs.without d own).Leads q d y) :
    fs'.Leads q d y :=
  hq.mono h.covers

namespace Site

theorem leads (h : Site path d x own fs) : fs.Leads path d x := (SameOutside.refl d own fs).leads h.way

/-- Changes of own names leave the site as it is. -/
theorem congr (h : Site path d x own fs) (hsame : SameOutside d own fs fs') (hsound : fs'.Sound)
    (hplain : fs'.PlainAt (d ++ [x])) : Site path d x own fs' :=
  ⟨hsound, h.way.mono hsame.covers_without, h.length, hplain⟩

theorem grows (h : Site path d x own fs) (hx : own x = true)
    (hgrows : Grows (d ++ [x]) bytes fs fs') : Site path d x own fs' :=
  h.congr (hgrows.sameOutside hx) hgrows.sound hgrows.plain

end Site

end FileSystem

namespace LogFile

open FileSystem

variable {fs fs' : FileSystem} {f f' : LogFile} {path : Path} {d : Location} {x : String}
  {own : String → Bool}

/-- **Renewed**: what ends a rollover, and the making of a sink.  The live file is opened,
    unless it waits for the next line. -/
def Renewed (f : LogFile) (fs : FileSystem) (f' : LogFile) (fs' : FileSystem) : Prop :=
  f.delay = true ∧ f' = f ∧ fs' = fs ∨ f.delay = false ∧ f.reopen fs = (.ok f', fs')

/-- A live file that is renewed is made if need be, and nothing else changes. -/
theorem Renewed.spec (h : f.Renewed fs f' fs') (hpath : f.path = path)
    (hsite : Site path d x own fs) (htracks : f.Tracks d x fs) :
    f.SameSettings f' ∧ f'.Tracks d x fs' ∧ Grows (d ++ [x]) [] fs fs' := by
  subst hpath
  rcases h with ⟨-, rfl, rfl⟩ | ⟨-, hreopen⟩
  · exact ⟨.refl f', htracks, .refl hsite.sound hsite.plain⟩
  · obtain ⟨hgrows, -, hopened⟩ :=
      reopen_spec hsite.leads hsite.length hsite.sound hsite.plain htracks hreopen
    obtain ⟨hsettings, htracks', -⟩ := hopened f' rfl
    exact ⟨hsettings, htracks', hgrows⟩

/-- A line that has been written comes behind what the live file holds. -/
theorem writeLine_grows {text terminator : String} (hpath : f.path = path)
    (hsite : Site path d x own fs) (htracks : f.Tracks d x fs)
    (h : f.writeLine text terminator fs = (.ok f', fs')) :
    Grows (d ++ [x]) (lineBytes text terminator) fs fs' ∧ f.SameSettings f' ∧
      f'.Tracks d x fs' := by
  subst hpath
  obtain ⟨-, hwritten⟩ :=
    writeLine_spec hsite.leads hsite.length hsite.sound hsite.plain htracks h
  obtain ⟨hgrows, hsettings, htracks', -⟩ := hwritten f' rfl
  exact ⟨hgrows, hsettings, htracks'⟩

end LogFile

end Logbook
