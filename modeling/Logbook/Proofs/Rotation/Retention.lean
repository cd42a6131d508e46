import Logbook.Proofs.Files.WellFormed
import Logbook.Proofs.Rotation.Stamp
import Logbook.Rotation.Timed
import Mathlib.Data.List.Sort

/-! # What retention removes

    Of the archives in a directory the oldest are removed, one after the other, until a
    number of them is left or a removal fails.  Whatever happens on the way, the names
    removed are a first part of those that are surplus, and all the greater ones stay.
-/

namespace Logbook

namespace FileSystem

open Path (turnsOf Splits turn?)

variable {fs fs' gs : FileSystem} {p q : Path} {d d' l : Location} {x y : String} {e : Entry}
  {front : List Char}

/-! ## Where paths lead -/

theorem Covers.trans (h : gs.Covers fs) {hs : FileSystem} (h' : fs.Covers hs) : gs.Covers hs :=
  ⟨fun hd => h.directory (h'.directory hd), fun ht => h.link (h'.link ht)⟩

theorem Covers.refl (fs : FileSystem) : fs.Covers fs := ⟨id, id⟩

/-- A tree has what is left of it when a name is taken away. -/
theorem covers_take (fs : FileSystem) (d : Location) (y : String) : fs.Covers (fs.take (d ++ [y])) := by
  have hentry : ∀ {m a}, (fs.take (d ++ [y])).entryAt? m = some a → fs.entryAt? m = some a := by
    intro m a ha
    rw [entryAt?_take (child_ne_nil d y)] at ha
    split at ha
    · cases ha
    · exact ha
  refine ⟨fun hdir => ?_, hentry⟩
  obtain ⟨id, hid⟩ := isDirectoryAt_iff.mp hdir
  exact isDirectoryAt_iff.mpr ⟨id, hentry hid⟩

/-- A path leads to one place only. -/
theorem Leads.unique (h : fs.Leads p d x) (h' : fs.Leads p d' y)
    (hlen : checkLength p = .ok ()) : d' = d ∧ y = x := by
  have heq := (h.edge hlen).symm.trans (h'.edge hlen)
  simp only [Except.ok.injEq, Ending.mk.injEq, Path.Part.name.injEq, and_true] at heq
  exact ⟨heq.1.symm, heq.2.symm⟩

/-- The text of a path tells the name it leads to and the way before it. -/
theorem Leads.of_splits (h : fs.Leads p d y) (hs : p.Splits front x) :
    y = x ∧ ∃ m, fs.Way linkLimit [] (turnsOf front) d m := by
  obtain ⟨front', m, hs', hway⟩ := h.way
  have hturns := hs'.turns.symm.trans hs.turns
  obtain ⟨hfront, hname⟩ := List.append_inj' hturns rfl
  simp only [List.cons.injEq, Path.Part.name.injEq, and_true] at hname
  exact ⟨hname, m, hfront ▸ hway⟩

/-- Where the way of a path that has an end, ends. -/
theorem edge_of_splits {a : Ending} (hs : p.Splits front x) (h : fs.edge p = .ok a) :
    ∃ d, fs.Leads p d x ∧ a = ⟨d, .name x, false⟩ := by
  obtain ⟨-, -, hwalk⟩ := ending_cases h
  rw [hs.turns, hs.endsInSlash] at hwalk
  obtain ⟨d, -, rfl, -, -⟩ := way_of_walk rfl hwalk
  exact ⟨d, (leads_of_edge h).1, rfl⟩

/-- What is removed is there, and no directory. -/
theorem removeFile_of_splits (hs : p.Splits front x) (h : fs.removeFile p = .ok fs') :
    ∃ d e, fs.Leads p d x ∧ checkLength p = .ok () ∧ fs.entryAt? (d ++ [x]) = some e ∧
      (∀ id, e ≠ .directory id) ∧ fs' = fs.take (d ++ [x]) := by
  obtain ⟨a, -, hedge, -⟩ := removeFile_cases h
  obtain ⟨d, hleads, rfl⟩ := edge_of_splits hs hedge
  obtain ⟨e, hshown, hdir, rfl⟩ := hleads.removeFile h
  obtain ⟨⟨hlen, -⟩, hentry⟩ := shown_eq_some_iff.mp hshown
  exact ⟨d, e, hleads, hlen, hentry, hdir, rfl⟩

/-- A directory that is found has a path to which names can be joined, and in it they
    are looked up. -/
theorem Leads.of_join {dir : Path} {i : FileId} (hfind : fs.find true dir = .ok (d, .directory i))
    (hdir : dir.text.toList ≠ []) (hy : '/' ∉ y.toList) (hname : turn? y.toList = some (.name y))
    (h : fs.Leads (dir.join ⟨y⟩) d' x) : d' = d ∧ x = y := by
  obtain ⟨front, hsplits, hfront⟩ := Path.splits_join hdir hy hname
  obtain ⟨rfl, m, hway⟩ := h.of_splits hsplits
  rw [hfront] at hway
  have hend := hfind
  simp only [find, bind_eq_ok] at hend
  obtain ⟨a, hend, -⟩ := hend
  obtain ⟨hnull, hlen, -⟩ := ending_cases hend
  obtain ⟨i', hfind'⟩ := find_directory hnull hlen hway h.directory
  rw [hfind] at hfind'
  exact ⟨(congrArg Prod.fst (Except.ok.inj hfind')).symm, rfl⟩

/-! ## Names that are taken away -/

/-- A tree without some names of a directory. -/
def takeAll (fs : FileSystem) (d : Location) (ys : List String) : FileSystem :=
  ys.foldl (fun fs y => fs.take (d ++ [y])) fs

theorem entryAt?_takeAll (fs : FileSystem) (d : Location) (ys : List String) (l : Location) :
    (fs.takeAll d ys).entryAt? l = if ∃ y ∈ ys, l = d ++ [y] then none else fs.entryAt? l := by
  induction ys generalizing fs with
  | nil => simp [takeAll]
  | cons y ys ih =>
    rw [takeAll, List.foldl_cons, ← takeAll, ih, entryAt?_take (child_ne_nil d y)]
    by_cases hl : l = d ++ [y]
    · simp [hl]
    · simp [hl]

theorem entryAt?_takeAll_child (fs : FileSystem) (d : Location) (ys : List String) (y : String) :
    (fs.takeAll d ys).entryAt? (d ++ [y]) = if y ∈ ys then none else fs.entryAt? (d ++ [y]) := by
  rw [entryAt?_takeAll]
  simp

@[simp] theorem data_takeAll (fs : FileSystem) (d : Location) (ys : List String) :
    (fs.takeAll d ys).data = fs.data := by
  induction ys generalizing fs with
  | nil => rfl
  | cons y ys ih =>
    rw [takeAll, List.foldl_cons, ← takeAll, ih]
    rfl

/-- What is kept by each name that is taken away is kept by all. -/
theorem takeAll_induction {P : FileSystem → Prop} (d : Location) (ys : List String)
    (hstep : ∀ gs y, y ∈ ys → P gs → P (gs.take (d ++ [y]))) (h : P fs) : P (fs.takeAll d ys) := by
  induction ys generalizing fs with
  | nil => exact h
  | cons y ys ih =>
    exact ih (fun gs z hz => hstep gs z (List.mem_cons_of_mem _ hz)) (hstep fs y List.mem_cons_self h)

theorem nodup_childNames_takeAll (h : (fs.childNames d).Nodup) (ys : List String) :
    ((fs.takeAll d ys).childNames d).Nodup :=
  takeAll_induction (P := fun gs => (gs.childNames d).Nodup) d ys
    (fun _ y _ hgs => nodup_childNames_take hgs (d ++ [y])) h

theorem Sound.takeAll (h : fs.Sound) (d : Location) (ys : List String) : (fs.takeAll d ys).Sound :=
  takeAll_induction (P := Sound) d ys (fun _ y _ hgs => hgs.take (d ++ [y])) h

/-- To take away what is no directory keeps a tree well-formed. -/
theorem WellFormed.takeAll (h : fs.WellFormed) {ys : List String}
    (hfile : ∀ y ∈ ys, fs.isDirectoryAt (d ++ [y]) = false) : (fs.takeAll d ys).WellFormed := by
  induction ys generalizing fs with
  | nil => exact h
  | cons y ys ih =>
    refine ih (h.take (hfile y List.mem_cons_self)) fun z hz => ?_
    rw [Bool.eq_false_iff]
    intro hdir
    have hold := (covers_take fs d y).directory hdir
    rw [hfile z (List.mem_cons_of_mem _ hz)] at hold
    cases hold

end FileSystem

namespace Rotation

open FileSystem
open Path (turn?)

/-! ## Names of archives -/

variable {unit : Period} {base x y z : String}

/-- What follows the characters of a shape is what is left. -/
theorem mem_of_afterDigits {n : Nat} {s rest : List Char} (h : afterDigits n s = some rest) {c : Char}
    (hc : c ∈ s) : c ∈ rest ∨ c.isDigit = true := by
  induction n generalizing s with
  | zero =>
    obtain rfl := Option.some.inj h
    exact .inl hc
  | succ n ih =>
    cases s with
    | nil => cases hc
    | cons a s =>
      rw [afterDigits] at h
      split at h
      · next ha =>
        rcases List.mem_cons.mp hc with rfl | hc
        · exact .inr ha
        · exact ih h hc
      · cases h

/-- The characters of a text in front of what follows a shape. -/
theorem mem_of_afterShape {shape : List ShapePart} {s rest : List Char}
    (h : afterShape shape s = some rest) {c : Char} (hc : c ∈ s) :
    c ∈ rest ∨ c.isDigit = true ∨ .literal c ∈ shape := by
  induction shape generalizing s with
  | nil =>
    obtain rfl := Option.some.inj h
    exact .inl hc
  | cons part shape ih =>
    cases part with
    -- Digits, or else a character that the shape itself gives.
    | digits n =>
      obtain ⟨t, ht, h⟩ := Option.bind_eq_some_iff.mp h
      rcases mem_of_afterDigits ht hc with hct | hdigit
      · exact (ih h hct).imp id (.imp id (List.mem_cons_of_mem _))
      · exact .inr (.inl hdigit)
    | literal a =>
      cases s with
      | nil => cases hc
      | cons b s =>
        rw [afterShape] at h
        split at h
        · next hab =>
          rcases List.mem_cons.mp hc with rfl | hc
          · exact .inr (.inr (hab ▸ List.mem_cons_self))
          · exact (ih h hc).imp id (.imp id (List.mem_cons_of_mem _))
        · cases h

/-- A text with the shape of a time holds a digit and no slash. -/
theorem suffix_chars {s : List Char} (h : matchesShape unit.shape s = true) :
    (∃ c ∈ s, c.isDigit = true) ∧ '/' ∉ s := by
  unfold matchesShape at h
  split at h
  · next rest hrest =>
    constructor
    · -- The year comes first.
      rw [Period.shape_eq] at hrest
      obtain ⟨t, ht, -⟩ := Option.bind_eq_some_iff.mp hrest
      cases s with
      | nil => cases ht
      | cons c s =>
        rw [afterDigits] at ht
        split at ht
        · next hc => exact ⟨c, List.mem_cons_self, hc⟩
        · cases ht
    · -- Neither shapes nor endings have a slash.
      intro hslash
      rcases mem_of_afterShape hrest hslash with hmem | hdigit | hliteral
      · unfold isExtension at h
        split at h
        · cases hmem
        · next ext =>
          have hext := (Bool.and_eq_true_iff.mp h).2
          rcases List.mem_cons.mp hmem with heq | hmem
          · cases heq
          · have hchar := List.all_eq_true.mp hext _ hmem
            revert hchar
            decide
        · cases h
      · cases hdigit
      · rw [Period.shape_eq] at hliteral
        cases unit <;> simp [Period.clockShape] at hliteral
  · cases h

/-- The name of an archive is the base, a dot and a text with the shape of a time. -/
theorem isArchiveName_iff : isArchiveName unit base y = true ↔
    ∃ s, y.toList = base.toList ++ '.' :: s ∧ matchesShape unit.shape s = true := by
  unfold isArchiveName suffixOf?
  constructor
  · intro h
    split at h
    · next s hs =>
      dsimp only at hs
      split at hs
      · next hinit =>
        obtain ⟨t, ht⟩ := List.isPrefixOf_iff_prefix.mp hinit
        rw [← ht, List.drop_left] at hs
        obtain rfl := Option.some.inj hs
        exact ⟨t, by rw [← ht]; simp, h⟩
      · cases hs
    · cases h
  · rintro ⟨s, hy, hs⟩
    -- The base and the dot are what is cut off in front.
    have hsplit : y.toList = (base.toList ++ ['.']) ++ s := by
      rw [hy]
      simp
    have hinit : (base.toList ++ ['.']).isPrefixOf (base.toList ++ ['.'] ++ s) = true :=
      List.isPrefixOf_iff_prefix.mpr (List.prefix_append _ _)
    simp only [hsplit, hinit, if_true, List.drop_left]
    exact hs

/-- The name of an archive is a name between slashes. -/
theorem isArchiveName_single (hbase : '/' ∉ base.toList) (h : isArchiveName unit base y = true) :
    '/' ∉ y.toList ∧ turn? y.toList = some (.name y) := by
  obtain ⟨s, hy, hs⟩ := isArchiveName_iff.mp h
  obtain ⟨⟨c, hc, hdigit⟩, hslash⟩ := suffix_chars hs
  have hmem : c ∈ y.toList := by
    rw [hy]
    exact List.mem_append_right _ (List.mem_cons_of_mem _ hc)
  -- A digit tells the name from dots alone.
  have hdot : c ≠ '.' := by
    rintro rfl
    cases hdigit
  refine ⟨?_, Path.turn?_eq_name_iff.mpr ⟨rfl, ?_, ?_, ?_⟩⟩
  · rw [hy, List.mem_append, List.mem_cons]
    simp [hbase, hslash]
  · exact List.ne_nil_of_mem hmem
  · intro heq
    rw [heq] at hmem
    exact hdot (by simpa using hmem)
  · intro heq
    rw [heq] at hmem
    exact hdot (by simpa using hmem)

/-- The name of the live file is not that of an archive. -/
theorem isArchiveName_self (unit : Period) (x : String) : isArchiveName unit x x = false := by
  rw [Bool.eq_false_iff]
  intro h
  obtain ⟨s, hx, -⟩ := isArchiveName_iff.mp h
  have hlen := congrArg List.length hx
  simp at hlen

theorem ne_of_isArchiveName (h : isArchiveName unit x y = true) : y ≠ x := by
  rintro rfl
  rw [isArchiveName_self] at h
  cases h

/-- The name of a file has no slash. -/
theorem fileName?_single {p : Path} {s : String} (h : p.fileName? = some s) : '/' ∉ s.toList := by
  unfold Path.fileName? at h
  split at h
  · next t hlast =>
    obtain rfl := Option.some.inj h
    -- A name is one of the pieces between slashes.
    have hmem := List.mem_of_getLast? hlast
    unfold Path.parts at hmem
    rcases List.mem_append.mp hmem with hfront | hpiece
    · split at hfront <;> simp at hfront
    · obtain ⟨piece, hpiece, hpart⟩ := List.mem_filterMap.mp hpiece
      unfold Path.part? at hpart
      split at hpart
      · cases hpart
      · split at hpart
        · cases hpart
        · simp only [Option.some.injEq, Path.Part.name.injEq] at hpart
          rw [← hpart, String.toList_ofList]
          exact Path.not_mem_of_mem_pieces hpiece
  · cases h

/-- The base of the names of archives has no slash. -/
theorem base_single (p : Path) : '/' ∉ (p.fileName?.getD "").toList := by
  cases h : p.fileName? with
  | none => simp
  | some s => exact fileName?_single h

/-- The directory of the archives has a path that is not empty. -/
theorem archiveDirectory_ne_nil (p : Path) : (archiveDirectory p).text.toList ≠ [] := by
  unfold archiveDirectory
  split
  · split
    · decide
    · next hdir =>
      intro hnil
      exact hdir (by simpa using hnil)
  · decide

/-! ## Archives in order -/

/-- The archives among some names. -/
theorem mem_archivesAmong {names : List String} : y ∈ archivesAmong unit base names ↔
    y ∈ names ∧ isArchiveName unit base y = true := by
  rw [archivesAmong, List.mem_mergeSort, List.mem_filter]

/-- No archive comes after a greater one. -/
theorem archivesAmong_ordered (unit : Period) (base : String) (names : List String) :
    (archivesAmong unit base names).Pairwise (· ≤ ·) := by
  have htrans : ∀ a b c : String, decide (a ≤ b) = true → decide (b ≤ c) = true →
      decide (a ≤ c) = true := by
    intro a b c hab hbc
    simp only [decide_eq_true_eq] at hab hbc ⊢
    exact le_trans hab hbc
  have htotal : ∀ a b : String, (decide (a ≤ b) || decide (b ≤ a)) = true := by
    intro a b
    simp only [Bool.or_eq_true, decide_eq_true_eq]
    exact le_total a b
  have hsorted := List.pairwise_mergeSort htrans htotal (names.filter (isArchiveName unit base))
  exact hsorted.imp fun hab => by simpa using hab

/-- **Archives in order**: each comes after the ones that are less. -/
theorem archivesAmong_sorted {names : List String} (h : names.Nodup) :
    (archivesAmong unit base names).Pairwise (· < ·) := by
  have hne : (archivesAmong unit base names).Pairwise (· ≠ ·) :=
    (List.mergeSort_perm _ _).nodup_iff.mpr (h.filter _)
  exact (archivesAmong_ordered unit base names).imp₂ (fun a b hab hne => lt_of_le_of_ne hab hne) hne

/-- Names in order that are those of archives are the archives. -/
theorem archivesAmong_eq {names ys : List String} (h : names.Nodup) (hys : ys.Pairwise (· < ·))
    (hmem : ∀ y, y ∈ ys ↔ y ∈ names ∧ isArchiveName unit base y = true) :
    archivesAmong unit base names = ys :=
  (archivesAmong_sorted h).eq_of_mem_iff hys fun y => mem_archivesAmong.trans (hmem y).symm

/-- Of names in order all that are kept are greater than those that are surplus. -/
theorem lt_of_surplus {keep : Nat} {names : List String} (h : names.Pairwise (· < ·))
    (hy : y ∈ allButLast keep names) (hz : z ∈ names.drop (names.length - keep)) : y < z := by
  rw [← List.take_append_drop (names.length - keep) names] at h
  exact (List.pairwise_append.mp h).2.2 y hy z hz

/-! ## Removals -/

variable {fs fs' gs : FileSystem} {dir : Path} {d : Location} {i : FileId} {r : Except LogError Unit}

/-- **Removals** that are to take names of a directory away take a first part of them,
    and all of them if none fails. -/
theorem removeAll_spec {names : List String} (hfind : gs.find true dir = .ok (d, .directory i))
    (hdir : dir.text.toList ≠ []) (hcovers : gs.Covers fs)
    (hnames : ∀ y ∈ names, '/' ∉ y.toList ∧ turn? y.toList = some (.name y))
    (h : TimedRotation.removeAll (names.map fun y => dir.join ⟨y⟩) fs = (r, fs')) :
    ∃ ys, ys <+: names ∧ (r = .ok () → ys = names) ∧ fs' = fs.takeAll d ys ∧
      ∀ y ∈ ys, fs.isDirectoryAt (d ++ [y]) = false := by
  induction names generalizing fs with
  | nil =>
    obtain ⟨rfl, rfl⟩ := Prod.mk.inj h
    exact ⟨[], List.prefix_refl _, fun _ => rfl, rfl, by simp⟩
  | cons y names ih =>
    rw [List.map_cons, TimedRotation.removeAll] at h
    cases hremove : fs.removeFile (dir.join ⟨y⟩) with
    | error e =>
      rw [hremove] at h
      obtain ⟨rfl, rfl⟩ := Prod.mk.inj h
      exact ⟨[], List.nil_prefix, fun heq => (by cases heq), rfl, by simp⟩
    | ok fs₁ =>
      rw [hremove] at h
      obtain ⟨hslash, hname⟩ := hnames y List.mem_cons_self
      obtain ⟨front, hsplits, -⟩ := Path.splits_join hdir hslash hname
      obtain ⟨d', e, hleads, -, hentry, hfile, rfl⟩ := removeFile_of_splits hsplits hremove
      -- The path of the name leads into the directory that was listed.
      obtain ⟨rfl, -⟩ := (hleads.mono hcovers).of_join hfind hdir hslash hname
      obtain ⟨ys, hinit, hall, rfl, hfiles⟩ := ih (hcovers.trans (covers_take fs d' y))
        (fun z hz => hnames z (List.mem_cons_of_mem _ hz)) h
      have hplain := isDirectoryAt_eq_false hentry hfile
      refine ⟨y :: ys, List.cons_prefix_cons.mpr ⟨rfl, hinit⟩, fun hok => by rw [hall hok], rfl, ?_⟩
      intro z hz
      rcases List.mem_cons.mp hz with rfl | hz
      · exact hplain
      · by_cases hzy : z = y
        · rw [hzy]
          exact hplain
        · have hsame := hfiles z hz
          rw [isDirectoryAt, entryAt?_take (child_ne_nil d' y), if_neg fun heq => hzy (child_inj.mp heq)]
            at hsame
          exact hsame

/-- Retention removes the archives beyond the number to keep. -/
theorem retain_eq {p : TimedRotation} {f : LogFile} {names ys : List String} (hpos : p.backups ≠ 0)
    (hlist : fs.list (archiveDirectory f.path) = .ok names)
    (hys : archivesAmong p.schedule.unit (f.path.fileName?.getD "") names = ys) :
    p.retain f fs = TimedRotation.removeAll
      ((allButLast p.backups ys).map fun y => (archiveDirectory f.path).join ⟨y⟩) fs := by
  rw [TimedRotation.retain, if_neg hpos, surplusArchives_eq, hlist]
  dsimp only
  rw [hys]

/-- **Retention** removes a first part of the surplus archives of the directory, or
    nothing at all. -/
theorem retain_cases {p : TimedRotation} {f : LogFile} (h : p.retain f fs = (r, fs')) :
    (p.backups = 0 ∧ r = .ok () ∧ fs' = fs) ∨ (∃ e, r = .error e ∧ fs' = fs) ∨
      p.backups ≠ 0 ∧ ∃ d i, fs.find true (archiveDirectory f.path) = .ok (d, .directory i) ∧
        ∃ ys, ys <+: allButLast p.backups (archivesAmong p.schedule.unit
            (f.path.fileName?.getD "") (fs.childNames d)) ∧
          (r = .ok () → ys = allButLast p.backups (archivesAmong p.schedule.unit
            (f.path.fileName?.getD "") (fs.childNames d))) ∧
          fs' = fs.takeAll d ys ∧ ∀ y ∈ ys, fs.isDirectoryAt (d ++ [y]) = false := by
  unfold TimedRotation.retain at h
  split at h
  · next hzero =>
    obtain ⟨rfl, rfl⟩ := Prod.mk.inj h
    exact .inl ⟨hzero, rfl, rfl⟩
  · next hpos =>
    rw [surplusArchives_eq, FileSystem.list] at h
    cases hfind : fs.find true (archiveDirectory f.path) with
    | error e =>
      simp only [hfind] at h
      obtain ⟨rfl, rfl⟩ := Prod.mk.inj h
      exact .inr (.inl ⟨_, rfl, rfl⟩)
    | ok found =>
      obtain ⟨d, entry⟩ := found
      cases entry with
      | file id | link t =>
        simp only [hfind] at h
        obtain ⟨rfl, rfl⟩ := Prod.mk.inj h
        exact .inr (.inl ⟨_, rfl, rfl⟩)
      | directory i =>
        simp only [hfind] at h
        -- The archives are children of the directory, so each of them leads to itself.
        obtain ⟨ys, hys⟩ := removeAll_spec hfind (archiveDirectory_ne_nil f.path) (.refl fs)
          (fun y hy => isArchiveName_single (base_single f.path)
            (mem_archivesAmong.mp (List.mem_of_mem_take hy)).2) h
        exact .inr (.inr ⟨hpos, d, i, rfl, ys, hys⟩)

end Rotation

end Logbook
