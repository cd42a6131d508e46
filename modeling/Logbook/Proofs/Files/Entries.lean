import Logbook.Files.Tree
import Mathlib.Data.List.Nodup
import Mathlib.Data.List.Pairwise

/-! # Entries of a tree

    What a location holds after an entry has been put, taken or moved, and what a
    file holds after it has been written.  Files are told apart by their identities:
    in a sound tree no two names stand for one file, and a new file is none of those
    that are there.
-/

namespace Logbook.FileSystem

variable {fs : FileSystem} {l m source target : Location} {e : Entry} {id : FileId}

/-! ## Look-ups -/

/-- A location other than the root holds what its entry says. -/
theorem entryAt?_eq_lookup (h : l ≠ []) : fs.entryAt? l = fs.entries.lookup l := by
  cases l with
  | nil => exact absurd rfl h
  | cons _ _ => rfl

/-- Trees with the same entries hold the same. -/
theorem entryAt?_congr {fs' : FileSystem} (h : fs'.entries = fs.entries) (l : Location) :
    fs'.entryAt? l = fs.entryAt? l := by
  cases l with
  | nil => rfl
  | cons _ _ => simp only [entryAt?, h]

/-- A look-up among the entries at some of the locations. -/
theorem lookup_filter (keep : Location → Bool) (entries : List (Location × Entry)) (l : Location) :
    (entries.filter fun p => keep p.1).lookup l = if keep l then entries.lookup l else none := by
  induction entries with
  | nil => simp
  | cons p entries ih =>
    obtain ⟨k, a⟩ := p
    rw [List.filter_cons]
    by_cases hk : l = k
    · subst hk
      cases hkeep : keep l with
      | true => simp
      | false => simp [ih, hkeep]
    · have hne : (l == k) = false := by simpa using hk
      split <;> simp only [List.lookup_cons, hne, ih]

/-- What a location holds after an entry has been put somewhere. -/
theorem entryAt?_put (hl : l ≠ []) (e : Entry) (m : Location) :
    (fs.put l e).entryAt? m = if m = l then some e else fs.entryAt? m := by
  by_cases hm : m = []
  · subst hm
    rw [if_neg (Ne.symm hl)]
    rfl
  · rw [entryAt?_eq_lookup hm, entryAt?_eq_lookup hm, put, List.lookup_cons,
      lookup_filter fun k => decide (k ≠ l)]
    by_cases hml : m = l
    · simp [hml]
    · have hne : (m == l) = false := by simpa using hml
      simp [hne, hml]

/-- What a location holds after an entry has been taken away somewhere. -/
theorem entryAt?_take (hl : l ≠ []) (m : Location) :
    (fs.take l).entryAt? m = if m = l then none else fs.entryAt? m := by
  by_cases hm : m = []
  · subst hm
    rw [if_neg (Ne.symm hl)]
    rfl
  · rw [entryAt?_eq_lookup hm, entryAt?_eq_lookup hm, take, lookup_filter fun k => decide (k ≠ l)]
    by_cases hml : m = l <;> simp [hml]

/-! ## Moves -/

/-- Only the source moves to the target itself. -/
theorem relocated_eq_target_iff {k : Location} (hk : k ≠ target) :
    relocated source target k = target ↔ k = source := by
  unfold relocated
  split
  · next hunder =>
    obtain ⟨r, rfl⟩ := List.isPrefixOf_iff_prefix.mp hunder
    simp
  · next hunder =>
    refine iff_of_false hk ?_
    rintro rfl
    exact hunder (List.isPrefixOf_iff_prefix.mpr (List.prefix_refl _))

/-- What is neither at or below the source nor at or below the target is where it
    was, and nothing else comes there. -/
theorem relocated_eq_iff {k : Location} (hs : ¬ source <+: m) (ht : ¬ target <+: m) :
    relocated source target k = m ↔ k = m := by
  unfold relocated
  split
  · next hunder =>
    obtain ⟨r, rfl⟩ := List.isPrefixOf_iff_prefix.mp hunder
    refine iff_of_false ?_ ?_
    · rintro rfl
      exact ht (List.prefix_append _ _)
    · rintro rfl
      exact hs (List.prefix_append _ _)
  · exact Iff.rfl

/-- Nothing moves to the source, unless that lies below the target. -/
theorem relocated_ne_source {k : Location} (h : ¬ target <+: source) :
    relocated source target k ≠ source := by
  unfold relocated
  split
  · rintro heq
    exact h ⟨_, heq⟩
  · next hunder =>
    rintro rfl
    exact hunder (List.isPrefixOf_iff_prefix.mpr (List.prefix_refl _))

/-- A look-up of a place that one entry at most can have moved to. -/
theorem lookup_map_relocated (entries : List (Location × Entry)) (k : Location)
    (h : ∀ p ∈ entries, relocated source target p.1 = m ↔ p.1 = k) :
    (entries.map fun p => (relocated source target p.1, p.2)).lookup m = entries.lookup k := by
  induction entries with
  | nil => rfl
  | cons p entries ih =>
    obtain ⟨j, a⟩ := p
    have hrest := ih fun p hp => h p (List.mem_cons_of_mem _ hp)
    have hfirst := h (j, a) List.mem_cons_self
    rw [List.map_cons, List.lookup_cons, List.lookup_cons, hrest]
    by_cases hj : j = k
    · subst hj
      simp [hfirst.mpr rfl]
    · have hne : relocated source target j ≠ m := fun heq => hj (hfirst.mp heq)
      have h₁ : (m == relocated source target j) = false := by simpa using Ne.symm hne
      have h₂ : (k == j) = false := by simpa using Ne.symm hj
      rw [h₁, h₂]

/-- The target holds what the source held. -/
theorem entryAt?_move_target (hs : source ≠ []) (ht : target ≠ []) (hne : source ≠ target) :
    (fs.move source target).entryAt? target = fs.entryAt? source := by
  rw [entryAt?_eq_lookup hs, entryAt?_eq_lookup ht, move,
    lookup_map_relocated _ source fun p hp => ?_, lookup_filter fun k => decide (k ≠ target)]
  · simp [hne]
  exact relocated_eq_target_iff (by simpa using (List.mem_filter.mp hp).2)

/-- The source holds nothing. -/
theorem entryAt?_move_source (hs : source ≠ []) (h : ¬ target <+: source) :
    (fs.move source target).entryAt? source = none := by
  rw [entryAt?_eq_lookup hs, move, List.lookup_eq_none_iff]
  intro p hp
  obtain ⟨q, -, rfl⟩ := List.mem_map.mp hp
  simpa using Ne.symm (relocated_ne_source h)

/-- Everything else is as it was. -/
theorem entryAt?_move_elsewhere (hs : ¬ source <+: m) (ht : ¬ target <+: m) :
    (fs.move source target).entryAt? m = fs.entryAt? m := by
  by_cases hm : m = []
  · subst hm
    rfl
  · have hmt : m ≠ target := by
      rintro rfl
      exact ht (List.prefix_refl _)
    rw [entryAt?_eq_lookup hm, entryAt?_eq_lookup hm, move,
      lookup_map_relocated _ m fun _ _ => relocated_eq_iff hs ht,
      lookup_filter fun k => decide (k ≠ target)]
    simp [hmt]

/-! ## Names of one's own -/

/-- At or below one of the names `own` of a directory. -/
def owned (d : Location) (own : String → Bool) (l : Location) : Bool :=
  d.isPrefixOf l && (l.drop d.length).head?.any own

/-- A tree without what is at or below the names `own` of a directory. -/
def without (fs : FileSystem) (d : Location) (own : String → Bool) : FileSystem :=
  { fs with entries := fs.entries.filter fun p => !owned d own p.1 }

/-- **Same outside**: two trees hold the same everywhere but at and below the names
    `own` of a directory. -/
def SameOutside (d : Location) (own : String → Bool) (fs fs' : FileSystem) : Prop :=
  ∀ l, owned d own l = false → fs'.entryAt? l = fs.entryAt? l

section Own

variable {d : Location} {own : String → Bool} {x y z : String} {fs' fs'' : FileSystem}

theorem owned_iff : owned d own l = true ↔ ∃ y r, own y = true ∧ l = d ++ y :: r := by
  unfold owned
  constructor
  · intro h
    obtain ⟨hinit, hhead⟩ := Bool.and_eq_true_iff.mp h
    obtain ⟨r, rfl⟩ := List.isPrefixOf_iff_prefix.mp hinit
    cases r with
    | nil => simp at hhead
    | cons y r => exact ⟨y, r, by simpa using hhead, rfl⟩
  · rintro ⟨y, r, hy, rfl⟩
    simp [hy]

/-- A name of a directory is its own if it is one of those names. -/
@[simp] theorem owned_child (d : Location) (own : String → Bool) (y : String) :
    owned d own (d ++ [y]) = own y := by
  have hinit : d.isPrefixOf (d ++ [y]) = true :=
    List.isPrefixOf_iff_prefix.mpr (List.prefix_append _ _)
  simp [owned, hinit]

/-- What is not owned is not at or below an own name. -/
theorem not_prefix_of_not_owned (hl : owned d own l = false) (hy : own y = true) :
    ¬ d ++ [y] <+: l := by
  rintro ⟨r, rfl⟩
  have howned : owned d own (d ++ [y] ++ r) = true := owned_iff.mpr ⟨y, r, hy, by simp⟩
  rw [howned] at hl
  cases hl

/-- The names of a directory are told apart. -/
theorem child_inj : d ++ [y] = d ++ [z] ↔ y = z := by simp

theorem child_ne_nil (d : Location) (y : String) : d ++ [y] ≠ [] := by simp

/-- No name of a directory is below another. -/
theorem child_not_below (h : y ≠ z) : ¬ d ++ [y] <+: d ++ [z] := by
  intro hinit
  have heq := hinit.eq_of_length (by simp)
  exact h (child_inj.mp heq)

theorem entryAt?_without (fs : FileSystem) (d : Location) (own : String → Bool) (l : Location) :
    (fs.without d own).entryAt? l = if owned d own l then none else fs.entryAt? l := by
  by_cases hl : l = []
  · subst hl
    have hroot : owned d own [] = false := by
      rw [Bool.eq_false_iff]
      intro howned
      obtain ⟨y, r, -, hnil⟩ := owned_iff.mp howned
      simp at hnil
    rw [hroot]
    rfl
  · rw [entryAt?_eq_lookup hl, entryAt?_eq_lookup hl, without,
      lookup_filter fun k => !owned d own k]
    cases owned d own l <;> rfl

namespace SameOutside

theorem refl (d : Location) (own : String → Bool) (fs : FileSystem) : SameOutside d own fs fs :=
  fun _ _ => rfl

theorem trans (h : SameOutside d own fs fs') (h' : SameOutside d own fs' fs'') :
    SameOutside d own fs fs'' :=
  fun l hl => (h' l hl).trans (h l hl)

theorem of_entries (h : fs'.entries = fs.entries) : SameOutside d own fs fs' :=
  fun l _ => entryAt?_congr h l

/-- The entry of an own name may be taken away. -/
theorem take (fs : FileSystem) (hy : own y = true) :
    SameOutside d own fs (fs.take (d ++ [y])) := by
  intro l hl
  rw [entryAt?_take (child_ne_nil d y), if_neg]
  rintro rfl
  exact not_prefix_of_not_owned hl hy (List.prefix_refl _)

/-- An entry may be moved from one own name to another. -/
theorem move (fs : FileSystem) (hy : own y = true) (hz : own z = true) :
    SameOutside d own fs (fs.move (d ++ [y]) (d ++ [z])) := by
  intro l hl
  exact entryAt?_move_elsewhere (not_prefix_of_not_owned hl hy) (not_prefix_of_not_owned hl hz)

end SameOutside

/-- The names of a directory after one has been moved to another. -/
theorem entryAt?_move_child (fs : FileSystem) (hyz : y ≠ z) (w : String) :
    (fs.move (d ++ [y]) (d ++ [z])).entryAt? (d ++ [w]) =
      if w = z then fs.entryAt? (d ++ [y]) else if w = y then none else fs.entryAt? (d ++ [w]) := by
  by_cases hwz : w = z
  · subst hwz
    rw [if_pos rfl]
    exact entryAt?_move_target (child_ne_nil d y) (child_ne_nil d w) (by simpa using hyz)
  · rw [if_neg hwz]
    by_cases hwy : w = y
    · subst hwy
      rw [if_pos rfl]
      exact entryAt?_move_source (child_ne_nil d w) (child_not_below (Ne.symm hwz))
    · rw [if_neg hwy]
      exact entryAt?_move_elsewhere (child_not_below (Ne.symm hwy))
        (child_not_below (Ne.symm hwz))

end Own

/-! ## Contents -/

@[simp] theorem entries_setContent (fs : FileSystem) (id : FileId) (bytes : List UInt8) :
    (fs.setContent id bytes).entries = fs.entries := rfl

@[simp] theorem size_setContent (fs : FileSystem) (id : FileId) (bytes : List UInt8) :
    (fs.setContent id bytes).data.size = fs.data.size := by
  simp [setContent]

@[simp] theorem entries_append (fs : FileSystem) (id : FileId) (bytes : List UInt8) :
    (fs.append id bytes).entries = fs.entries := by
  unfold append
  split <;> rfl

@[simp] theorem size_append (fs : FileSystem) (id : FileId) (bytes : List UInt8) :
    (fs.append id bytes).data.size = fs.data.size := by
  unfold append
  split
  · rfl
  · exact size_setContent fs id _

/-- What a file holds after another, or it itself, has been written behind its end. -/
theorem contentOf_append (hid : id < fs.data.size) (bytes : List UInt8) (other : FileId) :
    (fs.append id bytes).contentOf other =
      if other = id then fs.contentOf id ++ bytes else fs.contentOf other := by
  unfold append
  split
  · next hbytes =>
    subst hbytes
    split
    · next heq => rw [heq, List.append_nil]
    · rfl
  · by_cases heq : other = id
    · subst heq
      simp [setContent, contentOf, Array.getD_eq_getD_getElem?, Array.getElem_modify, hid]
    · simp [setContent, contentOf, Array.getD_eq_getD_getElem?, Array.getElem?_modify, heq,
        Ne.symm heq]

/-- A new file has an identity that is not in use, and holds nothing. -/
theorem contentOf_allot (fs : FileSystem) (d : FileData) (other : FileId) :
    (fs.allot d).1.contentOf other =
      if other = fs.data.size then d.content else fs.contentOf other := by
  by_cases heq : other = fs.data.size
  · subst heq
    simp [allot, contentOf, Array.getD_eq_getD_getElem?]
  · simp [allot, contentOf, Array.getD_eq_getD_getElem?, Array.getElem?_push, heq]

/-! ## Sound trees -/

/-- The identity of a file. -/
def fileId? : Entry → Option FileId
  | .file id => some id
  | _ => none

/-- The identities of the files in a tree. -/
def fileIds (fs : FileSystem) : List FileId := fs.entries.filterMap fun p => fileId? p.2

/-- **Sound**: every name stands for a file of its own, whose data there are. -/
structure Sound (fs : FileSystem) : Prop where
  distinct : fs.fileIds.Nodup
  known : ∀ id ∈ fs.fileIds, id < fs.data.size

/-- The file at a location is one of the tree. -/
theorem mem_fileIds (h : fs.entryAt? l = some (.file id)) : id ∈ fs.fileIds := by
  have hl : l ≠ [] := by
    rintro rfl
    cases h
  rw [entryAt?_eq_lookup hl] at h
  obtain ⟨xs, ys, heq, -⟩ := List.lookup_eq_some_iff.mp h
  simp [fileIds, heq, fileId?]

/-- Two locations that hold one file are one location. -/
theorem Sound.location_unique (h : fs.Sound) (hl : fs.entryAt? l = some (.file id))
    (hm : fs.entryAt? m = some (.file id)) : l = m := by
  have hne : ∀ {k : Location}, fs.entryAt? k = some (.file id) → (k, Entry.file id) ∈ fs.entries := by
    intro k hk
    have hroot : k ≠ [] := by
      rintro rfl
      cases hk
    rw [entryAt?_eq_lookup hroot] at hk
    obtain ⟨xs, ys, heq, -⟩ := List.lookup_eq_some_iff.mp hk
    simp [heq]
  have hpair := h.distinct
  rw [List.Nodup, fileIds, List.pairwise_filterMap] at hpair
  have : Std.Symm fun a b : Location × Entry =>
      ∀ i, fileId? a.2 = some i → ∀ j, fileId? b.2 = some j → i ≠ j :=
    ⟨fun _ _ hab i hi j hj => (hab j hj i hi).symm⟩
  by_contra hlm
  exact hpair.forall (hne hl) (hne hm) (by simpa using hlm) id rfl id rfl rfl

/-- The file at a location has data. -/
theorem Sound.lt_size (h : fs.Sound) (hl : fs.entryAt? l = some (.file id)) : id < fs.data.size :=
  h.known id (mem_fileIds hl)

/-- Fewer files, or the same at other places, with data as before, are sound. -/
theorem Sound.of_sublist {fs' : FileSystem} (h : fs.Sound) (hids : fs'.fileIds.Sublist fs.fileIds)
    (hsize : fs.data.size ≤ fs'.data.size) : fs'.Sound :=
  ⟨h.distinct.sublist hids, fun id hid => Nat.lt_of_lt_of_le (h.known id (hids.subset hid)) hsize⟩

theorem Sound.take (h : fs.Sound) (l : Location) : (fs.take l).Sound :=
  h.of_sublist (List.filter_sublist.filterMap _) (Nat.le_refl _)

theorem Sound.move (h : fs.Sound) (source target : Location) : (fs.move source target).Sound := by
  refine h.of_sublist ?_ (Nat.le_refl _)
  have hids : (fs.move source target).fileIds =
      (fs.entries.filter fun p => p.1 ≠ target).filterMap fun p => fileId? p.2 := by
    simp [fileIds, FileSystem.move, List.filterMap_map]
  rw [hids]
  exact List.filter_sublist.filterMap _

theorem Sound.congr {fs' : FileSystem} (h : fs.Sound) (hentries : fs'.entries = fs.entries)
    (hsize : fs'.data.size = fs.data.size) : fs'.Sound := by
  refine h.of_sublist ?_ (Nat.le_of_eq hsize.symm)
  rw [fileIds, hentries]
  exact List.Sublist.refl _

/-- What is made anew makes no tree unsound. -/
theorem Sound.put_allot (h : fs.Sound) (d : FileData) (l : Location) {e : Entry}
    (he : e = .file fs.data.size ∨ fileId? e = none) : ((fs.allot d).1.put l e).Sound := by
  have hold : ((fs.entries.filter fun p => p.1 ≠ l).filterMap fun p => fileId? p.2).Sublist
      fs.fileIds := List.filter_sublist.filterMap _
  have hsize : ((fs.allot d).1.put l e).data.size = fs.data.size + 1 := by simp [put, allot]
  rcases he with rfl | hnone
  · have hids : ((fs.allot d).1.put l (.file fs.data.size)).fileIds = fs.data.size ::
        (fs.entries.filter fun p => p.1 ≠ l).filterMap fun p => fileId? p.2 := by
      simp [fileIds, put, allot, fileId?]
    -- The new identity is beyond all those that are in use.
    have hfresh : fs.data.size ∉ (fs.entries.filter fun p => p.1 ≠ l).filterMap
        fun p => fileId? p.2 := fun hmem => Nat.lt_irrefl _ (h.known _ (hold.subset hmem))
    refine ⟨hids ▸ List.nodup_cons.mpr ⟨hfresh, h.distinct.sublist hold⟩, fun id hid => ?_⟩
    rw [hids] at hid
    rw [hsize]
    rcases List.mem_cons.mp hid with rfl | hid
    · exact Nat.lt_succ_self _
    · exact Nat.lt_trans (h.known id (hold.subset hid)) (Nat.lt_succ_self _)
  · refine h.of_sublist ?_ (by omega)
    have hids : ((fs.allot d).1.put l e).fileIds =
        (fs.entries.filter fun p => p.1 ≠ l).filterMap fun p => fileId? p.2 := by
      simp [fileIds, put, allot, hnone]
    rw [hids]
    exact hold

end Logbook.FileSystem
