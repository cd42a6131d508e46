import Logbook.Proofs.Files.Live
import Logbook.Proofs.Rotation.Retention

/-! # The archives of a directory

    The archives of a live file are a list, from the oldest to the newest, of names and of
    what their files hold.  A line leaves the list as it is, a live file that is put aside
    under a greater name is its new last member, and retention leaves its last part.
-/

namespace Logbook

open FileSystem

namespace Rotation

/-! ## The newest members of a list -/

/-- The last so many members of a list, or all of them if that number is zero. -/
def newest {α : Type} (keep : Nat) (xs : List α) : List α :=
  if keep = 0 then xs else xs.drop (xs.length - keep)

section Newest

variable {α β : Type} (keep : Nat) (xs ys : List α)

@[simp] theorem newest_zero : newest 0 xs = xs := rfl

theorem newest_of_ne_zero (h : keep ≠ 0) : newest keep xs = xs.drop (xs.length - keep) := if_neg h

theorem newest_map (f : α → β) : newest keep (xs.map f) = (newest keep xs).map f := by
  unfold newest
  split
  · rfl
  · rw [List.length_map, List.map_drop]

theorem mem_of_mem_newest {a : α} (h : a ∈ newest keep xs) : a ∈ xs := by
  unfold newest at h
  split at h
  · exact h
  · exact List.mem_of_mem_drop h

/-- What is not among the newest comes before them. -/
theorem exists_newest : ∃ older, xs = older ++ newest keep xs := by
  unfold newest
  split
  · exact ⟨[], rfl⟩
  · exact ⟨xs.take (xs.length - keep), (List.take_append_drop _ _).symm⟩

theorem length_newest :
    (newest keep xs).length = if keep = 0 then xs.length else min keep xs.length := by
  unfold newest
  split
  · rfl
  · rw [List.length_drop]
    omega

/-- What is not among the newest does not matter when more come. -/
theorem newest_append : newest keep (newest keep xs ++ ys) = newest keep (xs ++ ys) := by
  by_cases hkeep : keep = 0
  · subst hkeep
    rfl
  · rw [newest_of_ne_zero keep xs hkeep, newest_of_ne_zero _ _ hkeep, newest_of_ne_zero _ _ hkeep]
    have hdrop : xs.drop (xs.length - keep) ++ ys = (xs ++ ys).drop (xs.length - keep) := by
      rw [List.drop_append_of_le_length (Nat.sub_le _ _)]
    rw [hdrop, List.drop_drop]
    congr 1
    simp only [List.length_drop, List.length_append]
    omega

end Newest

/-! ## What is in the directory -/

/-- An archive: its name, and what its file holds. -/
structure Archive where
  name : String
  bytes : List UInt8
  deriving Repr, DecidableEq

/-- **Stock**: a directory holds these archives of a live file, in the order of their names,
    and nothing else but perhaps the live file. -/
structure Stock (unit : Period) (d : Location) (x : String) (archives : List Archive)
    (fs : FileSystem) : Prop where
  nodup : (fs.childNames d).Nodup
  names : archivesAmong unit x (fs.childNames d) = archives.map Archive.name
  others : ∀ y ∈ fs.childNames d, y = x ∨ isArchiveName unit x y = true
  held : ∀ a ∈ archives, (∃ id, fs.entryAt? (d ++ [a.name]) = some (.file id)) ∧
    fs.bytesAt (d ++ [a.name]) = a.bytes

namespace Stock

variable {unit : Period} {d : Location} {x z : String} {archives : List Archive}
  {fs fs' : FileSystem} {bytes : List UInt8} {id : FileId}

/-- The names of the archives are in order. -/
theorem sorted (h : Stock unit d x archives fs) : (archives.map Archive.name).Pairwise (· < ·) :=
  h.names ▸ archivesAmong_sorted h.nodup

theorem mem_names (h : Stock unit d x archives fs) {y : String} : y ∈ archives.map Archive.name ↔
    y ∈ fs.childNames d ∧ isArchiveName unit x y = true := by
  rw [← h.names, mem_archivesAmong]

/-- An archive has another name than the live file. -/
theorem name_ne (h : Stock unit d x archives fs) {a : Archive} (ha : a ∈ archives) : a.name ≠ x :=
  ne_of_isArchiveName (h.mem_names.mp (List.mem_map_of_mem ha)).2

/-- A directory with nothing but the live file has no archives. -/
theorem empty (hnodup : (fs.childNames d).Nodup) (honly : ∀ y ∈ fs.childNames d, y = x) :
    Stock unit d x [] fs := by
  refine ⟨hnodup, archivesAmong_eq hnodup .nil fun y => ?_, fun y hy => .inl (honly y hy), by simp⟩
  constructor
  · intro hy
    cases hy
  · rintro ⟨hy, hname⟩
    rw [honly y hy, isArchiveName_self] at hname
    cases hname

/-- Trees with the same archives in them have the same stock. -/
theorem of_same (h : Stock unit d x archives fs) (hnodup : (fs'.childNames d).Nodup)
    (hentry : ∀ y, y ≠ x → fs'.entryAt? (d ++ [y]) = fs.entryAt? (d ++ [y]))
    (hbytes : ∀ y, y ≠ x → fs'.bytesAt (d ++ [y]) = fs.bytesAt (d ++ [y])) :
    Stock unit d x archives fs' := by
  have hmem : ∀ y, y ≠ x → (y ∈ fs'.childNames d ↔ y ∈ fs.childNames d) := by
    intro y hy
    rw [mem_childNames_iff, mem_childNames_iff, hentry y hy]
  refine ⟨hnodup, archivesAmong_eq hnodup h.sorted fun y => ?_, fun y hy => ?_, fun a ha => ?_⟩
  · rw [h.mem_names]
    exact and_congr_left fun hname => (hmem y (ne_of_isArchiveName hname)).symm
  · by_cases hyx : y = x
    · exact .inl hyx
    · exact h.others y ((hmem y hyx).mp hy)
  · have hne := h.name_ne ha
    rw [hentry _ hne, hbytes _ hne]
    exact h.held a ha

/-- **A line** leaves the archives as they are. -/
theorem grows (h : Stock unit d x archives fs) (hgrows : Grows (d ++ [x]) bytes fs fs') :
    Stock unit d x archives fs' := by
  have hne : ∀ {y : String}, y ≠ x → d ++ [y] ≠ d ++ [x] := fun hy heq => hy (child_inj.mp heq)
  exact h.of_same (hgrows.nodup d h.nodup) (fun y hy => hgrows.entry _ (hne hy))
    fun y hy => hgrows.other _ (hne hy)

/-- **The live file put aside** under a greater name is the newest archive. -/
theorem move (h : Stock unit d x archives fs) (hlive : fs.entryAt? (d ++ [x]) = some (.file id))
    (hname : isArchiveName unit x z = true) (hgreater : ∀ a ∈ archives, a.name < z) :
    Stock unit d x (archives ++ [⟨z, fs.contentOf id⟩]) (fs.move (d ++ [x]) (d ++ [z])) := by
  have hxz : x ≠ z := (ne_of_isArchiveName hname).symm
  have hnodup := nodup_childNames_move h.nodup x z
  have hentry := entryAt?_move_child (d := d) fs hxz
  have hsorted : ((archives ++ [(⟨z, fs.contentOf id⟩ : Archive)]).map Archive.name).Pairwise (· < ·) := by
    rw [List.map_append, List.pairwise_append]
    refine ⟨h.sorted, by simp, fun a ha b hb => ?_⟩
    obtain ⟨c, hc, rfl⟩ := List.mem_map.mp ha
    obtain rfl : b = z := by simpa using hb
    exact hgreater c hc
  refine ⟨hnodup, archivesAmong_eq hnodup hsorted fun y => ?_, fun y hy => ?_, fun a ha => ?_⟩
  · rw [List.map_append, List.mem_append, h.mem_names, mem_childNames_iff, mem_childNames_iff, hentry]
    by_cases hyz : y = z
    · subst hyz
      simp [hlive, hname]
    · by_cases hyx : y = x
      · subst hyx
        simp [isArchiveName_self, hxz]
      · simp [hyz, hyx]
  · rcases (of_mem_childNames_move hxz hy).2 with rfl | hold
    · exact .inr hname
    · exact h.others y hold
  · rcases List.mem_append.mp ha with ha | hlast
    · have hne : a.name ≠ z := ne_of_lt (hgreater a ha)
      have hsame : (fs.move (d ++ [x]) (d ++ [z])).entryAt? (d ++ [a.name]) =
          fs.entryAt? (d ++ [a.name]) := by
        rw [hentry, if_neg hne, if_neg (h.name_ne ha)]
      obtain ⟨hfile, hbytes⟩ := h.held a ha
      rw [hsame, bytesAt_congr hsame fun _ _ => rfl]
      exact ⟨hfile, hbytes⟩
    · obtain rfl : a = ⟨z, fs.contentOf id⟩ := by simpa using hlast
      have hthere : (fs.move (d ++ [x]) (d ++ [z])).entryAt? (d ++ [z]) = some (.file id) := by
        rw [hentry, if_pos rfl, hlive]
      exact ⟨⟨id, hthere⟩, bytesAt_of_file hthere⟩

/-- **Retention** leaves the newest archives. -/
theorem takeAll (h : Stock unit d x archives fs) {keep : Nat} (hkeep : keep ≠ 0) :
    Stock unit d x (newest keep archives)
      (fs.takeAll d (allButLast keep (archives.map Archive.name))) := by
  have hsplit : allButLast keep (archives.map Archive.name) ++
      (newest keep archives).map Archive.name = archives.map Archive.name := by
    rw [← newest_map, newest_of_ne_zero _ _ hkeep, allButLast, List.take_append_drop]
  have hsorted := h.sorted
  rw [← hsplit, List.pairwise_append] at hsorted
  obtain ⟨-, hnewest, hless⟩ := hsorted
  -- No name that is kept is among those that are taken away.
  have hkept : ∀ y ∈ (newest keep archives).map Archive.name,
      y ∉ allButLast keep (archives.map Archive.name) :=
    fun y hy hgone => lt_irrefl y (hless y hgone y hy)
  have hentry : ∀ y, (fs.takeAll d (allButLast keep (archives.map Archive.name))).entryAt? (d ++ [y]) =
      if y ∈ allButLast keep (archives.map Archive.name) then none else fs.entryAt? (d ++ [y]) :=
    entryAt?_takeAll_child fs d _
  have hnodup : ((fs.takeAll d (allButLast keep (archives.map Archive.name))).childNames d).Nodup :=
    nodup_childNames_takeAll h.nodup _
  refine ⟨hnodup, archivesAmong_eq hnodup hnewest fun y => ?_, fun y hy => ?_, fun a ha => ?_⟩
  · rw [mem_childNames_iff, hentry]
    constructor
    · intro hy
      have hall : y ∈ archives.map Archive.name := hsplit ▸ List.mem_append_right _ hy
      rw [if_neg (hkept y hy), ← mem_childNames_iff]
      exact h.mem_names.mp hall
    · rintro ⟨hthere, hname⟩
      split at hthere
      · obtain ⟨e, he⟩ := hthere
        cases he
      · next hnot =>
        have hall := h.mem_names.mpr ⟨mem_childNames_iff.mpr hthere, hname⟩
        rw [← hsplit] at hall
        exact (List.mem_append.mp hall).resolve_left hnot
  · rw [mem_childNames_iff, hentry] at hy
    split at hy
    · obtain ⟨e, he⟩ := hy
      cases he
    · exact h.others y (mem_childNames_iff.mpr hy)
  · have hsame := hentry a.name
    rw [if_neg (hkept a.name (List.mem_map_of_mem ha))] at hsame
    rw [hsame, bytesAt_congr hsame fun id _ => by rw [contentOf, contentOf, data_takeAll]]
    exact h.held a (mem_of_mem_newest keep archives ha)

end Stock

end Rotation

end Logbook
