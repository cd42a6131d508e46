import Logbook.Proofs.Rotation.Unhindered
import Mathlib.Tactic.IntervalCases

/-! # Lines as long as the limit

    A sink that rolls over by size starts in an empty directory, and every line is at least
    as long as the limit.  Then each line is in a file of its own, the last one in the live
    file and those before it in the backups, as far as their numbers go.

    Behind the first line there is one more file.  A rollover does not ask whether the live
    file is empty, so before the first line the empty file that was made for it is put
    aside, and it is a backup like the others.
-/

namespace Logbook.Rotation

open FileSystem LogFile

variable {o : FileSinkOptions} {d : Location} {x : String} {p : SizeRotation} {h : Holdings}
  {gens : List (List UInt8)} {s : FileSink} {w : World}

/-- The bytes of a text with the end that a sink gives it. -/
def Feeding.bytes (o : FileSinkOptions) (e : Feeding) : List UInt8 := lineBytes e.text o.terminator

/-- The names of backups are those of plain archives. -/
theorem numberedName_eq (x : String) {i : Nat} (hi : 1 ≤ i) :
    numberedName x i = Filing.plain.name x (toString i) := by
  obtain ⟨j, rfl⟩ := Nat.exists_eq_add_of_le' hi
  simp [numberedName, Filing.name, Filing.extension]

/-- A backup with a number has a name that is short enough. -/
def FitsNumber (path : Path) (x : String) (i : Nat) : Prop :=
  checkLength (numbered path i) = .ok () ∧ isTooLong (numberedName x i) = false

theorem FitsNumber.fits {path : Path} {i : Nat} (hfits : FitsNumber path x i) (hi : 1 ≤ i) :
    Fits path x (toString i) := by
  obtain ⟨j, rfl⟩ := Nat.exists_eq_add_of_le' hi
  obtain ⟨hlen, hshort⟩ := hfits
  rw [numberedName_eq x hi] at hshort
  refine ⟨?_, hshort⟩
  simpa [Filing.path, Filing.extension, numbered] using hlen

/-- There is room for one more generation. -/
theorem Generations.room (hgens : Generations p.backups gens h) (hb : 1 ≤ p.backups)
    (hfits : ∀ i ≤ min p.backups gens.length, FitsNumber o.path x i) (hne : gens ≠ []) :
    Filed.Room o.path x p h := by
  have hlength : 1 ≤ gens.length := List.length_pos_iff.mpr hne
  refine ⟨(hfits 1 (by omega)).fits (Nat.le_refl 1), ?_⟩
  intro i hi hib hmem
  have hlt := (hgens.mem_archives_iff hi (by omega)).mp hmem
  exact (hfits (i + 1) (by omega)).fits (by omega)

/-- **One full line** is one more generation. -/
theorem Account.feed_full {e : Feeding} (haccount : Account .plain o d x (.size p, h) s w.files)
    (hgens : Generations p.backups gens h) (hne : gens ≠ []) (hmax : 1 ≤ p.maxBytes)
    (hb : 1 ≤ p.backups) (hfull : p.maxBytes ≤ (e.bytes o).length)
    (hfits : ∀ i ≤ min p.backups gens.length, FitsNumber o.path x i) :
    ∃ s' w' h', Rotation.feed (s, w) e = some (s', w') ∧ Account .plain o d x (.size p, h') s' w'.files ∧
      Generations p.backups (e.bytes o :: gens) h' := by
  have hshort : isTooLong x = false := (hfits 0 (Nat.zero_le _)).2
  obtain ⟨s', w', hfeed⟩ := haccount.feed_isSome hshort (hgens.room hb hfits hne) e
  have haccount' := haccount.feed hfeed
  obtain ⟨h', hemitted, hgens'⟩ := hgens.emitted hmax hb hfull o.delay (e.arrive {}).now
  rw [hemitted] at haccount'
  exact ⟨s', w', h', hfeed, haccount', hgens'⟩

/-- **Full lines**, one after the other. -/
theorem Account.run_full (haccount : Account .plain o d x (.size p, h) s w.files)
    (hgens : Generations p.backups gens h) (hne : gens ≠ []) (hmax : 1 ≤ p.maxBytes)
    (hb : 1 ≤ p.backups) (feedings : List Feeding)
    (hfull : ∀ e ∈ feedings, p.maxBytes ≤ (e.bytes o).length)
    (hfits : ∀ i ≤ min p.backups (gens.length - 1 + feedings.length), FitsNumber o.path x i) :
    ∃ s' w' h', feedings.foldlM Rotation.feed (s, w) = some (s', w') ∧
      Account .plain o d x (.size p, h') s' w'.files ∧
      Generations p.backups ((feedings.map (Feeding.bytes o)).reverse ++ gens) h' := by
  induction feedings generalizing gens h s w with
  | nil => exact ⟨s, w, h, rfl, haccount, hgens⟩
  | cons e feedings ih =>
    have hlength : 1 ≤ gens.length := List.length_pos_iff.mpr hne
    simp only [List.length_cons] at hfits
    -- A full line starts a new generation, so the names it needs are among those that fit.
    obtain ⟨s₁, w₁, h₁, hfeed, haccount₁, hgens₁⟩ := haccount.feed_full hgens hne hmax hb
      (hfull e List.mem_cons_self) fun i hi => hfits i (by omega)
    obtain ⟨s', w', h', hrun, haccount', hgens'⟩ := ih haccount₁ hgens₁ (List.cons_ne_nil _ _)
      (fun e' he' => hfull e' (List.mem_cons_of_mem _ he'))
      (fun i hi => hfits i (by simp only [List.length_cons] at hi; omega))
    refine ⟨s', w', h', ?_, haccount', by simpa using hgens'⟩
    rw [List.foldlM_cons, hfeed]
    exact hrun

/-- What a directory holds in which the generations are filed. -/
theorem Generations.filed {b : Nat} {fs : FileSystem} {path : Path}
    (hgens : Generations b gens h) (hlength : 1 < gens.length)
    (hfiled : Filed .plain path d x h fs) :
    (∀ y, y ∈ fs.childNames d ↔ ∃ i ≤ min b (gens.length - 1), y = numberedName x i) ∧
      ∀ i ≤ b, fs.fileAt? (d ++ [numberedName x i]) = gens[i]? := by
  have hcontent : ∀ i ≤ b, fs.fileAt? (d ++ [numberedName x i]) = gens[i]? := by
    intro i hib
    -- The live file has number zero and no suffix.
    by_cases hi : i = 0
    · subst hi
      obtain ⟨bytes, hbytes⟩ := Option.ne_none_iff_exists'.mp (hgens.there hlength)
      have hopened := hgens.live
      rw [Holdings.opened, hbytes, Option.getD_some] at hopened
      rw [← hopened, ← hbytes]
      exact hfiled.live
    · rw [numberedName_eq x (by omega), hfiled.held, ← hgens.archive i (by omega) hib]
      exact Option.map_id' ..
  refine ⟨fun y => ⟨fun hy => ?_, ?_⟩, hcontent⟩
  · rcases hfiled.only y hy with rfl | ⟨k, hk, rfl⟩
    · exact ⟨0, Nat.zero_le _, rfl⟩
    · obtain ⟨i, hi, hib, rfl⟩ := hgens.only k hk
      have hlt := (hgens.mem_archives_iff hi hib).mp hk
      exact ⟨i, by omega, (numberedName_eq x hi).symm⟩
  · rintro ⟨i, hi, rfl⟩
    have hsome : fs.fileAt? (d ++ [numberedName x i]) = some gens[i] := by
      rw [hcontent i (by omega), List.getElem?_eq_getElem]
    obtain ⟨id, hid, -⟩ := fileAt?_eq_some_iff.mp hsome
    exact mem_childNames_iff.mpr ⟨_, hid⟩

/-- **Full lines are kept one in a file.**  A sink that rolls over by size is made in an
    empty directory, with backups and a limit, and takes some lines, each of them at least
    as long as the limit.  Nothing fails as long as the names are short enough.  Then there
    are the live file and the backups up to the number of lines, but not beyond the number of
    backups; the live file holds the last line, and each backup the line so many before
    it.  The backup that comes after all lines, if there is one, is empty: it is the file
    that the first line found. -/
theorem full_lines_kept {w₀ : World} {feedings : List Feeding}
    (hpolicy : o.policy? = some (.size p)) (hnamer : o.namer? = none) (hrotator : o.rotator? = none)
    (hvacant : Vacant o.path d x w₀.files) (hmax : 1 ≤ p.maxBytes) (hb : 1 ≤ p.backups)
    (hsome : feedings ≠ []) (hfull : ∀ e ∈ feedings, p.maxBytes ≤ (e.bytes o).length)
    (hfits : ∀ i ≤ min p.backups feedings.length, FitsNumber o.path x i) :
    ∃ s₀ w₁ s w, FileSink.build o w₀ = (.ok s₀, w₁) ∧ feedings.foldlM feed (s₀, w₁) = some (s, w) ∧
      (∀ y, y ∈ w.files.childNames d ↔
        ∃ i ≤ min p.backups feedings.length, y = numberedName x i) ∧
      (∀ i ≤ p.backups, i < feedings.length →
        w.files.fileAt? (d ++ [numberedName x i]) = (feedings.map (Feeding.bytes o)).reverse[i]?) ∧
      (feedings.length ≤ p.backups →
        w.files.fileAt? (d ++ [numberedName x feedings.length]) = some []) := by
  obtain ⟨s₀, w₁, hbuild, hsize⟩ := Account.build_isOk hvacant (hfits 0 (Nat.zero_le _)).2 hpolicy
  obtain ⟨haccount, -⟩ :=
    Account.build (g := .plain) hnamer hrotator hpolicy trivial hvacant hbuild
  rw [hsize] at haccount
  obtain ⟨s, w, h, hrun, haccount', hgens⟩ := haccount.run_full
    (.start p.backups o.delay) (List.cons_ne_nil _ _) hmax hb feedings hfull (by simpa using hfits)
  -- The empty file that the first line finds is the oldest generation.
  have hlength : 1 < ((feedings.map (Feeding.bytes o)).reverse ++ [[]]).length := by
    have hpos := List.length_pos_iff.mpr hsome
    simpa using hpos
  obtain ⟨hnames, hcontents⟩ := hgens.filed hlength haccount'.filed
  simp only [List.length_append, List.length_reverse, List.length_map, List.length_singleton,
    Nat.add_sub_cancel] at hnames
  refine ⟨s₀, w₁, s, w, hbuild, hrun, hnames, ?_, ?_⟩
  · intro i hib hi
    rw [hcontents i hib, List.getElem?_append_left (by simpa using hi)]
  · intro hle
    rw [hcontents _ hle, List.getElem?_append_right (by simp)]
    simp

/-- Two lines, and a limit of one byte: the second backup is empty. -/
theorem full_lines_kept_twice :
    let o : FileSinkOptions :=
      { path := ⟨"app.log"⟩, policy? := some (.size { maxBytes := 1, backups := 2 }) }
    let feedings : List Feeding := [⟨"first", 0, #[]⟩, ⟨"second", 0, #[]⟩]
    ∃ s₀ w₁ s w, FileSink.build o {} = (.ok s₀, w₁) ∧ feedings.foldlM feed (s₀, w₁) = some (s, w) ∧
      (∀ y, y ∈ w.files.childNames [] ↔ ∃ i ≤ 2, y = numberedName "app.log" i) ∧
      w.files.fileAt? ["app.log"] = some (lineBytes "second" "\n") ∧
      w.files.fileAt? ["app.log.1"] = some (lineBytes "first" "\n") ∧
      w.files.fileAt? ["app.log.2"] = some [] := by
  intro o feedings
  have hvacant : Vacant o.path [] "app.log" ({} : World).files :=
    ⟨⟨by decide, by decide⟩, ⟨by decide, by decide, by decide⟩, by decide +kernel, rfl⟩
  have hpolicy : o.policy? = some (.size { maxBytes := 1, backups := 2 }) := rfl
  have hfull : ∀ e ∈ feedings, 1 ≤ (e.bytes o).length := by
    decide +kernel
  obtain ⟨s₀, w₁, s, w, hbuild, hrun, hnames, hlines, hfirst⟩ :=
    full_lines_kept hpolicy rfl rfl hvacant (by decide) (by decide) (by decide) hfull (by
        intro i hi
        have hi : i ≤ 2 := hi
        interval_cases i <;> exact ⟨by decide +kernel, by decide +kernel⟩)
  exact ⟨s₀, w₁, s, w, hbuild, hrun, hnames, hlines 0 (by decide) (by decide),
    hlines 1 (by decide) (by decide), hfirst (by decide)⟩

/-- One line, and there is an empty backup: it is not the case that there are only backups
    with lines in them. -/
theorem empty_backup_after_full_line :
    let o : FileSinkOptions :=
      { path := ⟨"app.log"⟩, policy? := some (.size { maxBytes := 1, backups := 2 }) }
    ∃ s₀ w₁ s w, FileSink.build o {} = (.ok s₀, w₁) ∧
      [(⟨"first", 0, #[]⟩ : Feeding)].foldlM feed (s₀, w₁) = some (s, w) ∧
      "app.log.1" ∈ w.files.childNames [] ∧ w.files.fileAt? ["app.log.1"] = some [] := by
  intro o
  have hresult : ((FileSink.build o {}).1.toOption.bind fun s₀ =>
      ([(⟨"first", 0, #[]⟩ : Feeding)].foldlM feed (s₀, (FileSink.build o {}).2)).map fun a =>
        (decide ("app.log.1" ∈ a.2.files.childNames []), a.2.files.fileAt? ["app.log.1"])) =
      some (true, some []) := by
    decide +kernel
  rcases hbuild : FileSink.build o {} with ⟨e | s₀, w₁⟩
  · rw [hbuild] at hresult
    cases hresult
  · rw [hbuild] at hresult
    obtain ⟨⟨s, w⟩, hrun, hshown⟩ := Option.map_eq_some_iff.mp hresult
    obtain ⟨hname, hbytes⟩ := Prod.mk.inj hshown
    exact ⟨s₀, w₁, s, w, rfl, hrun, of_decide_eq_true hname, hbytes⟩

end Logbook.Rotation
