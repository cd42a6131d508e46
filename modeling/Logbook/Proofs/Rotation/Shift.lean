import Logbook.Proofs.Rotation.Backups

/-! # Shifting backups

    The backups are shifted from the greatest number down, so that each finds the next
    place free: the one that was there has been moved on, or there was none.  The last
    place is made free by removing what is there.  Wherever this breaks off, the history
    is what it was, but for what was removed from the last place.
-/

namespace Logbook.Rotation

open FileSystem

/-- What is kept under each number in a tree. -/
def shelf (fs : FileSystem) (path : Path) : Shelf := fun n => fs.regular? (numbered path n)

/-- **Rearranged**: numbered names stand for other entries than before, and nothing has
    been written to any file. -/
structure Rearranged (path : Path) (d : Location) (x : String) (b : Nat) (fs fs' : FileSystem) :
    Prop where
  site : Site path d x (isNumbered x b) fs'
  same : SameOutside d (isNumbered x b) fs fs'
  data : fs'.data = fs.data

variable {path : Path} {d : Location} {x : String} {b k m n : Nat} {fs fs' fs'' : FileSystem}
  {f : LogFile} {r : Except LogError Unit}

namespace Rearranged

theorem refl (h : Site path d x (isNumbered x b) fs) : Rearranged path d x b fs fs :=
  ⟨h, .refl _ _ _, rfl⟩

theorem trans (h : Rearranged path d x b fs fs') (h' : Rearranged path d x b fs' fs'') :
    Rearranged path d x b fs fs'' :=
  ⟨h'.site, h.same.trans h'.same, h'.data.trans h.data⟩

end Rearranged

/-- A numbered path leads to its name, whatever becomes of the numbered names. -/
theorem leads_numbered_site (h : Site path d x (isNumbered x b) fs)
    (hsame : SameOutside d (isNumbered x b) fs fs') (n : Nat) :
    fs'.Leads (numbered path n) d (numberedName x n) :=
  hsame.leads (leads_numbered h.way n)

/-- Under a number with the same entry and unwritten files the same is kept. -/
theorem shelf_congr (hsite : Site path d x (isNumbered x b) fs)
    (h : Rearranged path d x b fs fs')
    (hentry : fs'.entryAt? (d ++ [numberedName x n]) = fs.entryAt? (d ++ [numberedName x n])) :
    shelf fs' path n = shelf fs path n := by
  have hbytes : fs'.bytesAt (d ++ [numberedName x n]) = fs.bytesAt (d ++ [numberedName x n]) :=
    bytesAt_congr hentry fun id _ => by rw [contentOf, contentOf, h.data]
  exact (leads_numbered_site hsite (.refl _ _ _) n).regular?_congr
    (leads_numbered_site hsite h.same n) hentry hbytes

/-- Beyond the greatest number nothing changes. -/
theorem Rearranged.above (h : Rearranged path d x b fs fs')
    (hsite : Site path d x (isNumbered x b) fs) (hn : b < n) :
    shelf fs' path n = shelf fs path n := by
  refine shelf_congr hsite h (h.same _ ?_)
  rw [owned_child, Bool.eq_false_iff]
  intro hnumbered
  obtain ⟨k, hk, heq⟩ := isNumbered_iff.mp hnumbered
  have hnk := numberedName_inj.mp heq
  omega

/-- The entry under a number other than zero may be taken away. -/
theorem rearranged_take (hsite : Site path d x (isNumbered x b) fs) (hn : n + 1 ≤ b) :
    Rearranged path d x b fs (fs.take (d ++ [numberedName x (n + 1)])) ∧
      Lost (n + 1) (shelf fs path) (shelf (fs.take (d ++ [numberedName x (n + 1)])) path) := by
  have hsame := SameOutside.take (d := d) fs (isNumbered_name (x := x) hn)
  -- Different numbers have different names, so the other places are not touched.
  have hentry : ∀ k, k ≠ n + 1 →
      (fs.take (d ++ [numberedName x (n + 1)])).entryAt? (d ++ [numberedName x k]) =
        fs.entryAt? (d ++ [numberedName x k]) := by
    intro k hk
    rw [entryAt?_take (child_ne_nil d _), if_neg]
    intro heq
    exact hk (numberedName_inj.mp (child_inj.mp heq))
  have hre : Rearranged path d x b fs (fs.take (d ++ [numberedName x (n + 1)])) := by
    refine ⟨hsite.congr hsame (hsite.sound.take _) ?_, hsame, rfl⟩
    intro e he
    exact hsite.plain e ((hentry 0 (by omega)).symm.trans he)
  refine ⟨hre, .inr ?_, fun k hk => shelf_congr hsite hre (hentry k hk)⟩
  have hnone : (fs.take (d ++ [numberedName x (n + 1)])).entryAt? (d ++ [numberedName x (n + 1)]) =
      none := by
    rw [entryAt?_take (child_ne_nil d _), if_pos rfl]
  exact ((leads_numbered_site hsite hsame (n + 1)).of_entry_none hnone).1

/-- The entry under a number may be moved to the next one, if no file is there. -/
theorem rearranged_move (hsite : Site path d x (isNumbered x b) fs) (hm : m + 1 ≤ b)
    (hfree : shelf fs path (m + 1) = none) {e : Entry}
    (hshown : fs.shown (numbered path m) d (numberedName x m) = some e)
    (hlen : checkLength (numbered path (m + 1)) = .ok ())
    (hshort : isTooLong (numberedName x (m + 1)) = false) :
    Rearranged path d x b fs (fs.move (d ++ [numberedName x m]) (d ++ [numberedName x (m + 1)])) ∧
      MovedUp m (shelf fs path)
        (shelf (fs.move (d ++ [numberedName x m]) (d ++ [numberedName x (m + 1)])) path) := by
  have hne : numberedName x m ≠ numberedName x (m + 1) := by
    intro heq
    have hm := numberedName_inj.mp heq
    omega
  have hsame := SameOutside.move (d := d) fs (isNumbered_name (x := x) (Nat.le_of_succ_le hm))
    (isNumbered_name (x := x) hm)
  have hentry := fun w => entryAt?_move_child (d := d) fs hne w
  have hother : ∀ k, k ≠ m → k ≠ m + 1 →
      (fs.move (d ++ [numberedName x m]) (d ++ [numberedName x (m + 1)])).entryAt?
        (d ++ [numberedName x k]) = fs.entryAt? (d ++ [numberedName x k]) := by
    intro k hk hk'
    rw [hentry, if_neg fun heq => hk' (numberedName_inj.mp heq),
      if_neg fun heq => hk (numberedName_inj.mp heq)]
  have hgone : (fs.move (d ++ [numberedName x m]) (d ++ [numberedName x (m + 1)])).entryAt?
      (d ++ [numberedName x m]) = none := by
    rw [hentry, if_neg hne, if_pos rfl]
  have hre : Rearranged path d x b fs
      (fs.move (d ++ [numberedName x m]) (d ++ [numberedName x (m + 1)])) := by
    refine ⟨hsite.congr hsame (hsite.sound.move _ _) ?_, hsame, rfl⟩
    intro e he
    -- The live file stays, unless it is the one that is moved.
    cases m with
    | zero =>
      have hnone : none = some e := hgone.symm.trans he
      cases hnone
    | succ m => exact hsite.plain e ((hother 0 (by omega) (by omega)).symm.trans he)
  refine ⟨hre, hfree, ?_, ?_, fun k hk hk' => shelf_congr hsite hre (hother k hk hk')⟩
  · have hnew : (fs.move (d ++ [numberedName x m]) (d ++ [numberedName x (m + 1)])).shown
        (numbered path (m + 1)) d (numberedName x (m + 1)) = some e := by
      rw [shown_eq_some_iff, hentry, if_pos rfl]
      exact ⟨⟨hlen, hshort⟩, (shown_eq_some_iff.mp hshown).2⟩
    rw [shelf, (leads_numbered_site hsite hsame (m + 1)).regular?, hnew, shelf,
      (leads_numbered_site hsite (.refl _ _ _) m).regular?, hshown]
    rfl
  · exact ((leads_numbered_site hsite hsame m).of_entry_none hgone).1

/-! ## Making room -/

open SizeRotation

/-- A place that has been cleared is free; what was there is all that can be lost. -/
theorem clear_spec (hsite : Site path d x (isNumbered x b) fs) (hn : n + 1 ≤ b)
    (h : clear (numbered path (n + 1)) fs = (r, fs')) :
    Rearranged path d x b fs fs' ∧ Lost (n + 1) (shelf fs path) (shelf fs' path) ∧
      fs'.entryAt? (d ++ [x]) = fs.entryAt? (d ++ [x]) ∧
      (r = .ok () → fs'.exists? (numbered path (n + 1)) = false) := by
  have hleads := leads_numbered_site hsite (.refl _ _ _) (n + 1)
  -- What holds when nothing is done serves the failure and the free place alike.
  have hstay : Rearranged path d x b fs fs ∧ Lost (n + 1) (shelf fs path) (shelf fs path) ∧
      fs.entryAt? (d ++ [x]) = fs.entryAt? (d ++ [x]) := ⟨.refl hsite, .refl _ _, rfl⟩
  unfold clear at h
  split at h
  · next hex =>
    cases hremove : fs.removeFile (numbered path (n + 1)) with
    | error e =>
      rw [hremove] at h
      obtain ⟨rfl, rfl⟩ := Prod.mk.inj h
      exact ⟨hstay.1, hstay.2.1, hstay.2.2, fun heq => by cases heq⟩
    | ok fs₁ =>
      rw [hremove] at h
      obtain ⟨rfl, rfl⟩ := Prod.mk.inj h
      obtain ⟨e, -, -, rfl⟩ := hleads.removeFile hremove
      obtain ⟨hre, hlost⟩ := rearranged_take hsite hn
      refine ⟨hre, hlost, ?_, fun _ => ?_⟩
      · have hne : d ++ [x] ≠ d ++ [numberedName x (n + 1)] := by
          intro heq
          have hzero := (numberedName_inj (n := 0)).mp (child_inj.mp heq)
          omega
        rw [entryAt?_take (child_ne_nil d _), if_neg hne]
      · have hnone : (fs.take (d ++ [numberedName x (n + 1)])).entryAt?
            (d ++ [numberedName x (n + 1)]) = none := by
          rw [entryAt?_take (child_ne_nil d _), if_pos rfl]
        exact ((leads_numbered_site hsite hre.same (n + 1)).of_entry_none hnone).2
  · next hno =>
    obtain ⟨rfl, rfl⟩ := Prod.mk.inj h
    exact ⟨hstay.1, hstay.2.1, hstay.2.2, fun _ => by simpa using hno⟩

/-- The entry under a number comes under the next one if that does not exist; if it
    cannot be moved nothing changes. -/
theorem moveUp_spec (hsite : Site path d x (isNumbered x b) fs) (hm : m + 1 ≤ b)
    (hno : fs.exists? (numbered path (m + 1)) = false)
    (h : fs.renameReplacing (numbered path m) (numbered path (m + 1)) = (r, fs')) :
    Rearranged path d x b fs fs' ∧ (∀ n, m + 1 ≤ n → history (shelf fs' path) n =
        history (shelf fs path) n) ∧
      (∀ n, m + 1 < n → shelf fs' path n = shelf fs path n) ∧
      (m ≠ 0 → fs'.entryAt? (d ++ [x]) = fs.entryAt? (d ++ [x])) ∧
      (r = .ok () → fs'.entryAt? (d ++ [numberedName x m]) = none ∧
        fs'.exists? (numbered path m) = false) := by
  have hp := leads_numbered_site hsite (.refl _ _ _) m
  have hq := leads_numbered_site hsite (.refl _ _ _) (m + 1)
  have hne : numberedName x m ≠ numberedName x (m + 1) := by
    intro heq
    have hm := numberedName_inj.mp heq
    omega
  -- The next place is free, so the renaming replaces nothing.
  rcases renameReplacing_spec hp hq hne hno h with
    ⟨e, rfl, rfl⟩ | ⟨rfl, rfl, ⟨e, hshown⟩, hlen, hshort⟩
  · exact ⟨.refl hsite, fun _ _ => rfl, fun _ _ => rfl, fun _ => rfl, fun heq => by cases heq⟩
  · obtain ⟨hre, hup⟩ := rearranged_move hsite hm (hq.regular?_of_not_exists hno) hshown hlen hshort
    have hgone : (fs.move (d ++ [numberedName x m]) (d ++ [numberedName x (m + 1)])).entryAt?
        (d ++ [numberedName x m]) = none := by
      rw [entryAt?_move_child fs hne, if_neg hne, if_pos rfl]
    refine ⟨hre, fun n hn => hup.history hn, fun n hn => hup.other n (by omega) (by omega),
      fun hzero => ?_, fun _ => ⟨hgone, ?_⟩⟩
    · rw [entryAt?_move_child fs hne, if_neg, if_neg]
      · intro heq
        exact hzero ((numberedName_inj (n := 0)).mp heq).symm
      · intro heq
        have hsucc := (numberedName_inj (n := 0)).mp heq
        omega
    · exact ((leads_numbered_site hsite hre.same m).of_entry_none hgone).2

/-! ## The loop -/

/-- Without a namer a backup has the name with its number. -/
theorem backupName_eq (hpath : f.path = path) (hnamer : f.namer? = none) (n : Nat) :
    backupName f (n + 1) = numbered path (n + 1) := by
  subst hpath
  rw [backupName, LogFile.archiveName, hnamer]
  rfl

/-- **One shift**: only what was under the next number can be lost, and the number that
    has been shifted is free. -/
theorem shiftOne_spec (hpath : f.path = path) (hnamer : f.namer? = none)
    (hsite : Site path d x (isNumbered x b) fs) (hm : m + 2 ≤ b)
    (h : shiftOne f (m + 1) fs = (r, fs')) :
    Rearranged path d x b fs fs' ∧ fs'.entryAt? (d ++ [x]) = fs.entryAt? (d ++ [x]) ∧
      (∃ v, Lost (m + 2) (shelf fs path) v ∧
        (∀ n, m + 2 ≤ n → history (shelf fs' path) n = history v n) ∧
        ∀ n, m + 2 < n → shelf fs' path n = v n) ∧
      (r = .ok () → fs'.exists? (numbered path (m + 1)) = false) := by
  unfold shiftOne at h
  simp only [backupName_eq hpath hnamer] at h
  split at h
  · next hex =>
    -- First the next place is cleared, which can lose what is there, then the file moves up.
    cases hclear : clear (numbered path (m + 1 + 1)) fs with
    | mk r₁ fs₁ =>
      obtain ⟨hre, hlost, hlive, hfree⟩ := clear_spec hsite hm hclear
      rw [hclear] at h
      cases r₁ with
      | error e =>
        obtain ⟨rfl, rfl⟩ := Prod.mk.inj h
        exact ⟨hre, hlive, ⟨_, hlost, fun _ _ => rfl, fun _ _ => rfl⟩, fun heq => by cases heq⟩
      | ok u =>
        obtain ⟨hre', hhistory, habove, hlive', hgone⟩ := moveUp_spec hre.site hm (hfree rfl) h
        exact ⟨hre.trans hre', (hlive' (by omega)).trans hlive, ⟨_, hlost, hhistory, habove⟩,
          fun heq => (hgone heq).2⟩
  · next hno =>
    obtain ⟨rfl, rfl⟩ := Prod.mk.inj h
    exact ⟨.refl hsite, rfl, ⟨_, .refl _ _, fun _ _ => rfl, fun _ _ => rfl⟩,
      fun _ => by simpa using hno⟩

/-- **The shift** from a number whose next place is free: no history that goes beyond
    that place changes, wherever the loop breaks off. -/
theorem shift_spec (hpath : f.path = path) (hnamer : f.namer? = none)
    (hsite : Site path d x (isNumbered x b) fs) (hk : k + 1 ≤ b)
    (hfree : fs.exists? (numbered path (k + 1)) = false) (h : shift f k fs = (r, fs')) :
    Rearranged path d x b fs fs' ∧ fs'.entryAt? (d ++ [x]) = fs.entryAt? (d ++ [x]) ∧
      (∀ n, k + 1 ≤ n → history (shelf fs' path) n = history (shelf fs path) n) ∧
      (∀ n, k + 1 < n → shelf fs' path n = shelf fs path n) ∧
      (r = .ok () → fs'.exists? (numbered path 1) = false) := by
  induction k generalizing fs with
  | zero =>
    obtain ⟨rfl, rfl⟩ := Prod.mk.inj h
    exact ⟨.refl hsite, rfl, fun _ _ => rfl, fun _ _ => rfl, fun _ => hfree⟩
  | succ k ih =>
    rw [shift] at h
    cases hone : shiftOne f (k + 1) fs with
    | mk r₁ fs₁ =>
      obtain ⟨hre, hlive, ⟨v, hlost, hhistory, habove⟩, hnext⟩ :=
        shiftOne_spec hpath hnamer hsite hk hone
      -- Nothing was in the next place, so nothing is lost there.
      have hnone : shelf fs path (k + 2) = none :=
        (leads_numbered_site hsite (.refl _ _ _) (k + 2)).regular?_of_not_exists hfree
      obtain rfl := hlost.eq_of_none hnone
      rw [hone] at h
      cases r₁ with
      | error e =>
        obtain ⟨rfl, rfl⟩ := Prod.mk.inj h
        exact ⟨hre, hlive, hhistory, habove, fun heq => by cases heq⟩
      | ok u =>
        obtain ⟨hre', hlive', hhistory', habove', hone'⟩ :=
          ih hre.site (Nat.le_of_succ_le hk) (hnext rfl) h
        refine ⟨hre.trans hre', hlive'.trans hlive, fun n hn => ?_, fun n hn => ?_, hone'⟩
        · rw [hhistory' n (Nat.le_of_succ_le hn), hhistory n hn]
        · rw [habove' n (Nat.lt_of_succ_lt hn), habove n hn]

/-- The shift from the greatest number but one: what was under the greatest one is all
    that can be lost.  With one number only there is nothing to shift. -/
theorem shift_last_spec (hpath : f.path = path) (hnamer : f.namer? = none)
    (hsite : Site path d x (isNumbered x (b + 1)) fs) (h : shift f b fs = (r, fs')) :
    Rearranged path d x (b + 1) fs fs' ∧ fs'.entryAt? (d ++ [x]) = fs.entryAt? (d ++ [x]) ∧
      (∃ v, Lost (b + 1) (shelf fs path) v ∧
        ∀ n, b + 1 ≤ n → history (shelf fs' path) n = history v n) ∧
      (b = 0 ∧ fs' = fs ∨ (r = .ok () → fs'.exists? (numbered path 1) = false)) := by
  cases b with
  | zero =>
    obtain ⟨rfl, rfl⟩ := Prod.mk.inj h
    exact ⟨.refl hsite, rfl, ⟨_, .refl _ _, fun _ _ => rfl⟩, .inl ⟨rfl, rfl⟩⟩
  | succ k =>
    rw [shift] at h
    cases hone : shiftOne f (k + 1) fs with
    | mk r₁ fs₁ =>
      -- Only the first shift meets a place that is taken; it leaves its own place to the next.
      obtain ⟨hre, hlive, ⟨v, hlost, hhistory, -⟩, hnext⟩ :=
        shiftOne_spec hpath hnamer hsite (Nat.le_refl _) hone
      rw [hone] at h
      cases r₁ with
      | error e =>
        obtain ⟨rfl, rfl⟩ := Prod.mk.inj h
        exact ⟨hre, hlive, ⟨v, hlost, hhistory⟩, .inr fun heq => by cases heq⟩
      | ok u =>
        obtain ⟨hre', hlive', hhistory', -, hone'⟩ :=
          shift_spec hpath hnamer hre.site (Nat.le_succ _) (hnext rfl) h
        refine ⟨hre.trans hre', hlive'.trans hlive, ⟨v, hlost, fun n hn => ?_⟩, .inr hone'⟩
        rw [hhistory' n (Nat.le_of_succ_le hn), hhistory n hn]

/-- To clear a place that does not exist is to do nothing. -/
theorem clear_of_not_exists {q : Path} (h : fs.exists? q = false) : clear q fs = (.ok (), fs) := by
  rw [clear, h]
  rfl

/-- **Moving all**: what was under the greatest number is all that can be lost, and when
    all have been moved no live file is left. -/
theorem moveAll_spec {p : SizeRotation} {w w' : World} (hpath : f.path = path)
    (hnamer : f.namer? = none) (hrotator : f.rotator? = none) (hb : p.backups = b + 1)
    (hsite : Site path d x (isNumbered x (b + 1)) w.files) (h : p.moveAll f w = (r, w')) :
    Rearranged path d x (b + 1) w.files w'.files ∧
      (∃ v, Lost (b + 1) (shelf w.files path) v ∧
        history (shelf w'.files path) (b + 1) = history v (b + 1)) ∧
      (r = .ok () → (∃ id, w.files.shown path d x = some (.file id)) →
        w'.files.entryAt? (d ++ [x]) = none) := by
  rw [moveAll, hb, if_neg (Nat.succ_ne_zero b), Nat.add_sub_cancel] at h
  cases hshift : shift f b w.files with
  | mk r₁ fs₁ =>
    obtain ⟨hre, hlive, ⟨v, hlost, hhistory⟩, hfree⟩ := shift_last_spec hpath hnamer hsite hshift
    rw [hshift] at h
    cases r₁ with
    | error e =>
      obtain ⟨rfl, rfl⟩ := Prod.mk.inj h
      exact ⟨hre, ⟨v, hlost, hhistory _ (Nat.le_refl _)⟩, fun heq => by cases heq⟩
    | ok u =>
      simp only [backupName_eq hpath hnamer 0] at h
      cases hclear : clear (numbered path (0 + 1)) fs₁ with
      | mk r₂ fs₂ =>
        obtain ⟨hre₂, hlost₂, hlive₂, hfree₂⟩ := clear_spec hre.site (Nat.le_add_left _ _) hclear
        -- Number one is the greatest number, or it has been shifted and is free already.
        have hlost' : ∃ v, Lost (b + 1) (shelf w.files path) v ∧
            history (shelf fs₂ path) (b + 1) = history v (b + 1) := by
          rcases hfree with ⟨rfl, rfl⟩ | hfree
          · exact ⟨_, hlost₂, rfl⟩
          · rw [clear_of_not_exists (hfree rfl)] at hclear
            obtain ⟨-, rfl⟩ := Prod.mk.inj hclear
            exact ⟨v, hlost, hhistory _ (Nat.le_refl _)⟩
        rw [hclear] at h
        cases r₂ with
        | error e =>
          obtain ⟨rfl, rfl⟩ := Prod.mk.inj h
          exact ⟨hre.trans hre₂, hlost', fun heq => by cases heq⟩
        | ok u =>
          simp only [LogFile.putAside, hrotator, hpath] at h
          split at h
          · next hex =>
            cases hrename : fs₂.renameReplacing path (numbered path (0 + 1)) with
            | mk r₃ fs₃ =>
              obtain ⟨hre₃, hhistory₃, -, -, hgone⟩ :=
                moveUp_spec (m := 0) hre₂.site (Nat.le_add_left _ _) (hfree₂ rfl) hrename
              rw [hrename] at h
              obtain ⟨rfl, rfl⟩ := Prod.mk.inj h
              obtain ⟨v', hlost', hhistory'⟩ := hlost'
              refine ⟨(hre.trans hre₂).trans hre₃, ⟨v', hlost', ?_⟩, fun heq _ => (hgone heq).1⟩
              rw [← hhistory']
              exact hhistory₃ _ (Nat.le_add_left _ _)
          · next hno =>
            obtain ⟨rfl, rfl⟩ := Prod.mk.inj h
            refine ⟨hre.trans hre₂, hlost', fun _ hshown => ?_⟩
            obtain ⟨id, hid⟩ := hshown
            -- A live file would exist.
            have hid₂ : fs₂.shown path d x = some (.file id) := by
              rw [shown_eq_some_iff] at hid ⊢
              exact ⟨hid.1, (hlive₂.trans hlive).trans hid.2⟩
            exact absurd (hre₂.site.leads.exists_of_shown hid₂ (by simp)) hno

end Logbook.Rotation
