import Logbook.Proofs.Rotation.Emit
import Logbook.Proofs.Rotation.Shift

/-! # File sinks that roll over by size

    A line comes behind the history of the live file, whatever fails in the rollover
    before it.  What goes in front is the content of the oldest backup, if anything.  A
    rollover that does not fail leaves room for the line below the limit, or an empty
    live file.
-/

namespace Logbook

namespace Rotation

open FileSystem LogFile

/-! ## The steps of a line -/

section Steps

variable {p : SizeRotation} {f f' : LogFile} {fs fs' : FileSystem} {s s' : FileSink} {w w' : World}

/-- Whether a line is one too many: without a limit it never is, and else the file is opened
    to find out. -/
theorem isDue_size_cases {length : Nat} {r : Except LogError (Bool × LogFile)}
    (hspecial : fs.isSpecial f.path = false) (h : p.isDue f length fs = (r, fs')) :
    p.maxBytes = 0 ∧ r = .ok (false, f) ∧ fs' = fs ∨
      p.maxBytes ≠ 0 ∧ ((∃ e, f.reopen fs = (.error e, fs') ∧ r = .error e) ∨
        ∃ f₁, f.reopen fs = (.ok f₁, fs') ∧
          r = .ok (decide (p.maxBytes ≤ f₁.counted + length), f₁)) := by
  unfold SizeRotation.isDue at h
  rw [hspecial, Bool.or_false] at h
  by_cases hmax : p.maxBytes = 0
  · rw [if_pos (by simpa using hmax)] at h
    obtain ⟨rfl, rfl⟩ := Prod.mk.inj h
    exact .inl ⟨hmax, rfl, rfl⟩
  · rw [if_neg (by simpa using hmax)] at h
    refine .inr ⟨hmax, ?_⟩
    rcases hreopen : f.reopen fs with ⟨_ | f₁, fs₁⟩
    · rw [hreopen] at h
      obtain ⟨rfl, rfl⟩ := Prod.mk.inj h
      exact .inl ⟨_, rfl, rfl⟩
    · rw [hreopen] at h
      dsimp only at h
      rw [LogFile.position, if_pos (isOpen_of_reopen hreopen)] at h
      obtain ⟨rfl, rfl⟩ := Prod.mk.inj h
      exact .inr ⟨f₁, rfl, rfl⟩

/-- A rollover by size: all files are moved on, and a new one is opened; the first failure
    ends it. -/
theorem rollOver_size_cases {r : Except LogError Unit} (h : p.rollOver f w = (r, f', w')) :
    ∃ r₁ w₁, p.moveAll f.close w = (r₁, w₁) ∧
      ((∃ e, r₁ = .error e ∧ r = .error e ∧ f' = f.close ∧ w' = w₁) ∨
        r₁ = .ok () ∧
          ((∃ e, f.close.reopen w₁.files = (.error e, w'.files) ∧ r = .error e ∧ f' = f.close) ∨
            r = .ok () ∧ f.close.Renewed w₁.files f' w'.files)) := by
  unfold SizeRotation.rollOver at h
  dsimp only at h
  rcases hmove : p.moveAll f.close w with ⟨_ | u, w₁⟩
  · rw [hmove] at h
    simp only [Prod.mk.injEq] at h
    obtain ⟨rfl, rfl, rfl⟩ := h
    exact ⟨_, _, rfl, .inl ⟨_, rfl, rfl, rfl, rfl⟩⟩
  · rw [hmove] at h
    refine ⟨_, w₁, rfl, .inr ⟨rfl, ?_⟩⟩
    dsimp only at h
    split at h
    · -- With a delay the file is opened by its first line.
      next hdelay =>
      simp only [Prod.mk.injEq] at h
      obtain ⟨rfl, rfl, rfl⟩ := h
      exact .inr ⟨rfl, .inl ⟨hdelay, rfl, rfl⟩⟩
    · next hdelay =>
      rcases hreopen : f.close.reopen w₁.files with ⟨_ | f₂, fs₂⟩
      · rw [hreopen] at h
        simp only [Prod.mk.injEq] at h
        obtain ⟨rfl, rfl, rfl⟩ := h
        exact .inl ⟨_, rfl, rfl, rfl⟩
      · rw [hreopen] at h
        simp only [Prod.mk.injEq] at h
        obtain ⟨rfl, rfl, rfl⟩ := h
        exact .inr ⟨rfl, .inr ⟨by simpa using hdelay, hreopen⟩⟩

/-- **Before a line** of a sink that rolls over by size it is found out whether the line is one
    too many, and if so the live file is rolled over. -/
theorem prepare_size_cases {text : String} {r : Except LogError Unit}
    (hpolicy : s.policy = .size p) (h : s.prepare text w = (r, s', w')) :
    ∃ r₁ fs₁, p.isDue s.file (s.lineLength text) w.files = (r₁, fs₁) ∧
      ((∃ e, r₁ = .error e ∧ r = .error e ∧ s' = s ∧ w' = { w with files := fs₁ }) ∨
        ∃ due f₁, r₁ = .ok (due, f₁) ∧
          ((due = false ∧ r = .ok () ∧ s' = { s with file := f₁ } ∧ w' = { w with files := fs₁ }) ∨
            due = true ∧ ∃ f₂, p.rollOver f₁ { w with files := fs₁ } = (r, f₂, w') ∧
              s' = { s with file := f₂ })) := by
  obtain ⟨file, policy, terminator⟩ := s
  obtain rfl : policy = .size p := hpolicy
  unfold FileSink.prepare FileSink.isDue at h
  dsimp only [Policy.isDue] at h
  rcases hdue : p.isDue file (FileSink.lineLength ⟨file, .size p, terminator⟩ text) w.files with
    ⟨e | ⟨due, f₁⟩, fs₁⟩
  · rw [hdue] at h
    simp only [Prod.mk.injEq] at h
    obtain ⟨rfl, rfl, rfl⟩ := h
    exact ⟨_, _, rfl, .inl ⟨e, rfl, rfl, rfl, rfl⟩⟩
  · rw [hdue] at h
    refine ⟨_, fs₁, rfl, .inr ⟨due, f₁, rfl, ?_⟩⟩
    dsimp only at h
    cases due with
    | false =>
      simp only [Prod.mk.injEq] at h
      obtain ⟨rfl, rfl, rfl⟩ := h
      exact .inl ⟨rfl, rfl, rfl, rfl⟩
    | true =>
      right
      unfold FileSink.rollOver Policy.rollOver at h
      dsimp only at h
      rcases hroll : p.rollOver f₁ { w with files := fs₁ } with ⟨r₂, f₂, w₂⟩
      rw [hroll] at h
      simp only [Prod.mk.injEq] at h
      obtain ⟨rfl, rfl, rfl⟩ := h
      exact ⟨rfl, f₂, rfl, rfl⟩

end Steps

/-! ## Cuts -/

/-- The content of the greatest number at which there is a backup. -/
def IsOldest (v : Shelf) (b : Nat) (bytes : List UInt8) : Prop :=
  ∃ n, 1 ≤ n ∧ n ≤ b ∧ v n = some bytes ∧ ∀ m, n < m → m ≤ b → v m = none

variable {v v' w : Shelf} {b n : Nat} {bytes : List UInt8}

/-- What is lost under the greatest number is cut off in front. -/
theorem Lost.cut (h : Lost (b + 1) v w) : ∃ cut, history v (b + 1) = cut ++ history w (b + 1) ∧
    (cut = [] ∨ IsOldest v (b + 1) cut) := by
  have hrest : history w b = history v b := history_congr fun k hk => h.other k (by omega)
  rcases h.here with hkept | hgone
  · refine ⟨[], ?_, .inl rfl⟩
    rw [history, history, hkept, hrest, List.nil_append]
  · refine ⟨(v (b + 1)).getD [], by simp [history, hgone, hrest], ?_⟩
    cases hv : v (b + 1) with
    | none => exact .inl rfl
    | some c => exact .inr ⟨b + 1, by omega, Nat.le_refl _, hv, fun m hm hmb => by omega⟩

variable {path : Path} {d : Location} {x : String} {fs fs' : FileSystem}

/-- What a short path names is what its location holds. -/
theorem regular?_getD (h : fs.Leads path d x) (hplain : fs.PlainAt (d ++ [x]))
    (hfits : checkLength path = .ok () ∧ isTooLong x = false) :
    (fs.regular? path).getD [] = fs.bytesAt (d ++ [x]) := by
  cases hentry : fs.entryAt? (d ++ [x]) with
  | none =>
    rw [bytesAt_of_none hentry, (h.of_entry_none hentry).1]
    rfl
  | some e =>
    obtain ⟨id, rfl⟩ := hplain e hentry
    rw [h.regular?_of_file (shown_eq_some_iff.mpr ⟨hfits, hentry⟩)]
    rfl

/-- Bytes behind the live file come behind every history. -/
theorem history_grows (hsite : Site path d x (isNumbered x b) fs)
    (h : Grows (d ++ [x]) bytes fs fs')
    (hfits : (checkLength path = .ok () ∧ isTooLong x = false) ∨ bytes = []) (n : Nat) :
    history (shelf fs' path) n = history (shelf fs path) n ++ bytes := by
  have hsame := h.sameOutside (isNumbered_name (x := x) (Nat.zero_le b))
  have hleads : fs'.Leads path d x := hsame.leads hsite.way
  induction n with
  | zero =>
    show (fs'.regular? path).getD [] = (fs.regular? path).getD [] ++ bytes
    by_cases hshort : checkLength path = .ok () ∧ isTooLong x = false
    · rw [regular?_getD hleads h.plain hshort, regular?_getD hsite.leads hsite.plain hshort, h.here]
    · -- A path that is too long names nothing.
      have hnone : ∀ g : FileSystem, g.Leads path d x → g.regular? path = none := by
        intro g hg
        rw [hg.regular?, shown, if_neg hshort]
      obtain rfl := hfits.resolve_left hshort
      rw [hnone fs' hleads, hnone fs hsite.leads]
      rfl
  | succ n ih =>
    -- A backup has another name than the live file, and stays.
    have hne : d ++ [numberedName x (n + 1)] ≠ d ++ [x] := by
      intro heq
      have hzero := (numberedName_inj (m := 0)).mp (child_inj.mp heq)
      omega
    have hother : shelf fs' path (n + 1) = shelf fs path (n + 1) :=
      (leads_numbered_site hsite (.refl _ _ _) (n + 1)).regular?_congr
        (leads_numbered_site hsite hsame (n + 1)) (h.entry _ hne) (h.other _ hne)
    rw [history, history, hother, ih, List.append_assoc]

/-- Under the other numbers nothing changes. -/
theorem shelf_grows (hsite : Site path d x (isNumbered x b) fs)
    (h : Grows (d ++ [x]) bytes fs fs') (hn : n ≠ 0) : shelf fs' path n = shelf fs path n := by
  have hsame := h.sameOutside (isNumbered_name (x := x) (Nat.zero_le b))
  have hne : d ++ [numberedName x n] ≠ d ++ [x] := by
    intro heq
    exact hn ((numberedName_inj (m := 0)).mp (child_inj.mp heq))
  exact (leads_numbered_site hsite (.refl _ _ _) n).regular?_congr
    (leads_numbered_site hsite hsame n) (h.entry _ hne) (h.other _ hne)

/-! ## Rollovers -/

/-- **Steady**: a sink that rolls over by size, at the site of its live file. -/
structure Steady (p : SizeRotation) (path : Path) (d : Location) (x : String) (s : FileSink)
    (fs : FileSystem) : Prop where
  policy : s.policy = .size p
  file : s.file.path = path
  namer : s.file.namer? = none
  rotator : s.file.rotator? = none
  tracks : s.file.Tracks d x fs
  site : Site path d x (isNumbered x p.backups) fs

/-- **Pruned**: nothing has happened to the history but that the oldest backup may have
    been cut off, and nothing at all beyond the greatest number. -/
structure Pruned (path : Path) (d : Location) (x : String) (b : Nat) (fs fs' : FileSystem) : Prop where
  cut : ∃ cut, history (shelf fs path) b = cut ++ history (shelf fs' path) b ∧
    (cut = [] ∨ IsOldest (shelf fs path) b cut)
  above : ∀ n, b < n → shelf fs' path n = shelf fs path n
  same : SameOutside d (isNumbered x b) fs fs'

theorem Pruned.refl (path : Path) (d : Location) (x : String) (b : Nat) (fs : FileSystem) :
    Pruned path d x b fs fs :=
  ⟨⟨[], rfl, .inl rfl⟩, fun _ _ => rfl, .refl _ _ _⟩

/-- To open the live file changes no history. -/
theorem Pruned.grows {fs'' : FileSystem} (h : Pruned path d x b fs fs')
    (hsite : Site path d x (isNumbered x b) fs') (hgrows : Grows (d ++ [x]) [] fs' fs'') :
    Pruned path d x b fs fs'' := by
  obtain ⟨cut, hcut, holdest⟩ := h.cut
  refine ⟨⟨cut, ?_, holdest⟩, fun n hn => ?_, ?_⟩
  · rw [history_grows hsite hgrows (.inr rfl), List.append_nil, hcut]
  · rw [shelf_grows hsite hgrows (by omega), h.above n hn]
  · exact h.same.trans (hgrows.sameOutside (isNumbered_name (Nat.zero_le b)))

/-- What happens to the history after the live file has been opened happens to it. -/
theorem Pruned.after_grows {fs'' : FileSystem} (h : Pruned path d x b fs' fs'')
    (hsite : Site path d x (isNumbered x b) fs) (hgrows : Grows (d ++ [x]) [] fs fs') :
    Pruned path d x b fs fs'' := by
  have hshelf : ∀ n, n ≠ 0 → shelf fs' path n = shelf fs path n :=
    fun n hn => shelf_grows hsite hgrows hn
  obtain ⟨cut, hcut, holdest⟩ := h.cut
  rw [history_grows hsite hgrows (.inr rfl), List.append_nil] at hcut
  refine ⟨⟨cut, hcut, holdest.imp id ?_⟩, fun n hn => ?_, ?_⟩
  · rintro ⟨n, hn, hnb, hbytes, hno⟩
    refine ⟨n, hn, hnb, (hshelf n (by omega)).symm.trans hbytes, fun m hm hmb => ?_⟩
    rw [← hshelf m (by omega)]
    exact hno m hm hmb
  · rw [h.above n hn, hshelf n (by omega)]
  · exact (hgrows.sameOutside (isNumbered_name (Nat.zero_le b))).trans h.same

/-- All files are moved up by one: the live file is not there any more, unless there are no
    backups to be made. -/
theorem moveAll_prunes {p : SizeRotation} {f : LogFile} {w w' : World} {r : Except LogError Unit}
    (hpath : f.path = path) (hnamer : f.namer? = none) (hrotator : f.rotator? = none)
    (hsite : Site path d x (isNumbered x p.backups) w.files) (h : p.moveAll f w = (r, w')) :
    Site path d x (isNumbered x p.backups) w'.files ∧ Pruned path d x p.backups w.files w'.files ∧
      (r = .ok () → 0 < p.backups → (∃ id, w.files.shown path d x = some (.file id)) →
        w'.files.bytesAt (d ++ [x]) = []) := by
  cases hb : p.backups with
  | zero =>
    rw [SizeRotation.moveAll, if_pos hb] at h
    obtain ⟨rfl, rfl⟩ := Prod.mk.inj h
    rw [hb] at hsite
    exact ⟨hsite, .refl _ _ _ _ _, fun _ hpos => absurd hpos (Nat.lt_irrefl 0)⟩
  | succ b =>
    rw [hb] at hsite
    obtain ⟨hre, ⟨v, hlost, hhistory⟩, hgone⟩ := moveAll_spec hpath hnamer hrotator hb hsite h
    obtain ⟨cut, hcut, holdest⟩ := hlost.cut
    refine ⟨hre.site, ⟨⟨cut, by rw [hhistory, hcut], holdest⟩, fun n hn => hre.above hsite hn,
      hre.same⟩, fun hok _ hlive => bytesAt_of_none (hgone hok hlive)⟩

/-- The live file is rolled over: it is empty, or not there, unless there are no
    backups to be made. -/
theorem rollOver_spec {p : SizeRotation} {f f' : LogFile} {w w' : World}
    {r : Except LogError Unit} (hpath : f.path = path) (hnamer : f.namer? = none)
    (hrotator : f.rotator? = none) (htracks : f.Tracks d x w.files)
    (hsite : Site path d x (isNumbered x p.backups) w.files)
    (h : p.rollOver f w = (r, f', w')) :
    f.SameSettings f' ∧ f'.Tracks d x w'.files ∧
      Site path d x (isNumbered x p.backups) w'.files ∧
      Pruned path d x p.backups w.files w'.files ∧
      (r = .ok () → 0 < p.backups → (∃ id, w.files.shown path d x = some (.file id)) →
        w'.files.bytesAt (d ++ [x]) = []) := by
  obtain ⟨r₁, w₁, hmove, hcases⟩ := rollOver_size_cases h
  -- All backups are moved while the live file is closed.
  obtain ⟨hsite₁, hpruned₁, hempty₁⟩ :=
    moveAll_prunes (f := f.close) hpath hnamer hrotator hsite hmove
  have hclosed : ∀ g, f.close.Tracks d x g := htracks.close
  rcases hcases with ⟨e, -, rfl, rfl, rfl⟩ | ⟨rfl, ⟨e, hreopen, rfl, rfl⟩ | ⟨rfl, hrenewed⟩⟩
  · exact ⟨.close f, hclosed _, hsite₁, hpruned₁, nofun⟩
  · -- A new live file that cannot be opened may have been made.
    obtain ⟨hgrows, -⟩ := reopen_spec (f := f.close) (hpath ▸ hsite₁.leads)
      (hpath ▸ hsite₁.length) hsite₁.sound hsite₁.plain (hclosed _) hreopen
    exact ⟨.close f, hclosed _, hsite₁.grows (isNumbered_name (Nat.zero_le p.backups)) hgrows,
      hpruned₁.grows hsite₁ hgrows, nofun⟩
  · obtain ⟨hsettings, htracks₂, hgrows⟩ := hrenewed.spec hpath hsite₁ (hclosed _)
    refine ⟨(SameSettings.close f).trans hsettings, htracks₂,
      hsite₁.grows (isNumbered_name (Nat.zero_le p.backups)) hgrows,
      hpruned₁.grows hsite₁ hgrows, ?_⟩
    intro hok hpos hlive
    rw [hgrows.here, hempty₁ hok hpos hlive, List.append_nil]

/-- A live file with other settings alike keeps a sink steady. -/
theorem Steady.update {p : SizeRotation} {s : FileSink} (h : Steady p path d x s fs)
    {f : LogFile} (hsettings : s.file.SameSettings f) (htracks : f.Tracks d x fs')
    (hsite : Site path d x (isNumbered x p.backups) fs') :
    Steady p path d x { s with file := f } fs' := by
  refine ⟨h.policy, ?_, ?_, ?_, htracks, hsite⟩
  · exact hsettings.path.trans h.file
  · exact hsettings.namer.trans h.namer
  · exact hsettings.rotator.trans h.rotator

/-- **Before a line** the oldest backup may be cut off the history and nothing else; if
    nothing fails, the line fits below the limit or the live file is empty. -/
theorem prepare_spec {p : SizeRotation} {s s' : FileSink} {w w' : World} {text : String}
    {r : Except LogError Unit} (hsteady : Steady p path d x s w.files)
    (h : s.prepare text w = (r, s', w')) :
    Steady p path d x s' w'.files ∧ s'.terminator = s.terminator ∧
      Pruned path d x p.backups w.files w'.files ∧
      (r = .ok () → 0 < p.backups → 0 < p.maxBytes →
        (w'.files.bytesAt (d ++ [x])).length + s.lineLength text < p.maxBytes ∨
          w'.files.bytesAt (d ++ [x]) = []) := by
  have hsite := hsteady.site
  have hspecial : w.files.isSpecial s.file.path = false := by
    rw [hsteady.file]
    exact hsite.leads.isSpecial_eq_false hsite.plain
  have hown := isNumbered_name (x := x) (Nat.zero_le p.backups)
  obtain ⟨r₁, fs₁, hdue, hcases⟩ := prepare_size_cases hsteady.policy h
  rcases isDue_size_cases hspecial hdue with
    ⟨hmax, rfl, rfl⟩ | ⟨-, ⟨e, hreopen, rfl⟩ | ⟨f₁, hreopen, rfl⟩⟩
  · -- Without a limit nothing is ever due.
    rcases hcases with ⟨e, heq, -⟩ | ⟨due, f₁, heq, ⟨-, rfl, rfl, rfl⟩ | ⟨rfl, -⟩⟩
    · cases heq
    · obtain rfl := (Prod.mk.inj (Except.ok.inj heq)).2
      refine ⟨hsteady.update (.refl _) hsteady.tracks hsite, rfl, .refl _ _ _ _ _, ?_⟩
      intro _ _ hpos
      omega
    · cases heq
  · -- A live file that cannot be opened is left as it is.
    obtain ⟨hgrows, hfailed, -⟩ := reopen_spec (hsteady.file ▸ hsite.leads)
      (hsteady.file ▸ hsite.length) hsite.sound hsite.plain hsteady.tracks hreopen
    obtain rfl := hfailed e rfl
    rcases hcases with ⟨e', -, rfl, rfl, rfl⟩ | ⟨due, f₁, heq, -⟩
    · exact ⟨hsteady, rfl, (Pruned.refl path d x p.backups w.files).grows hsite hgrows, nofun⟩
    · cases heq
  · -- To open the live file makes it at most, and its bytes are counted from then on.
    obtain ⟨hgrows, -, hopened⟩ := reopen_spec (hsteady.file ▸ hsite.leads)
      (hsteady.file ▸ hsite.length) hsite.sound hsite.plain hsteady.tracks hreopen
    obtain ⟨hsettings, htracks₁, handle, hhandle⟩ := hopened f₁ rfl
    obtain ⟨-, hshown, hcounted⟩ := htracks₁.handle handle hhandle
    have hsteady₁ := hsteady.update hsettings htracks₁ (hsite.grows hown hgrows)
    rcases hcases with ⟨e, heq, -⟩ | ⟨due, f₁', heq, ⟨rfl, rfl, rfl, rfl⟩ | ⟨rfl, f₂, hroll, rfl⟩⟩
    · cases heq
    · -- The line fits.
      obtain ⟨hfits, rfl⟩ := Prod.mk.inj (Except.ok.inj heq)
      refine ⟨hsteady₁, rfl, (Pruned.refl path d x p.backups w.files).grows hsite hgrows, ?_⟩
      intro _ _ _
      left
      rw [← hcounted]
      simpa using hfits
    · -- The line would be one too many.
      obtain ⟨-, rfl⟩ := Prod.mk.inj (Except.ok.inj heq)
      obtain ⟨hsettings₂, htracks₂, hsite₂, hpruned₂, hempty⟩ :=
        rollOver_spec hsteady₁.file hsteady₁.namer hsteady₁.rotator htracks₁ hsteady₁.site hroll
      refine ⟨hsteady₁.update hsettings₂ htracks₂ hsite₂, rfl,
        hpruned₂.after_grows hsite hgrows, ?_⟩
      intro hok hpos _
      refine .inr (hempty hok hpos ⟨handle.id, ?_⟩)
      rw [← hsteady₁.file]
      exact hshown

/-- **A line**, and what it does to the history: it comes behind it, if it is written,
    and at most the oldest backup is cut off in front. -/
theorem emit_spec {p : SizeRotation} {s s' : FileSink} {w w' : World} {text : String}
    {r : Except LogError Unit} (hsteady : Steady p path d x s w.files)
    (h : s.emit text w = (r, s', w')) :
    Steady p path d x s' w'.files ∧ s'.terminator = s.terminator ∧
      (∃ cut, history (shelf w.files path) p.backups ++ s.written text r =
          cut ++ history (shelf w'.files path) p.backups ∧
        (cut = [] ∨ IsOldest (shelf w.files path) p.backups cut)) ∧
      (∀ n, p.backups < n → shelf w'.files path n = shelf w.files path n) ∧
      SameOutside d (isNumbered x p.backups) w.files w'.files ∧
      ((s.prepare text w).1 = .ok () → r = .ok () → 0 < p.backups → 0 < p.maxBytes →
        ∃ live, w'.files.regular? path = some live ∧
          (live.length < p.maxBytes ∨ live = lineBytes text s.terminator)) := by
  have hown := isNumbered_name (x := x) (Nat.zero_le p.backups)
  obtain ⟨r₁, s₁, w₁, w₂, hprepare, hfiles, -, hwrite⟩ := FileSink.emit_cases h
  obtain ⟨hsteady₁, hterminator, hpruned, hroom⟩ := prepare_spec hsteady hprepare
  have hsite₁ := hsteady₁.site
  obtain ⟨cut, hcut, holdest⟩ := hpruned.cut
  rcases hwrite with ⟨e, fs₂, hwrite, rfl, rfl, rfl⟩ | ⟨f₂, fs₂, hwrite, rfl, rfl, rfl⟩
  · -- A line that is not written leaves what the preparation has made.
    obtain ⟨hfailed, -⟩ := writeLine_spec (hsteady₁.file ▸ hsite₁.leads)
      (hsteady₁.file ▸ hsite₁.length) hsite₁.sound hsite₁.plain hsteady₁.tracks hwrite
    obtain rfl := hfailed e rfl
    refine ⟨hsteady₁, hterminator, ⟨cut, ?_, holdest⟩, hpruned.above, hpruned.same,
      fun _ heq => by cases heq⟩
    rw [hcut]
    exact List.append_nil _
  · obtain ⟨-, hwritten⟩ := writeLine_spec (hsteady₁.file ▸ hsite₁.leads)
      (hsteady₁.file ▸ hsite₁.length) hsite₁.sound hsite₁.plain hsteady₁.tracks hwrite
    obtain ⟨hgrows, hsettings, htracks₂, handle, hhandle⟩ := hwritten f₂ rfl
    have hsite₂ := hsite₁.grows hown hgrows
    obtain ⟨-, hshown, -⟩ := htracks₂.handle handle hhandle
    rw [hsettings.path, hsteady₁.file] at hshown
    have hfits := (shown_eq_some_iff.mp hshown).1
    refine ⟨hsteady₁.update hsettings htracks₂ hsite₂, hterminator, ⟨cut, ?_, holdest⟩,
      fun n hn => ?_, ?_, ?_⟩
    · -- What is written comes behind the live file, and so behind the whole history.
      show _ = cut ++ history (shelf fs₂ path) p.backups
      rw [history_grows hsite₁ hgrows (.inl hfits), hcut, FileSink.written, hterminator,
        List.append_assoc]
    · exact (shelf_grows hsite₁ hgrows (by omega)).trans (hpruned.above n hn)
    · exact hpruned.same.trans (hgrows.sameOutside hown)
    · intro hok _ hpos hmax
      refine ⟨fs₂.bytesAt (d ++ [x]), hsite₂.leads.regular?_of_file hshown, ?_⟩
      rw [hprepare] at hok
      rw [hgrows.here, List.length_append, length_lineBytes, hterminator]
      -- Either the line fitted, or the file was empty and holds that line alone.
      rcases hroom hok hpos hmax with hless | hnil
      · exact .inl hless
      · right
        rw [hnil, List.nil_append]

end Rotation

end Logbook
