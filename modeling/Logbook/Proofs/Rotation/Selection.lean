import Logbook.Proofs.Rotation.Retention

/-! # Which archives are selected

    Retention goes by names.  It takes a name for that of an archive exactly if it is the
    name of the live file, a dot and a time in the pattern of the unit, alone or with an
    extension; the names that a schedule gives are among them as long as the year has four
    digits, and those of a unit with another pattern are not.

    * **Masks**: the texts that fit the shape of a unit, written down as a text in which a
      zero stands for any digit.
    * **Names given**: the times that a schedule writes, alone and compressed.
    * **Selected**: of the archives in a directory, the least are selected, as many as there
      are too many, and the live file never is.
-/

namespace Logbook.Rotation

open Time Time.Pattern
open Path (Splits turn?)

/-! ## Masks -/

/-- A character of a text stands for one of a mask. -/
def Stands (m c : Char) : Prop := if m = '0' then c.isDigit = true else c = m

/-- **Fits**: a text has the digits and the punctuation of a mask. -/
def FitsMask (mask : String) (s : List Char) : Prop := List.Forall₂ Stands mask.toList s

/-- The mask of the times of a unit. -/
def Period.mask : Period → String
  | seconds => "0000-00-00_00-00-00"
  | minutes => "0000-00-00_00-00"
  | hours => "0000-00-00_00"
  | days | midnight | weekday _ => "0000-00-00"

/-- **Archival**: a text is a time of a unit, alone or followed by a dot and an extension of
    letters, digits and underscores. -/
def Archival (unit : Period) (s : List Char) : Prop :=
  ∃ time rest, s = time ++ rest ∧ FitsMask unit.mask time ∧
    (rest = [] ∨ ∃ ext, rest = '.' :: ext ∧ ext ≠ [] ∧
      ∀ c ∈ ext, c = '_' ∨ Text.isAlphanumeric c = true)

/-- The mask of a shape. -/
def maskOf : List ShapePart → List Char
  | [] => []
  | .digits n :: shape => List.replicate n '0' ++ maskOf shape
  | .literal c :: shape => c :: maskOf shape

theorem Period.mask_eq (unit : Period) : unit.mask.toList = maskOf unit.shape := by
  have hdays : days.mask.toList = maskOf days.shape := by decide
  cases unit with
  | days | midnight | weekday _ => exact hdays
  | hours | minutes | seconds => decide

variable {s rest : List Char} {unit : Period}

theorem stands_zero {c : Char} : Stands '0' c ↔ c.isDigit = true := by simp [Stands]

theorem stands_of_ne {m c : Char} (h : m ≠ '0') : Stands m c ↔ c = m := by simp [Stands, h]

/-- Digits are gone past exactly if a text begins with them. -/
theorem afterDigits_eq_some_iff {n : Nat} : afterDigits n s = some rest ↔
    ∃ ds, s = ds ++ rest ∧ List.Forall₂ Stands (List.replicate n '0') ds := by
  induction n generalizing s with
  | zero => simp [afterDigits]
  | succ n ih =>
    -- One digit of the text for each of the mask.
    cases s with
    | nil =>
      constructor
      · intro h
        cases h
      · rintro ⟨ds, hs, hds⟩
        obtain ⟨c, ds', -, -, rfl⟩ := List.forall₂_cons_left_iff.mp hds
        cases hs
    | cons c s =>
      rw [afterDigits]
      constructor
      · intro h
        split at h
        · next hc =>
          obtain ⟨ds, rfl, hds⟩ := ih.mp h
          exact ⟨c :: ds, rfl, .cons (stands_zero.mpr hc) hds⟩
        · cases h
      · rintro ⟨ds, hs, hds⟩
        obtain ⟨d, ds', hd, hds', rfl⟩ := List.forall₂_cons_left_iff.mp hds
        obtain ⟨rfl, rfl⟩ := List.cons.inj hs
        rw [if_pos (stands_zero.mp hd)]
        exact ih.mpr ⟨ds', rfl, hds'⟩

/-- A shape without a literal zero is gone past exactly if a text begins with what fits its
    mask. -/
theorem afterShape_eq_some_iff {shape : List ShapePart} (hzero : .literal '0' ∉ shape) :
    afterShape shape s = some rest ↔
      ∃ time, s = time ++ rest ∧ List.Forall₂ Stands (maskOf shape) time := by
  induction shape generalizing s with
  | nil => simp [afterShape, maskOf]
  | cons part shape ih =>
    have ih {s : List Char} := ih (s := s) fun h => hzero (List.mem_cons_of_mem _ h)
    cases part with
    | digits n =>
      rw [afterShape, maskOf, Option.bind_eq_some_iff]
      constructor
      · rintro ⟨t, ht, hrest⟩
        obtain ⟨ds, rfl, hds⟩ := afterDigits_eq_some_iff.mp ht
        obtain ⟨time, rfl, htime⟩ := ih.mp hrest
        exact ⟨ds ++ time, (List.append_assoc ..).symm, List.rel_append hds htime⟩
      · -- The mask is cut where the digits end, and the text at the same place.
        rintro ⟨time, rfl, htime⟩
        refine ⟨time.drop n ++ rest, afterDigits_eq_some_iff.mpr ⟨time.take n, ?_, ?_⟩,
          ih.mpr ⟨time.drop n, rfl, ?_⟩⟩
        · rw [← List.append_assoc, List.take_append_drop]
        · simpa using List.forall₂_take n htime
        · simpa using List.forall₂_drop n htime
    | literal c =>
      have hc : c ≠ '0' := by
        rintro rfl
        exact hzero List.mem_cons_self
      rw [maskOf]
      constructor
      · intro h
        cases s with
        | nil => cases h
        | cons d s =>
          rw [afterShape] at h
          split at h
          · next hcd =>
            obtain ⟨time, rfl, htime⟩ := ih.mp h
            exact ⟨d :: time, rfl, .cons ((stands_of_ne hc).mpr hcd.symm) htime⟩
          · cases h
      · rintro ⟨time, rfl, htime⟩
        obtain ⟨d, time', hd, htime', rfl⟩ := List.forall₂_cons_left_iff.mp htime
        rw [List.cons_append, afterShape, if_pos ((stands_of_ne hc).mp hd).symm]
        exact ih.mpr ⟨time', rfl, htime'⟩

theorem isExtension_iff : isExtension rest = true ↔ rest = [] ∨ ∃ ext, rest = '.' :: ext ∧
    ext ≠ [] ∧ ∀ c ∈ ext, c = '_' ∨ Text.isAlphanumeric c = true := by
  unfold isExtension
  split
  · simp
  · simp [isExtensionChar]
  · next hdot => simpa using fun hc => (hdot hc).elim

/-- **A text has the shape of a unit** exactly if it is archival. -/
theorem matchesShape_iff : matchesShape unit.shape s = true ↔ Archival unit s := by
  -- A zero in the mask stands for any digit, so no literal may be one.
  have hzero : .literal '0' ∉ unit.shape := by
    rw [Period.shape_eq]
    cases unit <;> simp [Period.clockShape]
  unfold Archival FitsMask
  rw [Period.mask_eq, matchesShape]
  constructor
  · intro h
    split at h
    · next rest hrest =>
      obtain ⟨time, hs, htime⟩ := (afterShape_eq_some_iff hzero).mp hrest
      exact ⟨time, rest, hs, htime, isExtension_iff.mp h⟩
    · cases h
  · rintro ⟨time, rest, hs, htime, hrest⟩
    simp only [(afterShape_eq_some_iff hzero).mpr ⟨time, hs, htime⟩]
    exact isExtension_iff.mpr hrest

/-! ## Names given -/

variable {t : Int}

/-- Behind a time of day no shape of a unit with another pattern is found, even if the time
    has an extension. -/
theorem not_extension_of_clockShape {p q : Period} (hne : q.pattern ≠ p.pattern)
    (hext : rest = [] ∨ ∃ ext, rest = '.' :: ext) :
    (afterShape q.clockShape (p.clockText t ++ rest)).any isExtension = false := by
  cases p <;> cases q <;> first | exact absurd rfl hne | skip
  all_goals
    rcases hext with rfl | ⟨ext, rfl⟩ <;>
    simp [Period.clockShape, Period.clockText, afterShape, isExtension,
      afterDigits_of_digits (digits_hour t), afterDigits_of_digits (digits_minute t),
      afterDigits_self (digits_hour t), afterDigits_self (digits_minute t)]

/-- Such a name has no shape of another pattern. -/
theorem matchesShape_of_pattern_ne {p q : Period} (hne : q.pattern ≠ p.pattern)
    (hlow : 0 ≤ (Date.ofDayNumber (t / daySeconds)).year)
    (hhigh : (Date.ofDayNumber (t / daySeconds)).year < 10000)
    (hext : rest = [] ∨ ∃ ext, rest = '.' :: ext) :
    matchesShape q.shape (dateText t ++ p.clockText t ++ rest) = false := by
  have hnone := not_extension_of_clockShape (t := t) hne hext
  unfold matchesShape
  rw [List.append_assoc, afterShape_date q hlow hhigh]
  split
  · next found hfound => rwa [hfound] at hnone
  · rfl

/-- **The names that a schedule gives** have the shape of its unit, alone and with an
    extension, as long as the clock shows a year of four digits, and no other shape. -/
theorem hasShape_archiveSuffix (s : Schedule) (hlow : 0 ≤ (Schedule.wallClock s.zone t).date.year)
    (hhigh : (Schedule.wallClock s.zone t).date.year ≤ 9999) {ext : String}
    (hext : isExtension ext.toList = true) :
    hasShape s.unit.shape (s.archiveSuffix t ++ ext).toList = .ok true ∧
      ∀ q : Period, q.pattern ≠ s.unit.pattern →
        hasShape q.shape (s.archiveSuffix t ++ ext).toList = .ok false := by
  have htext : (s.archiveSuffix t ++ ext).toList =
      dateText (s.shown t) ++ s.unit.clockText (s.shown t) ++ ext.toList := by
    rw [String.toList_append, archiveSuffix_shown, String.toList_ofList]
  rw [Reading.date, (s.wallClock_shown t).1] at hlow hhigh
  simp only [hasShape_eq, htext, Except.ok.injEq]
  refine ⟨?_, fun q hne => matchesShape_of_pattern_ne hne hlow (by omega) ?_⟩
  · rw [matchesShape, afterShape_append (afterShape_text s.unit hlow (by omega))]
    exact hext
  · refine (isExtension_iff.mp hext).imp_right ?_
    rintro ⟨name, heq, -⟩
    exact ⟨name, heq⟩

/-! ## Selected -/

/-- **Named after** a live file: its name, a dot and a time of a unit. -/
def NamedAfter (unit : Period) (base y : String) : Prop :=
  ∃ k, y.toList = base.toList ++ '.' :: k ∧ Archival unit k

theorem isArchiveName_iff_namedAfter {base y : String} :
    isArchiveName unit base y = true ↔ NamedAfter unit base y :=
  isArchiveName_iff.trans (exists_congr fun _ => and_congr_right fun _ => matchesShape_iff)

/-- The archives and the other names together are the names that there are. -/
theorem perm_archivesAmong (unit : Period) (base : String) (names : List String) :
    names.Perm (archivesAmong unit base names ++
      names.filter fun y => !isArchiveName unit base y) :=
  (List.filter_append_perm (isArchiveName unit base) names).symm.trans
    ((List.mergeSort_perm _ _).symm.append_right _)

/-- The path of an archive is not that of the live file, nor does it have its name. -/
theorem ne_of_namedAfter {path : Path} {y : String}
    (h : isArchiveName unit (path.fileName?.getD "") y = true) :
    let q := (archiveDirectory path).join ⟨y⟩
    q ≠ path ∧ q.fileName? ≠ path.fileName? := by
  obtain ⟨hslash, hname⟩ := isArchiveName_single (base_single path) h
  obtain ⟨front, hsplits, -⟩ := Path.splits_join (archiveDirectory_ne_nil path) hslash hname
  have hfile : ((archiveDirectory path).join ⟨y⟩).fileName? ≠ path.fileName? := by
    rw [hsplits.fileName?]
    intro heq
    rw [← heq, Option.getD_some] at h
    exact ne_of_isArchiveName h rfl
  exact ⟨fun heq => hfile (congrArg Path.fileName? heq), hfile⟩

/-- **Selected**: of the names in the directory those of archives are told from the others,
    and the least of them are selected, as many as there are more than are to be kept. -/
theorem surplusArchives_select {keep : Nat} {path : Path} {fs : FileSystem} {names : List String}
    (hlist : fs.list (archiveDirectory path) = .ok names) :
    ∃ archives others, names.Perm (archives ++ others) ∧
      (∀ y ∈ archives, NamedAfter unit (path.fileName?.getD "") y) ∧
      (∀ y ∈ others, ¬ NamedAfter unit (path.fileName?.getD "") y) ∧
      archives.Pairwise (· ≤ ·) ∧
      ∃ surplus, surplusArchives unit keep path fs = .ok surplus ∧
        surplus = (archives.take (archives.length - keep)).map
          (fun y => (archiveDirectory path).join ⟨y⟩) ∧
        ∀ q ∈ surplus, q ≠ path ∧ q.fileName? ≠ path.fileName? := by
  have hnamed : ∀ {y}, y ∈ archivesAmong unit (path.fileName?.getD "") names →
      isArchiveName unit (path.fileName?.getD "") y = true := fun hy => (mem_archivesAmong.mp hy).2
  refine ⟨archivesAmong unit (path.fileName?.getD "") names, _, perm_archivesAmong unit _ names,
    fun y hy => isArchiveName_iff_namedAfter.mp (hnamed hy), fun y hy hafter => ?_,
    archivesAmong_ordered unit _ names, _, by rw [surplusArchives_eq, hlist]; rfl, rfl, fun q hq => ?_⟩
  · have hnot := (List.mem_filter.mp hy).2
    rw [isArchiveName_iff_namedAfter.mpr hafter] at hnot
    cases hnot
  · obtain ⟨y, hy, rfl⟩ := List.mem_map.mp hq
    exact ne_of_namedAfter (hnamed (List.mem_of_mem_take hy))

/-- **Retention selects its own archives**: whether a text has the shape of a unit can be told
    of every text, and is so exactly of the archival ones; the names that a schedule of the
    unit gives in the years of four digits are among them, and have no other shape; and in
    every directory the least of the names made so are selected, as many as there are too
    many, and never the live file. -/
theorem retention_selects (unit : Period) :
    (∀ k : String, ∃ b, hasShape unit.shape k.toList = .ok b ∧
      (b = true ↔ Archival unit k.toList)) ∧
    (∀ (s : Schedule) (t : Int), s.unit = unit →
      0 ≤ (Schedule.wallClock s.zone t).date.year →
      (Schedule.wallClock s.zone t).date.year ≤ 9999 → ∀ ext ∈ ["", ".gz"],
        hasShape unit.shape (s.archiveSuffix t ++ ext).toList = .ok true ∧
        ∀ q : Period, q.pattern ≠ unit.pattern →
          hasShape q.shape (s.archiveSuffix t ++ ext).toList = .ok false) ∧
    ∀ (keep : Nat) (path : Path) (fs : FileSystem) (names : List String),
      fs.list (archiveDirectory path) = .ok names →
      ∃ archives others, names.Perm (archives ++ others) ∧
        (∀ y ∈ archives, NamedAfter unit (path.fileName?.getD "") y) ∧
        (∀ y ∈ others, ¬ NamedAfter unit (path.fileName?.getD "") y) ∧
        archives.Pairwise (· ≤ ·) ∧
        ∃ surplus, surplusArchives unit keep path fs = .ok surplus ∧
          surplus = (archives.take (archives.length - keep)).map
            (fun y => (archiveDirectory path).join ⟨y⟩) ∧
          ∀ q ∈ surplus, q ≠ path ∧ q.fileName? ≠ path.fileName? := by
  refine ⟨fun k => ⟨_, hasShape_eq _ _, matchesShape_iff⟩, ?_,
    fun _ _ _ _ hlist => surplusArchives_select hlist⟩
  rintro s t rfl hlow hhigh ext hext
  refine hasShape_archiveSuffix s hlow hhigh ?_
  rcases List.mem_pair.mp hext with rfl | rfl
  · rfl
  · decide

theorem retention_selects_days :
    let s : Schedule := { unit := .days, count := 1, zone := .utc }
    let names := ["app.log", "app.log.2024-03-02", "app.log.2024-03-01.gz", "app.log.old"]
    let fs : FileSystem := { entries := names.map fun y => ([y], .file 1) }
    (Schedule.wallClock .utc 1709287200).date.year = 2024 ∧
      hasShape Period.days.shape (s.archiveSuffix 1709287200 ++ ".gz").toList = .ok true ∧
      fs.list (archiveDirectory ⟨"app.log"⟩) = .ok names ∧
      ∃ surplus, surplusArchives .days 1 ⟨"app.log"⟩ fs = .ok surplus ∧
        ∀ q ∈ surplus, q ≠ ⟨"app.log"⟩ := by
  intro s names fs
  have hyear : (Schedule.wallClock .utc 1709287200).date.year = 2024 := by decide +kernel
  have hlist : fs.list (archiveDirectory ⟨"app.log"⟩) = .ok names := by decide +kernel
  obtain ⟨-, hgiven, hselected⟩ := retention_selects .days
  obtain ⟨hshape, -⟩ := hgiven s 1709287200 rfl (by rw [hyear]; decide) (by rw [hyear]; decide)
    ".gz" (by simp)
  obtain ⟨-, -, -, -, -, -, surplus, hsurplus, -, hlive⟩ := hselected 1 _ fs names hlist
  exact ⟨hyear, hshape, hlist, surplus, hsurplus, fun q hq => (hlive q hq).1⟩

end Logbook.Rotation
