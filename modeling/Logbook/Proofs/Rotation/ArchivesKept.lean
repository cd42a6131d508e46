import Logbook.Proofs.Results
import Logbook.Proofs.Rotation.Timed
import Mathlib.Logic.Relation

/-! # Archives that are kept

    An archive that a rollover has made without a failure is removed by retention alone,
    on every tree and whatever fails later: the rollovers that follow are for later
    periods, and their archives have other names.  A rollover that fails after it has put
    the live file aside leaves its instant due, so that the next line destroys the
    archive it has made.
-/

namespace Logbook

open FileSystem LogFile Rotation
open Path (Splits)
open Time (inCalendar daySeconds)

namespace Rotation

/-! ## Sinks that roll over at set times -/

/-- **Dated**: an instant has a date, and so has the week before it. -/
def Dated (t : Int) : Prop := -8334601228800 + 7 * daySeconds ≤ t ∧ t ≤ 8210266876799

/-- **Settled**: a sink that rolls over in the way of `p`, at the instant after one of the
    instants `P`, with the settings that it was made with. -/
structure Settled (path : Path) (p : TimedRotation) (P : Int → Prop) (s : FileSink) : Prop where
  policy : ∃ c, P c ∧ s.policy = .timed { p with dueAt := p.schedule.next c }
  path : s.file.path = path
  namer : s.file.namer? = none
  rotator : s.file.rotator? = none
  appends : s.file.Appends

/-- **Moves on**: instants from which every later one is reached that comes when the one
    after them has come. -/
structure MovesOn (s : Schedule) (P : Int → Prop) : Prop where
  first : ∀ c, P c → -8334601228800 + 7 * daySeconds ≤ c
  later : ∀ c t, P c → s.next c ≤ t → Dated t → P t

variable {path : Path} {p : TimedRotation} {P : Int → Prop} {s s' : FileSink} {w w' : World}
  {text : String} {r : Except LogError Unit} {front : List Char} {x y : String} {d l : Location}
  {id : FileId} {bytes : List UInt8} {c t : Int}

/-- An instant after which one has come, and the start of its period, have dates. -/
theorem MovesOn.dated_slot (hP : MovesOn p.schedule P) (hutc : p.schedule.InUtc) (hc : P c)
    (hdue : p.schedule.next c ≤ t) (ht : Dated t) :
    inCalendar c = true ∧ inCalendar (p.schedule.slot c) = true := by
  have hfirst := hP.first c hc
  have hlt := hutc.lt_next c
  have hcal : inCalendar c = true := by
    rw [Schedule.inCalendar_iff]
    unfold Dated at ht
    unfold daySeconds at *
    omega
  have hslot := hutc.slot_range hcal
  refine ⟨hcal, ?_⟩
  rw [Schedule.inCalendar_iff] at hcal ⊢
  omega

/-- The period that ends at the instant that is due. -/
theorem periodStart_eq (hutc : p.schedule.InUtc) (now : Int) :
    ({ p with dueAt := p.schedule.next c } : TimedRotation).periodStart now = p.schedule.slot c := by
  rw [TimedRotation.periodStart, hutc.keepWallClock_eq]
  rfl

/-- A live file with the same settings settles a sink again. -/
theorem Settled.update {Q : Int → Prop} (h : Settled path p P s) {f : LogFile}
    (happends : f.Appends) (hsettings : s.file.SameSettings f) (hc : Q c) :
    Settled path p Q
      { s with policy := .timed { p with dueAt := p.schedule.next c }, file := f } := by
  refine ⟨⟨c, hc, rfl⟩, hsettings.path.trans h.path, ?_, ?_, happends⟩
  · exact hsettings.namer.trans h.namer
  · exact hsettings.rotator.trans h.rotator

/-- What comes before a line leaves a sink settled. -/
theorem Settled.prepare (h : Settled path p P s) (hP : MovesOn p.schedule P)
    (hnow : Dated (w.now p.clock)) (hprepare : s.prepare text w = (r, s', w')) :
    Settled path p P s' := by
  obtain ⟨c, hc, hpolicy⟩ := h.policy
  rcases prepare_timed hpolicy hprepare with
    ⟨-, -, p', rfl, ⟨-, rfl⟩ | ⟨hdue, -, rfl⟩⟩ | ⟨hdue, -, r₁, f₁, hroll, hcases⟩
  · exact h.update h.appends (.refl _) hc
  · exact h.update h.appends (.refl _) (hP.later c _ hc hdue hnow)
  · obtain ⟨happends, hsettings⟩ := rollOver_settings h.appends hroll
    rcases hcases with ⟨e, -, -, rfl⟩ | ⟨p', rfl, -, rfl⟩
    · exact h.update happends hsettings hc
    · obtain rfl := rollOver_next hroll
      exact h.update happends hsettings (hP.later c _ hc hdue hnow)

/-- The line itself leaves a sink settled, and loses nothing. -/
theorem Settled.emit (h : Settled path p P s) (hP : MovesOn p.schedule P)
    (hnow : Dated (w.now p.clock)) (hemit : s.emit text w = (r, s', w')) :
    Settled path p P s' ∧ ∃ r₁ s₁ w₁, s.prepare text w = (r₁, s₁, w₁) ∧
      w₁.files.Keeps w'.files ∧ s'.policy = s₁.policy := by
  obtain ⟨r₁, s₁, w₁, w₂, hprepare, -, -, hwrite⟩ := FileSink.emit_cases hemit
  have h₁ := h.prepare hP hnow hprepare
  rcases hwrite with ⟨e, fs, hwrite, -, rfl, rfl⟩ | ⟨f, fs, hwrite, -, rfl, rfl⟩
  · obtain ⟨hkeeps, -⟩ := writeLine_keeps h₁.appends hwrite
    exact ⟨h₁, r₁, _, w₁, hprepare, hkeeps, rfl⟩
  · obtain ⟨hkeeps, hwritten⟩ := writeLine_keeps h₁.appends hwrite
    obtain ⟨happends, hsettings⟩ := hwritten f rfl
    obtain ⟨c, hc, hpolicy⟩ := h₁.policy
    have hupdate := h₁.update happends hsettings hc
    rw [← hpolicy] at hupdate
    exact ⟨hupdate, r₁, s₁, w₁, hprepare, hkeeps, rfl⟩

/-! ## One line -/

/-- The file that has neither the name of the live file nor that of an archive to come. -/
def Aside (p : TimedRotation) (P : Int → Prop) (x y : String) : Prop :=
  y ≠ x ∧ ∀ c, P c → inCalendar c = true → inCalendar (p.schedule.slot c) = true →
    y ≠ x ++ "." ++ p.schedule.archiveSuffix (p.schedule.slot c)

/-- **Before a line** no file set aside is lost but an archive that leaves enough greater
    ones behind. -/
theorem prepare_spares (h : Settled path p P s) (hP : MovesOn p.schedule P)
    (hutc : p.schedule.InUtc) (hnow : Dated (w.now p.clock)) (hsplits : path.Splits front x)
    (hwf : w.files.WellFormed) (hprepare : s.prepare text w = (r, s', w')) :
    w'.files.WellFormed ∧ ∀ {d y id bytes}, Aside p P x y → Holds (d ++ [y]) id bytes w.files →
      Holds (d ++ [y]) id bytes w'.files ∨
        Crowded p.schedule.unit (path.fileName?.getD "") p.backups (d ++ [y]) w'.files := by
  obtain ⟨c, hc, hpolicy⟩ := h.policy
  rcases prepare_timed hpolicy hprepare with ⟨-, rfl, -⟩ | ⟨hdue, hspecial, r₁, f₁, hroll, -⟩
  · exact ⟨hwf, fun _ hholds => .inl hholds⟩
  · obtain ⟨hcal, hslot⟩ := hP.dated_slot hutc hc hdue hnow
    obtain ⟨hslash, hnull⟩ := archiveSuffix_plain p.schedule (p.schedule.slot c)
    have hspares := rollOver_spares hwf h.appends (h.path ▸ hsplits) h.namer h.rotator
      (congrArg _ (periodStart_eq hutc _)) hslash hnull hspecial hroll
    rw [h.path] at hspares
    exact ⟨hspares.1, fun haside hholds => hspares.2 haside.1 (haside.2 c hc hcal hslot) hholds⟩

/-- **A line** loses no file set aside but an archive that leaves enough greater ones
    behind. -/
theorem emit_spares (h : Settled path p P s) (hP : MovesOn p.schedule P)
    (hutc : p.schedule.InUtc) (hnow : Dated (w.now p.clock)) (hsplits : path.Splits front x)
    (hwf : w.files.WellFormed) (hemit : s.emit text w = (r, s', w')) :
    w'.files.WellFormed ∧ ∀ {d y id bytes}, Aside p P x y → Holds (d ++ [y]) id bytes w.files →
      Holds (d ++ [y]) id bytes w'.files ∨
        Crowded p.schedule.unit (path.fileName?.getD "") p.backups (d ++ [y]) w'.files := by
  obtain ⟨-, r₁, s₁, w₁, hprepare, hkeeps, -⟩ := h.emit hP hnow hemit
  obtain ⟨hwf₁, hspares⟩ := prepare_spares h hP hutc hnow hsplits hwf hprepare
  refine ⟨hkeeps.wellFormed hwf₁, fun haside hholds => ?_⟩
  exact (hspares haside hholds).imp (fun hh => hh.keeps hkeeps) fun hc => hc.keeps hkeeps

/-! ## Runs -/

/-- **Run**: steps of a sink while a clock shows instants that have dates. -/
def Run (clock : Clock) : FileSink × World → FileSink × World → Prop :=
  Relation.ReflTransGen fun a b => FileSink.Step a b ∧ Dated (a.2.now clock)

/-- A run leaves a sink settled. -/
theorem Settled.run {a b : FileSink × World} (h : Settled path p P a.1)
    (hP : MovesOn p.schedule P) (hrun : Run p.clock a b) : Settled path p P b.1 := by
  induction hrun with
  | refl => exact h
  | tail _ hstep ih =>
    obtain ⟨hstep, hnow⟩ := hstep
    cases hstep with
    | emit text hemit => exact (ih.emit hP hnow hemit).1
    | flush _ => exact ih
    | close hclose =>
      simp only [Sink.close, Prod.mk.injEq, Sink.file.injEq] at hclose
      obtain ⟨-, rfl⟩ := hclose
      exact ⟨ih.policy, ih.path, ih.namer, ih.rotator, ih.appends.close⟩
    | elsewhere _ => exact ih

/-- A run leaves a tree well-formed. -/
theorem wellFormed_run {a b : FileSink × World} (h : Settled path p P a.1)
    (hP : MovesOn p.schedule P) (hutc : p.schedule.InUtc) (hsplits : path.Splits front x)
    (hwf : a.2.files.WellFormed) (hrun : Run p.clock a b) : b.2.files.WellFormed := by
  induction hrun with
  | refl => exact hwf
  | tail hbefore hstep ih =>
    obtain ⟨hstep, hnow⟩ := hstep
    cases hstep with
    | emit text hemit =>
      exact (emit_spares (h.run hP hbefore) hP hutc hnow hsplits ih hemit).1
    | flush _ => exact ih
    | close _ => exact ih
    | elsewhere halike => exact ih.congr halike.entries

/-- A sink that has been made is settled, and its tree well-formed. -/
theorem settled_build {o : FileSinkOptions} {w₀ : World} (hpolicy : o.policy? = some (.timed p))
    (hnamer : o.namer? = none) (hrotator : o.rotator? = none) (hwf : w₀.files.WellFormed)
    (hnow : Dated (w.now p.clock)) (h : FileSink.build o w₀ = (.ok s, w)) :
    Settled o.path p (fun c => -8334601228800 + 7 * daySeconds ≤ c) s ∧ w.files.WellFormed := by
  obtain ⟨f, hrenewed, hfile, hattached, -⟩ := FileSink.build_ok hpolicy h
  obtain ⟨hkeeps, happends, hsettings⟩ := hrenewed.keeps ⟨rfl, nofun⟩
  -- The first instant is counted from the last change, or from the present time.
  obtain ⟨c, hc, hattach⟩ : ∃ c, -8334601228800 + 7 * daySeconds ≤ c ∧
      p.attach s.file w = { p with dueAt := p.schedule.next c } := by
    obtain ⟨c, hattach, rfl | ⟨hpos, -⟩⟩ := attach_eq p s.file w
    · exact ⟨_, hnow.1, hattach⟩
    · exact ⟨c, by unfold daySeconds; omega, hattach⟩
  refine ⟨⟨⟨c, hc, hattached.trans (congrArg Policy.timed hattach)⟩, ?_, ?_, ?_, ?_⟩,
    hkeeps.wellFormed hwf⟩
  · rw [hfile]
    exact hsettings.path
  · rw [hfile]
    exact hnamer
  · rw [hfile]
    exact hrotator
  · rw [hfile]
    exact ⟨happends.mode, happends.handle⟩

/-! ## Archives that are made -/

/-- **Archives**: the rollover that is due moves the live file, a file of the given
    identity, to a location that has the name of its archive. -/
def Archives (s : FileSink) (w : World) (l : Location) (id : FileId) : Prop :=
  ∃ p d x w₁, s.policy = .timed p ∧ p.dueAt ≤ w.now p.clock ∧
    w.files.edge s.file.path = .ok ⟨d, .name x, false⟩ ∧
    w.files.entryAt? (d ++ [x]) = some (.file id) ∧
    p.putAside s.file.close (w.now p.clock) w = (.ok (), w₁) ∧
    l = d ++ [x ++ "." ++ p.schedule.archiveSuffix (p.periodStart (w.now p.clock))] ∧
    w₁.files.entryAt? l = some (.file id)

/-- Instants whose periods begin later than a given one, in the unit of the schedule. -/
def Later (s : Schedule) (n : Int) (c : Int) : Prop := Dated c ∧ n < s.slot c / s.unit.grain

theorem Later.movesOn (hutc : p.schedule.InUtc) (n : Int) : MovesOn p.schedule (Later p.schedule n) := by
  refine ⟨fun c hc => hc.1.1, fun c t hc hdue ht => ⟨ht, ?_⟩⟩
  have hcal : ∀ {c}, Dated c → inCalendar c = true := by
    intro c hc
    rw [Schedule.inCalendar_iff]
    unfold Dated daySeconds at hc
    omega
  have hadvance := hutc.slot_advances (hcal hc.1) (hcal ht) hdue
  have hless := hc.2
  omega

/-- The archive of an earlier period stands aside. -/
theorem aside_of_later (hutc : p.schedule.InUtc) (hslot : inCalendar (p.schedule.slot c) = true) :
    Aside p (Later p.schedule (p.schedule.slot c / p.schedule.unit.grain)) x
      (x ++ "." ++ p.schedule.archiveSuffix (p.schedule.slot c)) := by
  refine ⟨suffix_ne _ _, fun c' hc' _ hslot' heq => ?_⟩
  have hsame := archiveSuffix_inj hutc.zone hslot hslot' (suffix_inj.mp heq)
  have hless := hc'.2
  omega

/-- **An archive is made** by a rollover without a failure: it is there after the line, or
    leaves enough greater ones behind, and from then on the sink is settled on later
    periods. -/
theorem emit_archives (h : Settled path p P s) (hP : MovesOn p.schedule P)
    (hutc : p.schedule.InUtc) (hnow : Dated (w.now p.clock)) (hwf : w.files.WellFormed)
    (harchives : Archives s w l id) (hemit : s.emit text w = (r, s', w'))
    (hok : (s.prepare text w).1 = .ok ()) :
    (Holds l id (w.files.contentOf id) w'.files ∨
        Crowded p.schedule.unit (path.fileName?.getD "") p.backups l w'.files) ∧
      ∃ d x y n, l = d ++ [y] ∧ (∃ front, path.Splits front x) ∧ Aside p (Later p.schedule n) x y ∧
        Settled path p (Later p.schedule n) s' := by
  obtain ⟨c, hc, hpolicy⟩ := h.policy
  obtain ⟨p', d, x, v₁, hpolicy', hdue, hedge, hentry, hput, rfl, hmade⟩ := harchives
  rw [hpolicy] at hpolicy'
  obtain rfl := Policy.timed.inj hpolicy'
  rw [periodStart_eq hutc] at hmade ⊢
  -- The live file is a file, so that there is a rollover.
  obtain ⟨hleads, hlen⟩ := leads_of_edge hedge
  obtain ⟨front, m, hsplits, -⟩ := hleads.way
  have hspecial : w.files.isSpecial s.file.path = false :=
    hleads.isSpecial_eq_false fun e he => ⟨id, Option.some.inj (he.symm.trans hentry)⟩
  obtain ⟨hcal, hslot⟩ := hP.dated_slot hutc hc hdue hnow
  obtain ⟨hslash, hnull⟩ := archiveSuffix_plain p.schedule (p.schedule.slot c)
  have hput_spares := putAside_spares (f := s.file.close) hwf hsplits h.namer h.rotator
    (congrArg _ (periodStart_eq hutc _)) hslash hnull hspecial hput
  have hholds : Holds (d ++ [x ++ "." ++ p.schedule.archiveSuffix (p.schedule.slot c)]) id
      (w.files.contentOf id) v₁.files := by
    have hcontent : w.files.contentOf id = v₁.files.contentOf id := by
      rw [contentOf, contentOf, hput_spares.data]
    exact ⟨hmade, [], (List.append_nil _).trans hcontent⟩
  obtain ⟨hsettled', r₁, s₁, w₁, hprepare, hkeeps, hsame⟩ := h.emit hP hnow hemit
  rw [hprepare] at hok
  obtain rfl : r₁ = .ok () := hok
  rcases prepare_timed_ok hpolicy hspecial hprepare with
    ⟨hearly, -⟩ | ⟨-, p₁, f₂, hroll, rfl⟩
  · exact absurd hdue (not_le.mpr hearly)
  · obtain ⟨-, hafter⟩ := rollOver_after h.appends hput hput_spares.wellFormed hroll
    obtain rfl := rollOver_next hroll
    constructor
    · have hstays := hafter hholds
      rw [h.path] at hstays
      exact hstays.imp (fun hh => hh.keeps hkeeps) fun hc => hc.keeps hkeeps
    · refine ⟨d, x, _, p.schedule.slot c / p.schedule.unit.grain, rfl, ⟨front, h.path ▸ hsplits⟩,
        aside_of_later hutc hslot, ?_⟩
      have hnext : Later p.schedule (p.schedule.slot c / p.schedule.unit.grain)
          (w.now p.clock) := by
        refine ⟨hnow, hutc.slot_advances hcal ?_ hdue⟩
        rw [Schedule.inCalendar_iff]
        unfold Dated daySeconds at hnow
        omega
      exact ⟨⟨_, hnext, hsame⟩, hsettled'.path, hsettled'.namer, hsettled'.rotator,
        hsettled'.appends⟩

/-! ## A rollover every ten seconds -/

/-- A rollover that has put the file aside, of a sink that opens its file late: to remove
    archives is all that is left to do. -/
theorem rollOver_of_putAside {f : LogFile} {fs₁ fs₂ : FileSystem} {removed : Except LogError Unit}
    (hdelay : f.close.delay = true)
    (hput : p.putAside f.close (w.now p.clock) w = (.ok (), { w with files := fs₁ }))
    (hretain : p.retain f.close fs₁ = (removed, fs₂)) :
    p.rollOver f w = (removed.map fun _ => { p with dueAt := p.schedule.next (w.now p.clock) },
      f.close, { w with files := fs₂ }) := by
  unfold TimedRotation.rollOver
  dsimp only
  rw [hput]
  dsimp only
  rw [hretain]
  cases removed with
  | error e => rfl
  | ok u =>
    dsimp only
    rw [if_pos hdelay]
    rfl

/-- **A line behind a rollover** is written whether or not the rollover failed; the
    instant is the next one if it did not. -/
theorem emit_of_rollOver {f f' : LogFile} {w₁ : World} {fs : FileSystem}
    {rolled : Except LogError TimedRotation} (hpolicy : s.policy = .timed p)
    (hdue : p.isDue s.file w = (true, p)) (hroll : p.rollOver s.file w = (rolled, f, w₁))
    (hwrite : f.writeLine text s.terminator w₁.files = (.ok f', fs)) :
    ∃ w', s.emit text w =
        (.ok (), { s with policy := .timed (rolled.toOption.getD p), file := f' }, w') ∧
      w'.files = fs ∧ w'.clocks = w₁.clocks := by
  unfold FileSink.emit FileSink.prepare
  rw [isDue_timed hpolicy, hdue]
  dsimp only
  rw [rollOver_timed s p, hroll]
  cases rolled with
  | ok p' =>
    dsimp only
    rw [hwrite]
    exact ⟨_, rfl, rfl, rfl⟩
  | error e =>
    -- The failure is reported, which touches neither the files nor the clocks.
    dsimp only [World.complain, World.report]
    rw [hwrite]
    exact ⟨_, rfl, rfl, rfl⟩

/-- **A line that is due**, of a sink that opens its file late: the sink has rolled over,
    and is due at the next instant if no removal failed, else as before. -/
theorem emit_due {p : TimedRotation} {now : Int} {fs : FileSystem} {terminator : String}
    {names ys : List String} (text : String) (closed : LogFile) (fs₁ fs₂ fs₃ : FileSystem)
    (ok : Bool) (hpolicy : s.policy = .timed p)
    (happends : s.file.Appends) (hterminator : s.terminator = terminator)
    (hclosed : s.file.close = closed) (hrotator : closed.rotator? = none)
    (hdelay : closed.delay = true) (hnow : w.now p.clock = now) (hdue : p.dueAt ≤ now)
    (hfs : w.files = fs) (hspecial : fs.isSpecial closed.path = false)
    (hput : (p.putAside closed now { files := fs }).1.isOk = true)
    (hmoved : (p.putAside closed now { files := fs }).2.files = fs₁)
    (hbackups : p.backups ≠ 0) (hlist : fs₁.list (archiveDirectory closed.path) = .ok names)
    (hys : archivesAmong p.schedule.unit (closed.path.fileName?.getD "") names = ys)
    (hremoved : (TimedRotation.removeAll ((allButLast p.backups ys).map fun y =>
      (archiveDirectory closed.path).join ⟨y⟩) fs₁).1.isOk = ok)
    (hleft : (TimedRotation.removeAll ((allButLast p.backups ys).map fun y =>
      (archiveDirectory closed.path).join ⟨y⟩) fs₁).2 = fs₂)
    (hwritten : (closed.writeLine text terminator fs₂).1.isOk = true)
    (hfiles : (closed.writeLine text terminator fs₂).2 = fs₃) :
    ∃ s' w', s.emit text w = (.ok (), s', w') ∧
      s'.policy = .timed (if ok then { p with dueAt := p.schedule.next now } else p) ∧
      s'.file.Appends ∧ s'.terminator = terminator ∧ s'.file.close = closed ∧ w'.files = fs₃ ∧
      w'.clocks = w.clocks := by
  subst hterminator hclosed hfs
  have hput' : p.putAside s.file.close now w = (.ok (), { w with files := fs₁ }) := by
    rw [putAside_files hrotator, eq_ok_of_isOk hput, hmoved]
  have hretain := retain_eq hbackups hlist hys
  have hasked : p.isDue s.file w = (true, p) := by
    have hplain : w.files.isSpecial s.file.path = false := hspecial
    rw [TimedRotation.isDue, if_neg (by omega), if_neg (by simp [hplain])]
  cases hremove : TimedRotation.removeAll ((allButLast p.backups ys).map fun y =>
      (archiveDirectory s.file.close.path).join ⟨y⟩) fs₁ with
  | mk removed fs' =>
    rw [hremove] at hremoved hleft hretain
    obtain rfl : fs' = fs₂ := hleft
    have hroll := rollOver_of_putAside hdelay (hnow ▸ hput') hretain
    cases hwrite : s.file.close.writeLine text s.terminator fs' with
    | mk written fs =>
      rw [hwrite] at hwritten hfiles
      obtain rfl : fs = fs₃ := hfiles
      obtain ⟨-, hopened⟩ := writeLine_keeps happends.close hwrite
      cases written with
      | error e => cases hwritten
      | ok f =>
        -- The new live file has the settings of the old one.
        obtain ⟨happends', hsettings⟩ := hopened f rfl
        have hclose : f.close = s.file.close := by
          rw [hsettings]
          rfl
        obtain ⟨w', hemit, hfiles', hclocks⟩ := emit_of_rollOver hpolicy hasked hroll hwrite
        refine ⟨_, w', hemit, ?_, happends', rfl, hclose, hfiles', hclocks⟩
        rw [hnow]
        cases removed with
        | ok u =>
          obtain rfl : true = ok := hremoved
          rfl
        | error e =>
          obtain rfl : false = ok := hremoved
          rfl

/-- No archive is crowded out where no name is greater. -/
theorem not_crowded {fs : FileSystem} {unit : Period} {base : String} {keep : Nat}
    (h : ∀ z ∈ fs.childNames d, ¬ y < z) : ¬ Crowded unit base keep (d ++ [y]) fs := by
  rintro ⟨hpos, d', y', zs, hl, -, hlen, hzs⟩
  obtain ⟨rfl, hy⟩ := List.append_inj' hl rfl
  obtain rfl : y = y' := by simpa using hy
  obtain ⟨z, hz⟩ := List.exists_mem_of_length_pos (Nat.lt_of_lt_of_le hpos hlen)
  obtain ⟨hlt, -, hmem⟩ := hzs z hz
  exact h z hmem hlt

/-- A rollover every ten seconds that keeps one archive. -/
def everyTenSeconds : TimedRotation :=
  { schedule := ⟨.seconds, 10, .utc, none⟩, backups := 1, clock := .manual 0 }

/-- A sink with that rollover, which is due at an instant. -/
def tenSecondSink (due : Int) : FileSink :=
  { file := { path := ⟨"timed.log"⟩, delay := true }
    policy := .timed { everyTenSeconds with dueAt := due } }

/-- A tree in which the file of one line is followed by files of the given lines. -/
def treeOf (entries : List (Location × Entry)) (lines : List String) : FileSystem :=
  { entries
    data := #[{}, { content := lineBytes "first" "\n", modified := 1709287200 }, {}] ++
      (lines.map fun line => { content := lineBytes line "\n" }).toArray }

/-- A world with that tree at an instant. -/
def worldOf (entries : List (Location × Entry)) (lines : List String) (now : Int) : World :=
  { files := treeOf entries lines, clocks := #[{ seconds := now }] }

/-- The sink is the one that is made for the file that was changed ten seconds before. -/
theorem build_tenSecondSink {entries : List (Location × Entry)} {now : Int}
    (h : everyTenSeconds.attach (tenSecondSink 0).file (worldOf entries [] now) =
      { everyTenSeconds with dueAt := 1709287210 }) :
    FileSink.build
        { path := ⟨"timed.log"⟩, delay := true, policy? := some (.timed everyTenSeconds) }
        (worldOf entries [] now) = (.ok (tenSecondSink 1709287210), worldOf entries [] now) := by
  show (Except.ok { tenSecondSink 0 with policy := .timed (everyTenSeconds.attach
    (tenSecondSink 0).file (worldOf entries [] now)) }, worldOf entries [] now) = _
  rw [h]
  rfl

/-- What putting aside comes to says whether the rollover that is due makes an archive. -/
theorem archives_of_putAside {p : TimedRotation} {s : FileSink} {w : World} (d : Location)
    (x : String) {l : Location} {id : FileId} (hpolicy : s.policy = .timed p)
    (hdue : p.dueAt ≤ w.now p.clock) (hedge : w.files.edge s.file.path = .ok ⟨d, .name x, false⟩)
    (hentry : w.files.entryAt? (d ++ [x]) = some (.file id))
    (hput : (p.putAside s.file.close (w.now p.clock) w).1.isOk = true)
    (hl : l = d ++ [x ++ "." ++ p.schedule.archiveSuffix (p.periodStart (w.now p.clock))])
    (hmade : (p.putAside s.file.close (w.now p.clock) w).2.files.entryAt? l = some (.file id)) :
    Archives s w l id := by
  have hpair : p.putAside s.file.close (w.now p.clock) w =
      (.ok (), (p.putAside s.file.close (w.now p.clock) w).2) :=
    Prod.ext (eq_ok_of_isOk hput) rfl
  exact ⟨p, d, x, _, hpolicy, hdue, hedge, hentry, hpair, hl, hmade⟩

/-! ## Archives that stay -/

/-- **An archive stays**: on every well-formed tree and after any run of a sink, the
    archive of a rollover without a failure stays where it is with all it holds, at this
    line and at every line of any run that follows, unless it leaves behind as many
    archives with greater names as are to be kept. -/
theorem archive_stays {o : FileSinkOptions} {w₀ w₁ : World} {s₀ : FileSink}
    (hpolicy : o.policy? = some (.timed p)) (hnamer : o.namer? = none)
    (hrotator : o.rotator? = none) (hutc : p.schedule.InUtc) (hwf : w₀.files.WellFormed)
    (hbuild : FileSink.build o w₀ = (.ok s₀, w₁)) (hstart : Dated (w₁.now p.clock))
    (hbefore : Run p.clock (s₀, w₁) (s, w)) (hnow : Dated (w.now p.clock))
    (harchives : Archives s w l id) (hok : (s.prepare text w).1 = .ok ())
    (hemit : s.emit text w = (r, s', w')) :
    (Holds l id (w.files.contentOf id) w'.files ∨
        Crowded p.schedule.unit (o.path.fileName?.getD "") p.backups l w'.files) ∧
      ∀ t v bytes, Run p.clock (s', w') (t, v) → Dated (v.now p.clock) →
        Holds l id bytes v.files → ∀ text r t' v', t.emit text v = (r, t', v') →
          Holds l id bytes v'.files ∨
            Crowded p.schedule.unit (o.path.fileName?.getD "") p.backups l v'.files := by
  obtain ⟨hsettled₀, hwf₁⟩ := settled_build hpolicy hnamer hrotator hwf hstart hbuild
  have hP : MovesOn p.schedule fun c => -8334601228800 + 7 * daySeconds ≤ c :=
    ⟨fun _ hc => hc, fun _ _ _ _ ht => ht.1⟩
  have hsettled : Settled o.path p _ s := hsettled₀.run hP hbefore
  -- The path names a file, since there is an archive of it.
  obtain ⟨front, x, hsplits⟩ : ∃ front x, o.path.Splits front x := by
    have hmade := harchives
    obtain ⟨-, d, x, -, -, -, hedge, -⟩ := hmade
    obtain ⟨front, m, hsplits, -⟩ := (leads_of_edge hedge).1.way
    exact ⟨front, x, hsettled.path ▸ hsplits⟩
  have hwf_s : w.files.WellFormed := wellFormed_run hsettled₀ hP hutc hsplits hwf₁ hbefore
  obtain ⟨hmade, d, x', y, n, rfl, ⟨front', hsplits'⟩, haside, hsettled'⟩ :=
    emit_archives hsettled hP hutc hnow hwf_s harchives hemit hok
  have hwf' := (emit_spares hsettled hP hutc hnow hsplits hwf_s hemit).1
  refine ⟨hmade, fun t v bytes hrun hnow' hholds text' r' t' v' hemit' => ?_⟩
  have hlater := Later.movesOn hutc n
  have hsettled_t : Settled o.path p _ t := hsettled'.run hlater hrun
  have hwf_v : v.files.WellFormed := wellFormed_run hsettled' hlater hutc hsplits' hwf' hrun
  exact (emit_spares hsettled_t hlater hutc hnow' hsplits' hwf_v hemit').2 haside hholds

/-- The archive of ten seconds is there after the line that makes it, and is removed at the
    line that makes the next one, of which one is to be kept. -/
theorem archive_stays_for_a_period :
    let w := worldOf [(["timed.log"], .file 1)] [] 1709287210
    let l := ["timed.log.2024-03-01_10-00-00"]
    ∃ s' w' s'' w'', (tenSecondSink 1709287210).emit "second" w = (.ok (), s', w') ∧
      Holds l 1 (w.files.contentOf 1) w'.files ∧
      s'.emit "third" { w' with clocks := #[{ seconds := 1709287220 }] } = (.ok (), s'', w'') ∧
      Crowded .seconds "timed.log" 1 l w''.files := by
  intro w l
  let l₂ := ["timed.log.2024-03-01_10-00-10"]
  have hnow : ∀ {v : World} {now : Int}, v.clocks = #[{ seconds := now }] →
      v.now everyTenSeconds.clock = now := by
    intro v now hv
    simp [World.now, everyTenSeconds, hv]
  have hfirst : (tenSecondSink 1709287210).file.Appends := ⟨rfl, fun _ hnone => by cases hnone⟩
  obtain ⟨s', w', hsecond, hpolicy, happends, hend, hclose, hfiles, hclocks⟩ :=
    emit_due (s := tenSecondSink 1709287210) (w := w)
      (p := { everyTenSeconds with dueAt := 1709287210 }) "second" (tenSecondSink 0).file
      (treeOf [(l, .file 1)] []) (treeOf [(l, .file 1)] [])
      (treeOf [(["timed.log"], .file 3), (l, .file 1)] ["second"]) true
      rfl hfirst rfl rfl rfl rfl (hnow rfl) (by decide) rfl (by decide +kernel)
      (by decide +kernel) (by decide +kernel) (by decide)
      (show _ = Except.ok ["timed.log.2024-03-01_10-00-00"] by decide +kernel)
      (show archivesAmong _ _ _ = ["timed.log.2024-03-01_10-00-00"] from
        archivesAmong_eq (by decide) (by decide) fun _ =>
          (show List.Perm _ (List.filter _ _) by decide +kernel).mem_iff.trans List.mem_filter)
      (by decide +kernel) (by decide +kernel) (by decide +kernel) (by decide +kernel)
  have hnext : everyTenSeconds.schedule.next 1709287210 = 1709287220 := by decide +kernel
  rw [if_pos rfl, hnext] at hpolicy
  -- Nothing but the clock is different when the third line comes.
  obtain ⟨s'', w'', hthird, -, -, -, -, hfiles', -⟩ :=
    emit_due (s := s') (w := { w' with clocks := #[{ seconds := 1709287220 }] })
      (p := { everyTenSeconds with dueAt := 1709287220 }) "third" (tenSecondSink 0).file
      (treeOf [(l₂, .file 3), (l, .file 1)] ["second"])
      (treeOf [(l₂, .file 3)] ["second"])
      (treeOf [(["timed.log"], .file 4), (l₂, .file 3)] ["second", "third"]) true
      hpolicy happends hend hclose rfl rfl (hnow rfl) (by decide) hfiles (by decide +kernel)
      (by decide +kernel) (by decide +kernel) (by decide)
      (show _ = Except.ok ["timed.log.2024-03-01_10-00-10", "timed.log.2024-03-01_10-00-00"]
        by decide +kernel)
      (show archivesAmong _ _ _ =
          ["timed.log.2024-03-01_10-00-00", "timed.log.2024-03-01_10-00-10"] from
        archivesAmong_eq (by decide) (by decide) fun _ =>
          (show List.Perm _ (List.filter _ _) by decide +kernel).mem_iff.trans List.mem_filter)
      (by decide +kernel) (by decide +kernel) (by decide +kernel) (by decide +kernel)
  have hutc : everyTenSeconds.schedule.InUtc := ⟨rfl, by decide, fun t ht => by cases ht⟩
  have hwf : w.files.WellFormed := ⟨by decide, by decide, by decide⟩
  have harchives : Archives (tenSecondSink 1709287210) w l 1 :=
    archives_of_putAside [] "timed.log" rfl (by decide) (by decide +kernel) (by decide +kernel)
      (by decide +kernel) (by decide +kernel) (by decide +kernel)
  have hbase : (⟨"timed.log"⟩ : Path).fileName?.getD "" = "timed.log" := by decide +kernel
  have hdated : ∀ {v : World}, v.clocks = w.clocks → Dated (v.now everyTenSeconds.clock) := by
    intro v hv
    rw [hnow hv]
    exact ⟨by decide, by decide⟩
  obtain ⟨hmade, hlater⟩ := archive_stays
    (o := { path := ⟨"timed.log"⟩, delay := true, policy? := some (.timed everyTenSeconds) })
    rfl rfl rfl hutc hwf (build_tenSecondSink (by decide +kernel)) (hdated rfl) .refl
    (hdated rfl) harchives (eq_ok_of_isOk (by decide +kernel)) hsecond
  have hrun : Run everyTenSeconds.clock (s', w')
      (s', { w' with clocks := #[{ seconds := 1709287220 }] }) :=
    .single ⟨.elsewhere (.of_data rfl rfl), hdated hclocks⟩
  have hthere : Holds l 1 (w.files.contentOf 1) w'.files := by
    rw [hfiles]
    exact ⟨by decide +kernel, by decide +kernel⟩
  have hstays := hlater _ _ _ hrun (by rw [hnow rfl]; exact ⟨by decide, by decide⟩) hthere _ _ _ _
    hthird
  simp only [hbase] at hmade hstays
  refine ⟨s', w', s'', w'', hsecond, hmade.resolve_right fun hcrowded => ?_, hthird,
    hstays.resolve_left fun hholds => ?_⟩
  · rw [hfiles] at hcrowded
    exact not_crowded (d := []) (by decide +kernel) hcrowded
  · have hentry := hholds.entry
    rw [hfiles'] at hentry
    revert hentry
    decide +kernel

/-- **An archive destroyed**: a directory with the name of an old archive is in the way of
    retention, so that the rollover fails when its archive has been made.  The instant
    stays due, and the next line puts another archive in the place of that one. -/
theorem archive_destroyed :
    let w := worldOf [(["timed.log"], .file 1), (["timed.log.2000-01-01_00-00-00"], .directory 2)]
      [] 1709287210
    let l := ["timed.log.2024-03-01_10-00-00"]
    FileSink.build
        { path := ⟨"timed.log"⟩, delay := true, policy? := some (.timed everyTenSeconds) } w =
          (.ok (tenSecondSink 1709287210), w) ∧
      Archives (tenSecondSink 1709287210) w l 1 ∧
      ∃ s' w' s'' w'', (tenSecondSink 1709287210).emit "second" w = (.ok (), s', w') ∧
        Holds l 1 (w.files.contentOf 1) w'.files ∧
        s'.emit "third" w' = (.ok (), s'', w'') ∧
        (∀ id, ¬ Holds l id (w.files.contentOf 1) w''.files) ∧
        ¬ Crowded .seconds "timed.log" 1 l w''.files := by
  intro w l
  let old := ["timed.log.2000-01-01_00-00-00"]
  have hnow : ∀ {v : World}, v.clocks = w.clocks → v.now everyTenSeconds.clock = 1709287210 := by
    intro v hv
    simp [World.now, everyTenSeconds, hv, w, worldOf]
  have harchives : Archives (tenSecondSink 1709287210) w l 1 :=
    archives_of_putAside [] "timed.log" rfl (by decide) (by decide +kernel) (by decide +kernel)
      (by decide +kernel) (by decide +kernel) (by decide +kernel)
  have hnames : archivesAmong .seconds "timed.log"
      ["timed.log.2024-03-01_10-00-00", "timed.log.2000-01-01_00-00-00"] =
        ["timed.log.2000-01-01_00-00-00", "timed.log.2024-03-01_10-00-00"] :=
    archivesAmong_eq (by decide) (by decide) fun _ =>
      (show List.Perm _ (List.filter _ _) by decide +kernel).mem_iff.trans List.mem_filter
  have hbase : (⟨"timed.log"⟩ : Path).fileName?.getD "" = "timed.log" := by decide +kernel
  have hfirst : (tenSecondSink 1709287210).file.Appends := ⟨rfl, fun _ hnone => by cases hnone⟩
  obtain ⟨s', w', hsecond, hpolicy, happends, hend, hclose, hfiles, hclocks⟩ :=
    emit_due (s := tenSecondSink 1709287210) (w := w)
      (p := { everyTenSeconds with dueAt := 1709287210 }) "second" (tenSecondSink 0).file
      (treeOf [(l, .file 1), (old, .directory 2)] [])
      (treeOf [(l, .file 1), (old, .directory 2)] [])
      (treeOf [(["timed.log"], .file 3), (l, .file 1), (old, .directory 2)] ["second"])
      false rfl hfirst rfl rfl rfl rfl (hnow rfl) (by decide) rfl (by decide +kernel)
      (by decide +kernel) (by decide +kernel) (by decide)
      (show _ = Except.ok ["timed.log.2024-03-01_10-00-00", "timed.log.2000-01-01_00-00-00"]
        by decide +kernel)
      ((congrArg (archivesAmong .seconds · _) hbase).trans hnames)
      (by decide +kernel) (by decide +kernel) (by decide +kernel) (by decide +kernel)
  -- The instant is the same as before, and so is the name of the archive.
  obtain ⟨s'', w'', hthird, -, -, -, -, hfiles', -⟩ :=
    emit_due (s := s') (w := w') (p := { everyTenSeconds with dueAt := 1709287210 }) "third"
      (tenSecondSink 0).file
      (treeOf [(l, .file 3), (old, .directory 2)] ["second"])
      (treeOf [(l, .file 3), (old, .directory 2)] ["second"])
      (treeOf [(["timed.log"], .file 4), (l, .file 3), (old, .directory 2)]
        ["second", "third"])
      false hpolicy happends hend hclose rfl rfl (hnow hclocks) (by decide) hfiles
      (by decide +kernel) (by decide +kernel) (by decide +kernel) (by decide)
      (show _ = Except.ok ["timed.log.2024-03-01_10-00-00", "timed.log.2000-01-01_00-00-00"]
        by decide +kernel)
      ((congrArg (archivesAmong .seconds · _) hbase).trans hnames)
      (by decide +kernel) (by decide +kernel) (by decide +kernel) (by decide +kernel)
  refine ⟨build_tenSecondSink (by decide +kernel), harchives, s', w', s'', w'', hsecond, ?_, hthird,
    fun id hholds => ?_, fun hcrowded => ?_⟩
  · rw [hfiles]
    exact ⟨by decide +kernel, by decide +kernel⟩
  · rw [hfiles'] at hholds
    -- Another file has the name, and it holds another line.
    have hthere : (treeOf [(["timed.log"], .file 4), (l, .file 3), (old, .directory 2)]
        ["second", "third"]).entryAt? l = some (.file 3) := by decide +kernel
    obtain rfl : 3 = id := by
      have hsame := hthere.symm.trans hholds.entry
      simpa using hsame
    have hcontent := hholds.content
    revert hcontent
    decide +kernel
  · rw [hfiles'] at hcrowded
    exact not_crowded (d := []) (by decide +kernel) hcrowded

end Rotation

end Logbook
