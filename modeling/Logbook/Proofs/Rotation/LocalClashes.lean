import Logbook.Proofs.Rotation.LocalNames

/-! # Schedules that name two periods alike

    A schedule on the local clock that does not tell its periods apart gives two periods
    that follow each other one name, around a change of the clock.  Each kind of schedule
    does so in 2024.
-/

namespace Logbook.Rotation

open Time

namespace Schedule

variable {s : Schedule} {c t t' u : Int}

/-- **Clashes**: two periods that follow each other have one name, as a clock goes on that
    is never put back. -/
def Clashes (s : Schedule) : Prop :=
  ∃ c t t', Inside c ∧ Inside t ∧ Inside t' ∧ c ≤ t ∧ t ≤ t' ∧ s.next c ≤ t ∧ s.next t ≤ t' ∧
    s.stamp c t = s.stamp t t'

/-! ## The clock in 2024 -/

/-- From March to November. -/
theorem offset_in_summer (hlow : 1710054000 ≤ u) (hhigh : u < 1730613600) :
    Zone.eastern.offset u = -14400 := by
  have hstart : summerStart 2024 = 1710054000 := by decide
  have hend : summerEnd 2024 = 1730613600 := by decide
  exact Zone.offset_of_summer (isSummer_iff.mpr ⟨2024, by omega, by omega⟩)

/-- In the month before. -/
theorem offset_before_summer (hlow : 1707462000 ≤ u) (hhigh : u < 1710054000) :
    Zone.eastern.offset u = -18000 := by
  have hends : Zone.eastern.offset 1707462000 = -18000 ∧
      Zone.eastern.offset 1710053999 = -18000 := by decide +kernel
  rw [Zone.offset_between hlow (show u ≤ 1710053999 by omega) (by decide)
    (hends.1.trans hends.2.symm), hends.1]

/-- In the month after. -/
theorem offset_after_summer (hlow : 1730613600 ≤ u) (hhigh : u ≤ 1733205600) :
    Zone.eastern.offset u = -18000 := by
  have hends : Zone.eastern.offset 1730613600 = -18000 ∧
      Zone.eastern.offset 1733205600 = -18000 := by decide +kernel
  rw [Zone.offset_between hlow hhigh (by decide) (hends.1.trans hends.2.symm), hends.1]

/-- These instants lie in the calendar. -/
theorem inside_of_2024 (hlow : 1707462000 ≤ u) (hhigh : u ≤ 1733205600) : Inside u := by
  unfold Inside daySeconds
  omega

/-! ## Seconds to days -/

/-- Intervals of seconds, minutes and hours. -/
theorem clashes_of_short (hzone : s.zone = .eastern) (hproper : s.Proper)
    (hdaily : ¬ s.unit.IsDaily) (hgrain : s.unit.grain = 1 ∨ s.unit.grain = 60 ∨ s.unit.grain = 3600)
    (hshort : s.interval < 7200 + s.unit.grain) : s.Clashes := by
  -- An hour before the clock goes forward, two hours or one interval later, and the instant at
  -- which it goes back.
  obtain ⟨t, ht⟩ : ∃ t, t = 1710050400 + max 7200 s.interval := ⟨_, rfl⟩
  have hpos := s.unit.length_pos
  have hinterval := hproper.interval_ge
  have hnow := offset_in_summer (u := t) (by omega) (by omega)
  have hold := offset_before_summer (u := 1710050400) (by decide) (by decide)
  have hlater := offset_after_summer (u := 1730613600) (by decide) (by decide)
  refine ⟨1710050400, t, 1730613600, inside_of_2024 (by decide) (by decide), inside_of_2024 (by omega) (by omega),
    inside_of_2024 (by decide) (by decide), by omega, by omega, ?_, ?_, ?_⟩
  · rw [next_of_not_isDaily hdaily]
    omega
  · rw [next_of_not_isDaily hdaily]
    omega
  · unfold stamp
    rw [slot_of_not_isDaily hdaily, slot_of_not_isDaily hdaily,
      shown_keepWallClock hzone (inside_of_2024 (by omega) (by omega)) (by omega),
      shown_keepWallClock hzone (inside_of_2024 (by decide) (by decide)) (by omega)]
    -- The first start is named in summer and comes an hour later, the second one is named in
    -- winter and comes an hour earlier.
    have hmoved : moved t 1710050400 = 1710054000 := by
      rw [moved, hnow, hold]
      omega
    have hmoved' : moved 1730613600 t = t - 3600 := by
      rw [moved, hnow, hlater]
      omega
    rw [hmoved, hmoved', offset_in_summer (by decide) (by decide),
      offset_in_summer (by omega) (by omega)]
    rcases hgrain with hgrain | hgrain | hgrain
    all_goals
      rw [hgrain] at hshort ⊢
      omega

/-- Every day. -/
theorem clashes_of_days (hzone : s.zone = .eastern) (hunit : s.unit = .days) (hone : s.count = 1) :
    s.Clashes := by
  have hdaily : ¬ s.unit.IsDaily := by
    rw [hunit]
    exact id
  have hinterval : s.interval = 86400 := by
    rw [interval, hunit, hone]
    rfl
  -- Ten past midnight before the day of 25 hours, a day later, and a day after that: the second
  -- period ends at ten past eleven of the day on which it began.
  refine ⟨1730520600, 1730607000, 1730693400, by decide, by decide, by decide, by decide,
    by decide, ?_, ?_, ?_⟩
  · rw [next_of_not_isDaily hdaily, hinterval]
    decide
  · rw [next_of_not_isDaily hdaily, hinterval]
    decide
  · unfold stamp
    rw [slot_of_not_isDaily hdaily, slot_of_not_isDaily hdaily,
      shown_keepWallClock hzone (by decide) (by decide),
      shown_keepWallClock hzone (by decide) (by decide), hunit]
    decide +kernel

/-! ## Days and weeks -/

/-- With units counted one by one the guess is the first due time that the clock will
    show, and its day is the last of the period. -/
theorem Proper.lastDay_of_one (h : s.Proper) (hzone : s.zone = .eastern)
    (hdaily : s.unit.IsDaily) (hone : s.count = 1) (hlow : 1707462000 ≤ c) (hhigh : c ≤ 1733205600)
    {day : Int} (hends : s.unit.EndsOn day)
    (hlater : c + Zone.eastern.offset c < day * daySeconds + s.dueSecond)
    (hnear : day * daySeconds + s.dueSecond ≤ c + Zone.eastern.offset c + 86400) :
    s.ahead c = day * daySeconds + s.dueSecond - Zone.eastern.offset c ∧ s.LastDay c day := by
  have hoffset := Zone.offset_cases c
  have hc := inside_of_2024 hlow hhigh
  -- A due time lies at most a day ahead, so no earlier day is left.
  have hday : IsLeast {n | s.zone.wall c < n * daySeconds + s.dueSecond ∧ s.unit.EndsOn n} day := by
    rw [hzone, Zone.wall_eq]
    refine ⟨⟨hlater, hends⟩, fun n hn => ?_⟩
    have hlt := hn.1
    unfold daySeconds at *
    omega
  have hahead : s.ahead c = day * daySeconds + s.dueSecond - Zone.eastern.offset c := by
    obtain ⟨day', hday', hahead⟩ := h.ahead_spec hc.inCalendar
    obtain rfl : day = day' := Int.le_antisymm (hday.2 hday'.1) (hday'.2 hday.1)
    have hzero : (s.count - 1 : Int) * s.unit.length = 0 := by
      rw [hone]
      exact Int.zero_mul _
    rw [hzero, hzone] at hahead
    omega
  refine ⟨hahead, h.lastDay hzone hdaily hc ?_ hday⟩
  rw [hahead, inCalendar_iff]
  unfold daySeconds at *
  omega

/-- **The period that is under way** in 2024, if units are counted one by one: its end, and
    what its name tells.  The offsets are given at the guess, at the rollover, at the start and
    at the start that has been moved. -/
theorem Proper.period_in_2024 (h : s.Proper) (hzone : s.zone = .eastern)
    (hdaily : s.unit.IsDaily) (hone : s.count = 1) (hlow : 1707462000 ≤ c) (hhigh : c ≤ 1733205600)
    {due there : Int} (hdue : ∃ day, s.unit.EndsOn day ∧ due = day * daySeconds + s.dueSecond)
    (hlater : c + Zone.eastern.offset c < due)
    (hnear : due ≤ c + Zone.eastern.offset c + 86400)
    (hguess : Zone.eastern.offset (due - Zone.eastern.offset c) = there) :
    s.next c = due - there ∧ ∀ start {t now old new}, Inside t →
      start = due - s.unit.length - there → start ≤ t → Zone.eastern.offset t = now →
      Zone.eastern.offset start = old → Zone.eastern.offset (start + (now - old)) = new →
      s.stamp c t = (start + (now - old) + new) / 86400 := by
  obtain ⟨day, hends, rfl⟩ := hdue
  obtain ⟨hahead, hlast⟩ := h.lastDay_of_one hzone hdaily hone hlow hhigh hends hlater hnear
  -- The period began one unit before the due time, at the offset of the guess.
  have hbegan := hlast.began
  rw [hahead, hguess] at hbegan
  have hinterval : s.interval = s.unit.length := by
    rw [interval, hone]
    exact Int.mul_one _
  constructor
  · unfold slot at hbegan
    omega
  · rintro _ t now old new ht rfl hle hnow hold hnew
    have hweek := s.unit.length_le
    have hoffset := Zone.offset_cases c
    have hthere := Zone.offset_cases (day * daySeconds + s.dueSecond - Zone.eastern.offset c)
    have hcalendar : -8334601228800 + 3600 ≤ s.slot c := by
      unfold daySeconds at *
      omega
    rw [← hbegan] at hle hold hnew ⊢
    have hshown := shown_keepWallClock hzone ht ⟨hcalendar, hle⟩
    have hmoved : moved t (s.slot c) = s.slot c + (now - old) := by
      rw [moved, hnow, hold]
    rw [hmoved, hnew] at hshown
    rw [stamp_of_isDaily hdaily, hshown]
    rfl

/-- Due within an hour after midnight: the day before the clock goes back is named when it
    has gone back. -/
theorem clashes_after_midnight (hzone : s.zone = .eastern) (hproper : s.Proper)
    (hdaily : s.unit.IsDaily) (hone : s.count = 1) (hlength : s.unit.length = 86400) {r : Int}
    (hr : 0 ≤ r) (hr' : r < 3600)
    (hdue : ∃ day, s.unit.EndsOn day ∧ 1730505600 + r = day * daySeconds + s.dueSecond)
    (hdue' : ∃ day, s.unit.EndsOn day ∧ 1730592000 + r = day * daySeconds + s.dueSecond) :
    s.Clashes := by
  have hc := offset_in_summer (u := 1730476800) (by decide) (by decide)
  have ht := offset_in_summer (u := 1730520000 + r) (by omega) (by omega)
  have ht' := offset_after_summer (u := 1730739600) (by decide) (by decide)
  obtain ⟨hnext, hstamp⟩ := hproper.period_in_2024 (c := 1730476800) hzone hdaily hone (by decide)
    (by decide) hdue (by omega) (by omega) (offset_in_summer (by omega) (by omega))
  obtain ⟨hnext', hstamp'⟩ := hproper.period_in_2024 (c := 1730520000 + r) hzone hdaily hone
    (by omega) (by omega) hdue' (by omega) (by omega) (offset_in_summer (by omega) (by omega))
  -- Moved back by an hour, the second start lies before midnight, on the day of the first.
  refine ⟨1730476800, 1730520000 + r, 1730739600, by decide, inside_of_2024 (by omega) (by omega),
    by decide, by omega, by omega, by omega, by omega, ?_⟩
  rw [hstamp (1730433600 + r) (inside_of_2024 (by omega) (by omega)) (by omega) (by omega) ht
      (offset_in_summer (by omega) (by omega)) (offset_in_summer (by omega) (by omega)),
    hstamp' (1730520000 + r) (by decide) (by omega) (by omega) ht' (offset_in_summer (by omega) (by omega))
      (offset_in_summer (by omega) (by omega))]
  omega

/-- Due within an hour before midnight: a period that began before the clock went forward is
    named when it has done so. -/
theorem clashes_before_midnight (hzone : s.zone = .eastern) (hproper : s.Proper)
    (hdaily : s.unit.IsDaily) (hone : s.count = 1) (hlength : s.unit.length = 86400) {r : Int}
    (hr : 82800 ≤ r) (hr' : r < 86400)
    (hdue : ∃ day, s.unit.EndsOn day ∧ 1709942400 + r = day * daySeconds + s.dueSecond)
    (hdue' : ∃ day, s.unit.EndsOn day ∧ 1710028800 + r = day * daySeconds + s.dueSecond) :
    s.Clashes := by
  have hc := offset_before_summer (u := 1710003600) (by decide) (by decide)
  have ht := offset_in_summer (u := 1710054000) (by decide) (by decide)
  have ht' := offset_in_summer (u := 1710043200 + r) (by omega) (by omega)
  obtain ⟨hnext, hstamp⟩ := hproper.period_in_2024 (c := 1710003600) hzone hdaily hone (by decide)
    (by decide) hdue (by omega) (by omega) (offset_before_summer (by omega) (by omega))
  obtain ⟨hnext', hstamp'⟩ := hproper.period_in_2024 (c := 1710054000) hzone hdaily hone
    (by decide) (by decide) hdue' (by omega) (by omega) (offset_in_summer (by omega) (by omega))
  -- Moved forward by an hour, the first start lies after midnight, on the day of the second.
  refine ⟨1710003600, 1710054000, 1710043200 + r, by decide, by decide,
    inside_of_2024 (by omega) (by omega), by decide, by omega, by omega, by omega, ?_⟩
  rw [hstamp (1709874000 + r) (by decide) (by omega) (by omega) ht
      (offset_before_summer (by omega) (by omega)) (offset_before_summer (by omega) (by omega)),
    hstamp' (1709956800 + r) (inside_of_2024 (by omega) (by omega)) (by omega) (by omega) ht'
      (offset_before_summer (by omega) (by omega)) (offset_before_summer (by omega) (by omega))]
  omega

/-- Due at a time that the clock shows twice: the day on which it goes back ends twice. -/
theorem clashes_shown_twice (hzone : s.zone = .eastern) (hproper : s.Proper)
    (hdaily : s.unit.IsDaily) (hone : s.count = 1)
    (hlength : s.unit.length = 86400 ∨ s.unit.length = 604800) {r : Int} (hr : 3600 < r) (hr' : r < 7200)
    (hdue : ∃ day, s.unit.EndsOn day ∧ 1730592000 + r = day * daySeconds + s.dueSecond) :
    s.Clashes := by
  have hc := offset_in_summer (u := 1730563200) (by decide) (by decide)
  have ht := offset_after_summer (u := 1730613600) (by decide) (by decide)
  have ht' := offset_after_summer (u := 1730610000 + r) (by omega) (by omega)
  obtain ⟨hnext, hstamp⟩ := hproper.period_in_2024 (c := 1730563200) hzone hdaily hone (by decide)
    (by decide) hdue (by omega) (by omega) (offset_in_summer (by omega) (by omega))
  obtain ⟨hnext', hstamp'⟩ := hproper.period_in_2024 (c := 1730613600) hzone hdaily hone
    (by decide) (by decide) hdue (by omega) (by omega) (offset_after_summer (by omega) (by omega))
  -- The clock shows the due time before and after it goes back, and a period ends at either.
  refine ⟨1730563200, 1730613600, 1730610000 + r, by decide, by decide,
    inside_of_2024 (by omega) (by omega), by decide, by omega, by omega, by omega, ?_⟩
  rw [hstamp (1730606400 + r - s.unit.length) (by decide) (by omega) (by omega) ht
      (offset_in_summer (by omega) (by omega)) (offset_in_summer (by omega) (by omega)),
    hstamp' (1730610000 + r - s.unit.length) (inside_of_2024 (by omega) (by omega)) (by omega)
      (by omega) ht' (offset_in_summer (by omega) (by omega)) (offset_in_summer (by omega) (by omega))]
  omega

/-- Due at a time that the clock skips: the next instant has come already. -/
theorem clashes_skipped (hzone : s.zone = .eastern) (hproper : s.Proper)
    (hdaily : s.unit.IsDaily) (hone : s.count = 1) {r : Int} (hr : 7200 ≤ r) (hr' : r < 10800)
    (hdue : ∃ day, s.unit.EndsOn day ∧ 1710028800 + r = day * daySeconds + s.dueSecond) :
    s.Clashes := by
  have hc := offset_before_summer (u := 1710053999) (by decide) (by decide)
  obtain ⟨hnext, -⟩ := hproper.period_in_2024 (c := 1710053999) hzone hdaily hone (by decide)
    (by decide) hdue (by omega) (by omega) (offset_in_summer (by omega) (by omega))
  exact ⟨1710053999, 1710053999, 1710053999, by decide, by decide, by decide, Int.le_refl _,
    Int.le_refl _, by omega, by omega, rfl⟩

/-! ## All schedules -/

/-- Midnights that are not told apart. -/
theorem clashes_of_midnight (hzone : s.zone = .eastern) (hproper : s.Proper)
    (hunit : s.unit = .midnight) (h : ¬ s.TellsApart) : s.Clashes := by
  have hdaily : s.unit.IsDaily := by
    rw [hunit]
    trivial
  have hlength : s.unit.length = 86400 := by
    rw [hunit]
    rfl
  obtain ⟨hlow, hhigh⟩ := hproper.dueSecond_range
  have hcount := hproper.count
  simp only [TellsApart, hunit, not_or] at h
  have hone : s.count = 1 := by omega
  have hdue : ∀ day r, day * daySeconds + s.dueSecond = r →
      ∃ day, s.unit.EndsOn day ∧ r = day * daySeconds + s.dueSecond := by
    rintro day r rfl
    exact ⟨day, by rw [hunit]; trivial, rfl⟩
  unfold daySeconds at hhigh
  -- By the hour at which the clock goes forward or back, as seen from the time that is due.
  by_cases hend : s.dueSecond = 86400
  · exact clashes_after_midnight hzone hproper hdaily hone hlength (r := 0) (by decide) (by decide)
      (hdue 20028 _ (by rw [hend]; decide)) (hdue 20029 _ (by rw [hend]; decide))
  by_cases hearly : s.dueSecond < 3600
  · exact clashes_after_midnight hzone hproper hdaily hone hlength hlow hearly
      (hdue 20029 _ rfl) (hdue 20030 _ rfl)
  by_cases htwice : s.dueSecond < 7200
  · exact clashes_shown_twice hzone hproper hdaily hone (.inl hlength) (by omega) htwice
      (hdue 20030 _ rfl)
  by_cases hskipped : s.dueSecond < 10800
  · exact clashes_skipped hzone hproper hdaily hone (by omega) hskipped (hdue 19792 _ rfl)
  · exact clashes_before_midnight hzone hproper hdaily hone hlength (r := s.dueSecond) (by omega)
      (by omega) (hdue 19791 _ rfl) (hdue 19792 _ rfl)

/-- Weeks that are not told apart. -/
theorem clashes_of_weekday (hzone : s.zone = .eastern) (hproper : s.Proper) {target : Fin 7}
    (hunit : s.unit = .weekday target) (h : ¬ s.TellsApart) : s.Clashes := by
  have hdaily : s.unit.IsDaily := by
    rw [hunit]
    trivial
  have hcount := hproper.count
  simp only [TellsApart, hunit, not_or, not_not] at h
  obtain ⟨hmany, rfl, hlow, hhigh⟩ := h
  have hone : s.count = 1 := by omega
  have hdue : ∀ day r, weekday day = 6 → day * daySeconds + s.dueSecond = r →
      ∃ day, s.unit.EndsOn day ∧ r = day * daySeconds + s.dueSecond := by
    rintro day r hsunday rfl
    exact ⟨day, by rw [hunit]; exact hsunday, rfl⟩
  have hlength : s.unit.length = 604800 := by
    rw [hunit]
    rfl
  -- Only a Sunday is left, and on it an hour that is shown twice or not at all.
  by_cases htwice : s.dueSecond < 7200
  · exact clashes_shown_twice hzone hproper hdaily hone (.inr hlength) (by omega) htwice
      (hdue 20030 _ (by decide) rfl)
  · exact clashes_skipped hzone hproper hdaily hone (by omega) (by omega)
      (hdue 19792 _ (by decide) rfl)

/-- **A schedule that does not tell its periods apart clashes.** -/
theorem clashes_of_not_tellsApart (hzone : s.zone = .eastern) (hproper : s.Proper)
    (h : ¬ s.TellsApart) : s.Clashes := by
  have hcount := hproper.count
  cases hunit : s.unit with
  | midnight => exact clashes_of_midnight hzone hproper hunit h
  | weekday target => exact clashes_of_weekday hzone hproper hunit h
  | days =>
    simp only [TellsApart, interval, hunit, Period.grain, Period.length, daySeconds] at h
    exact clashes_of_days hzone hunit (by omega)
  | seconds | minutes | hours =>
    have hdaily : ¬ s.unit.IsDaily := by
      rw [hunit]
      exact id
    have hgrain : s.unit.grain = 1 ∨ s.unit.grain = 60 ∨ s.unit.grain = 3600 := by
      rw [hunit]
      simp [Period.grain]
    simp only [TellsApart, hunit] at h
    refine clashes_of_short hzone hproper hdaily hgrain ?_
    rw [hunit]
    omega

/-- **Exactly** the schedules that tell their periods apart never give two periods that
    follow each other one name. -/
theorem tellsApart_iff (hzone : s.zone = .eastern) (hproper : s.Proper) :
    s.TellsApart ↔ ¬ s.Clashes := by
  constructor
  · rintro h ⟨c, t, t', hc, ht, ht', -, -, hdue, hdue', heq⟩
    have hlt := h.stamp_lt hzone hproper hc ht ht' hdue hdue'
    rw [heq] at hlt
    exact absurd hlt (Int.lt_irrefl _)
  · intro h
    by_contra hnot
    exact h (clashes_of_not_tellsApart hzone hproper hnot)

end Schedule

end Logbook.Rotation
