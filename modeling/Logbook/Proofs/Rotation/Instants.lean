import Logbook.Proofs.Rotation.Schedule
import Mathlib.Order.Bounds.Defs

/-! # Instants of rollovers

    A rollover that is due at a time of day is computed with the offset that the clock has
    at the current instant, and then moved by what the offset has changed on the way.  In
    UTC that is the first instant that fits.  On the local clock it is the instant that
    shows the right time, if any does; where none does, it can lie before the current
    instant.
-/

namespace Logbook.Rotation

open Time

/-- A period ends on a day: a weekly one on its day of the week, any other on each day. -/
def Period.EndsOn : Period → Int → Prop
  | weekday target, day => Time.weekday day = target.val
  | seconds, _ | minutes, _ | hours, _ | days, _ | midnight, _ => True

/-- The wait leads to the first day on which a period ends. -/
theorem Period.isLeast_wait (p : Period) (n : Int) :
    IsLeast {m | n ≤ m ∧ p.EndsOn m} (n + p.wait (Time.weekday n)) := by
  cases p with
  | weekday target =>
    have htarget := target.isLt
    refine ⟨⟨?_, ?_⟩, ?_⟩
    · -- The wait is the distance to the weekday modulo seven, so no earlier day has that weekday.
      have hwait := (Period.weekday target).wait_nonneg (Time.weekday n)
      omega
    · show Time.weekday (n + (target.val - Time.weekday n) % 7) = target.val
      unfold Time.weekday
      omega
    · intro m hm
      obtain ⟨hle, hends⟩ := hm
      have hday : Time.weekday m = target.val := hends
      show n + (target.val - Time.weekday n) % 7 ≤ m
      unfold Time.weekday at *
      omega
  | seconds | minutes | hours | days | midnight =>
    -- Any day ends a period of the other units.
    refine ⟨⟨Int.le_of_eq (Int.add_zero n).symm, trivial⟩, ?_⟩
    intro m hm
    show n + 0 ≤ m
    have hle := hm.1
    omega

namespace Schedule

variable {s : Schedule} {c : Int}

/-- **The day** of a rollover is the first one on which the period ends and the clock
    comes to show the due second; the units after the first are whole days. -/
theorem Proper.ahead_spec (h : s.Proper) (hc : inCalendar c = true) :
    ∃ day, IsLeast {n | s.zone.wall c < n * daySeconds + s.dueSecond ∧ s.unit.EndsOn n} day ∧
      s.ahead c =
        day * daySeconds + s.dueSecond + (s.count - 1) * s.unit.length - s.zone.offset c := by
  obtain ⟨n, hdue, hlt, hle, hday⟩ := h.nextDue_spec hc
  obtain ⟨⟨hwait, hends⟩, hleast⟩ := s.unit.isLeast_wait n
  refine ⟨n + s.unit.wait (weekday n), ⟨⟨?_, hends⟩, ?_⟩, ?_⟩
  · unfold daySeconds at *
    omega
  · intro m hm
    obtain ⟨hreached, hm⟩ := hm
    -- A day before `n` has its due second no later than what the clock shows now.
    have hfrom : n ≤ m := by
      unfold daySeconds at *
      omega
    exact hleast ⟨hfrom, hm⟩
  · have hinterval : s.interval - s.unit.length = (s.count - 1) * s.unit.length := by
      rw [interval, Int.sub_mul, Int.one_mul, Int.mul_comm]
    rw [ahead, hinterval, hdue, hday, Int.add_mul]
    omega

/-! ## In UTC -/

/-- A clock in UTC shows what a rollover waits for: the time of day on a day that ends a
    period, or without a time the midnight after such a day. -/
def Due (s : Schedule) (t : Int) : Prop :=
  match s.atTime? with
  | some time => (Zone.utc.read ⟨t, 0⟩).secondOfDay = time.seconds ∧
      s.unit.EndsOn (Zone.utc.read ⟨t, 0⟩).dayNumber
  | none => (Zone.utc.read ⟨t, 0⟩).secondOfDay = 0 ∧
      s.unit.EndsOn ((Zone.utc.read ⟨t, 0⟩).dayNumber - 1)

theorem InUtc.due_iff (h : s.InUtc) (t : Int) :
    s.Due t ↔ ∃ n, t = n * daySeconds + s.dueSecond ∧ s.unit.EndsOn n := by
  unfold Due dueSecond
  simp only [Zone.read, Zone.offset, Int.add_zero]
  -- A time of day ends the day that it lies in, and midnight the day before.
  cases hat : s.atTime? with
  | some time =>
    have hlt := h.atTime time hat
    unfold daySeconds at *
    constructor
    · intro hdue
      exact ⟨t / 86400, by dsimp only; omega, hdue.2⟩
    · intro hdue
      obtain ⟨n, ht, hends⟩ := hdue
      have hday : t / 86400 = n := by dsimp only at ht; omega
      exact ⟨by dsimp only at ht; omega, by rw [hday]; exact hends⟩
  | none =>
    unfold daySeconds at *
    constructor
    · intro hdue
      exact ⟨t / 86400 - 1, by dsimp only at hdue ⊢; omega, hdue.2⟩
    · intro hdue
      obtain ⟨n, ht, hends⟩ := hdue
      have hday : t / 86400 - 1 = n := by dsimp only at ht; omega
      exact ⟨by dsimp only at ht ⊢; omega, by rw [hday]; exact hends⟩

/-- **In UTC** a rollover that is due at a time of day comes at the first instant that
    shows it, the days or weeks after the first one added, and any other after its units. -/
theorem next_in_utc (h : s.InUtc) (hc : inCalendar c = true) :
    (s.unit.IsDaily → ∃ t, IsLeast {t | c < t ∧ s.Due t} t ∧
      s.next c = t + (s.count - 1) * s.unit.length) ∧
    (¬ s.unit.IsDaily → s.next c = c + s.count * s.unit.length) := by
  constructor
  · intro hdaily
    obtain ⟨day, ⟨⟨hlt, hends⟩, hleast⟩, hahead⟩ := h.proper.ahead_spec hc
    have hutc : ∀ t, s.zone.offset t = 0 := by
      intro t
      rw [h.zone, Zone.offset]
    simp only [Zone.wall_eq, hutc, Int.add_zero] at hlt hleast
    refine ⟨day * daySeconds + s.dueSecond, ⟨⟨hlt, (h.due_iff _).mpr ⟨day, rfl, hends⟩⟩, ?_⟩, ?_⟩
    · intro t ht
      obtain ⟨hct, hdue⟩ := ht
      obtain ⟨n, rfl, hn⟩ := (h.due_iff t).mp hdue
      have hle : day ≤ n := hleast ⟨hct, hn⟩
      unfold daySeconds
      omega
    · rw [h.next_eq_ahead hdaily, hahead, hutc, Int.sub_zero]
  · intro hdaily
    rw [next_of_not_isDaily hdaily, interval, Int.mul_comm]

/-- Every second Sunday at nine in the morning. -/
def alternateSundays : Schedule :=
  { unit := .weekday (Fin.last 6), count := 2, zone := .utc, atTime? := some ⟨32400, 0⟩ }

/-- From a Monday before 1970. -/
theorem next_in_utc_from_monday :
    InUtc alternateSundays ∧ inCalendar (-259200) = true ∧
      ∃ t, IsLeast {t | -259200 < t ∧ alternateSundays.Due t} t ∧
        alternateSundays.next (-259200) = t + 7 * daySeconds := by
  have hutc : InUtc alternateSundays := by
    refine ⟨rfl, by decide, ?_⟩
    intro t ht
    cases ht
    decide
  have hc : inCalendar (-259200) = true := by decide
  exact ⟨hutc, hc, (next_in_utc hutc hc).1 trivial⟩

/-! ## On the local clock -/

/-- What is left of a rollover by day on the local clock: the correction by the offsets. -/
theorem next_of_eastern (hzone : s.zone = .eastern) (hdaily : s.unit.IsDaily) (c : Int) :
    s.next c = s.ahead c + (s.offsetAt c - s.offsetAt (s.ahead c)) := by
  rw [next_of_isDaily hdaily, keepWallClock, hzone]

theorem offsetAt_of_inCalendar (hc : inCalendar c = true) : s.offsetAt c = s.zone.offset c := by
  rw [offsetAt, if_pos hc]

theorem offsetAt_of_not_inCalendar (hc : ¬ inCalendar c = true) : s.offsetAt c = 0 := by
  rw [offsetAt, if_neg hc]

/-- **Wall clock**: let a day be the first one on which the period ends and the clock comes
    to show the due second, and move it on by the units after the first.  If the clock ever
    shows that time, then it does so at the next instant, as long as the instant that the
    offset of the current one leads to has a date.  Where that instant has none, the next
    instant is the one at which a clock in UTC shows the time. -/
theorem wall_next (h : s.Proper) (hzone : s.zone = .eastern) (hdaily : s.unit.IsDaily)
    (hc : inCalendar c = true) :
    ∃ day, IsLeast {n | Zone.eastern.wall c < n * daySeconds + s.dueSecond ∧ s.unit.EndsOn n} day ∧
      ∃ time, time = day * daySeconds + s.dueSecond + (s.count - 1) * s.unit.length ∧
        (inCalendar (time - Zone.eastern.offset c) = true → (∃ t, Zone.eastern.wall t = time) →
          Zone.eastern.wall (s.next c) = time) ∧
        (¬ inCalendar (time - Zone.eastern.offset c) = true → s.next c = time) := by
  obtain ⟨day, hleast, hahead⟩ := h.ahead_spec hc
  have hnext := next_of_eastern hzone hdaily c
  rw [offsetAt_of_inCalendar hc] at hnext
  rw [hzone] at hleast hahead hnext
  refine ⟨day, hleast, _, rfl, ?_, ?_⟩
  · intro hguess hshown
    rw [← hahead] at hguess
    rw [offsetAt_of_inCalendar hguess, hzone] at hnext
    have hcorrected : s.next c = day * daySeconds + s.dueSecond + (s.count - 1) * s.unit.length -
        Zone.eastern.offset (s.ahead c) := by
      rw [hnext]
      omega
    rw [hcorrected]
    refine Zone.wall_corrected hshown ?_
    have hoffset := Zone.offset_cases c
    omega
  · intro hguess
    rw [← hahead] at hguess
    rw [offsetAt_of_not_inCalendar hguess] at hnext
    omega

/-- Every day at a time of day. -/
def everyDayAt (seconds : Nat) : Schedule :=
  { unit := .midnight, count := 1, atTime? := some ⟨seconds, 0⟩ }

theorem everyDayAt_proper {seconds : Nat} (h : (seconds : Int) < daySeconds) :
    (everyDayAt seconds).Proper := by
  refine ⟨Nat.one_pos, ?_⟩
  intro t ht
  cases ht
  exact h

/-- From three in the morning on the day before the clock goes forward. -/
theorem wall_next_over_spring :
    (everyDayAt 10800).Proper ∧ inCalendar 1709971200 = true ∧
      ∃ day, IsLeast {n | Zone.eastern.wall 1709971200 < n * daySeconds + 10800 ∧ True} day ∧
        ∃ time, time = day * daySeconds + 10800 + ((1 : Nat) - 1) * daySeconds ∧
          (inCalendar (time - Zone.eastern.offset 1709971200) = true →
            (∃ t, Zone.eastern.wall t = time) →
            Zone.eastern.wall ((everyDayAt 10800).next 1709971200) = time) ∧
          (¬ inCalendar (time - Zone.eastern.offset 1709971200) = true →
            (everyDayAt 10800).next 1709971200 = time) := by
  have hproper : (everyDayAt 10800).Proper := everyDayAt_proper (by decide)
  have hc : inCalendar 1709971200 = true := by decide
  exact ⟨hproper, hc, wall_next hproper rfl trivial hc⟩

/-- Three hours before eight in the evening of the last day: the instant at which the clock
    shows that time has no date, and it shows three in the afternoon at the next instant. -/
theorem wall_next_past_calendar :
    (everyDayAt 72000).Proper ∧ inCalendar 8210266869599 = true ∧
      IsLeast {n | Zone.eastern.wall 8210266869599 < n * daySeconds + 72000 ∧
        (everyDayAt 72000).unit.EndsOn n} 95026236 ∧
      (∃ t, Zone.eastern.wall t = 95026236 * daySeconds + 72000) ∧
      Zone.eastern.wall ((everyDayAt 72000).next 8210266869599) ≠
        95026236 * daySeconds + 72000 := by
  have hnow : Zone.eastern.wall 8210266869599 = 8210266851599 := by decide +kernel
  refine ⟨everyDayAt_proper (by decide), by decide, ⟨⟨?_, trivial⟩, ?_⟩, ⟨8210266880400, ?_⟩, ?_⟩
  · rw [hnow]
    decide
  · intro n hn
    have hlt := hn.1
    rw [hnow] at hlt
    unfold daySeconds at hlt
    omega
  · decide +kernel
  · decide +kernel

/-! ## Rollovers that are not ahead -/

/-- **Skipped**: a rollover is due on the day of the current instant, at a time that the
    clock skips on that day, and before the clock goes forward it has come within an hour
    of that time. -/
def Skips (s : Schedule) (c : Int) : Prop :=
  s.zone = .eastern ∧ (s.unit = .midnight ∨ s.unit = .weekday (Fin.last 6)) ∧ s.count = 1 ∧
    ∃ year time, s.atTime? = some time ∧ 7200 ≤ time.seconds ∧ inCalendar c = true ∧
      c < summerStart year ∧ summerStart year + time.seconds ≤ c + 10800

/-- **Overstepped**: a rollover by day is due within five hours, and the calendar ends
    before it. -/
def Oversteps (s : Schedule) (c : Int) : Prop :=
  s.zone = .eastern ∧ s.unit.IsDaily ∧ inCalendar c = true ∧
    ¬ inCalendar (s.ahead c) = true ∧ s.ahead c ≤ c + 18000

theorem Skips.isDaily (h : s.Skips c) : s.unit.IsDaily := by
  obtain ⟨-, hunit, -⟩ := h
  cases hunit with
  | inl hmidnight =>
    rw [hmidnight]
    trivial
  | inr hweekly =>
    rw [hweekly]
    trivial

theorem Period.daySeconds_le_length {p : Period} (h : p.IsDaily) : daySeconds ≤ p.length := by
  cases p with
  | midnight => exact Int.le_refl _
  | weekday target =>
    show daySeconds ≤ 7 * daySeconds
    decide
  | seconds | minutes | hours | days => cases h

/-- The calendar ends in winter. -/
theorem isSummer_at_end (hlow : 8210266790400 ≤ c) (hhigh : c ≤ 8210266876799) :
    isSummer c = false := by
  have hday : c / daySeconds = 95026236 := by
    unfold daySeconds
    omega
  have hyear : (Date.ofDayNumber 95026236).year = 262142 := by decide +kernel
  have hend : summerEnd 262142 ≤ 8210266790400 := by decide +kernel
  unfold isSummer
  rw [hday, hyear]
  have hbehind : ¬ c < summerEnd 262142 := by omega
  simp [hbehind]

/-- With more than one unit to wait, the next instant is a day away. -/
theorem Proper.count_eq_one (h : s.Proper) (hdaily : s.unit.IsDaily)
    (hnear : (s.count - 1) * s.unit.length < daySeconds) : s.count = 1 := by
  by_cases hone : s.count = 1
  · exact hone
  · have hcount := h.count
    have hlength := Period.daySeconds_le_length hdaily
    have htwo : (1 : Int) * s.unit.length ≤ (s.count - 1) * s.unit.length :=
      Int.mul_le_mul_of_nonneg_right (by omega) (by unfold daySeconds at hlength; omega)
    omega

/-- A change of the clock from winter to summer within the last hour is one that skips the
    due time. -/
theorem Proper.skips_of_change (h : s.Proper) (hzone : s.zone = .eastern)
    (hdaily : s.unit.IsDaily) (hc : inCalendar c = true) (hwinter : isSummer c = false)
    (hsummer : isSummer (s.ahead c) = true) (hnear : s.ahead c ≤ c + 3600) : s.Skips c := by
  obtain ⟨year, hstart, hend⟩ := isSummer_iff.mp hsummer
  obtain ⟨day, ⟨⟨hlt, hends⟩, -⟩, hahead⟩ := h.ahead_spec hc
  have hpassed : c < s.ahead c := h.lt_ahead c
  have hbefore : c < summerStart year := by
    by_cases hreached : summerStart year ≤ c
    · have hc' : isSummer c = true := isSummer_iff.mpr ⟨year, hreached, by omega⟩
      rw [hwinter] at hc'
      cases hc'
    · omega
  rw [hzone, Zone.offset_of_winter hwinter] at hahead
  rw [hzone, Zone.wall_eq, Zone.offset_of_winter hwinter] at hlt
  have hcount : s.count = 1 := by
    refine h.count_eq_one hdaily ?_
    unfold daySeconds at *
    omega
  have hfirst : ((s.count : Int) - 1) * s.unit.length = 0 := by
    rw [hcount]
    exact Int.zero_mul _
  rw [hfirst] at hahead
  rw [summerStart_eq] at hstart hbefore
  cases hat : s.atTime? with
  | none =>
    -- Midnight is not skipped.
    have hdue : s.dueSecond = daySeconds := by
      rw [dueSecond, hat]
    unfold daySeconds at *
    omega
  | some time =>
    have htime := h.atTime time hat
    have hdue : s.dueSecond = time.seconds := by
      rw [dueSecond, hat]
    unfold daySeconds at *
    have hsunday : day = springSunday year := by omega
    refine ⟨hzone, ?_, hcount, year, time, hat, by omega, hc, ?_, ?_⟩
    · cases hunit : s.unit with
      | midnight => exact .inl rfl
      | weekday target =>
        rw [hunit, hsunday] at hends
        have htarget : weekday (springSunday year) = target.val := hends
        rw [weekday_springSunday] at htarget
        refine .inr (congrArg Period.weekday (Fin.ext ?_))
        show target.val = 6
        omega
      | seconds | minutes | hours | days =>
        rw [hunit] at hdaily
        cases hdaily
    · rw [summerStart_eq]
      exact hbefore
    · rw [summerStart_eq]
      unfold daySeconds
      omega

/-- A skipped time is computed with the offset of the winter, and moved back by an hour
    because it lies in the summer. -/
theorem Skips.ahead_spec (hskips : s.Skips c) (h : s.Proper) :
    isSummer c = false ∧ isSummer (s.ahead c) = true ∧ s.ahead c ≤ c + 3600 := by
  obtain ⟨hzone, hunit, hcount, year, time, hat, hlate, hc, hbefore, hnear⟩ := hskips
  have hend := summerEnd_range year
  have hspring := springSunday_range year
  have hstart := summerStart_eq year
  have hwinter : isSummer c = false := by
    refine isSummer_before ?_ hbefore
    unfold daySeconds at *
    omega
  obtain ⟨day, ⟨⟨hlt, -⟩, hleast⟩, hahead⟩ := h.ahead_spec hc
  rw [hzone, Zone.wall_eq, Zone.offset_of_winter hwinter] at hlt hleast
  rw [hzone, Zone.offset_of_winter hwinter] at hahead
  have hdue : s.dueSecond = time.seconds := by
    rw [dueSecond, hat]
  have hfirst : ((s.count : Int) - 1) * s.unit.length = 0 := by
    rw [hcount]
    exact Int.zero_mul _
  rw [hdue] at hlt hleast hahead
  rw [hfirst] at hahead
  -- The day on which the clock goes forward is one on which the period may end.
  have hsunday : s.unit.EndsOn (springSunday year) := by
    cases hunit with
    | inl hmidnight =>
      rw [hmidnight]
      trivial
    | inr hweekly =>
      rw [hweekly]
      exact weekday_springSunday year
  have hle : day ≤ springSunday year := by
    refine hleast ⟨?_, hsunday⟩
    unfold daySeconds at *
    omega
  unfold daySeconds at *
  -- The due time lies ahead on that day, and no day before it is left.
  have hday : day = springSunday year := by omega
  refine ⟨hwinter, isSummer_iff.mpr ⟨year, by omega, by omega⟩, by omega⟩

/-- A skipped time is moved back over the current instant. -/
theorem Skips.next_le (hskips : s.Skips c) (h : s.Proper) : s.next c ≤ c := by
  obtain ⟨hwinter, hsummer, hnear⟩ := hskips.ahead_spec h
  have hnext := next_of_eastern hskips.1 hskips.isDaily c
  obtain ⟨hzone, -, -, _, _, -, -, hc, -⟩ := hskips
  rw [offsetAt_of_inCalendar hc, hzone, Zone.offset_of_winter hwinter] at hnext
  by_cases hguess : inCalendar (s.ahead c) = true
  · rw [offsetAt_of_inCalendar hguess, hzone, Zone.offset_of_summer hsummer] at hnext
    omega
  · rw [offsetAt_of_not_inCalendar hguess] at hnext
    omega

/-- Behind the calendar the clock is taken for one in UTC, and the instant moved back by
    the whole offset. -/
theorem Oversteps.next_le (hover : s.Oversteps c) (h : s.Proper) : s.next c ≤ c := by
  obtain ⟨hzone, hdaily, hc, hguess, hnear⟩ := hover
  have hnext := next_of_eastern hzone hdaily c
  have hpassed := h.lt_ahead c
  rw [inCalendar_iff] at hguess
  have hrange := inCalendar_iff.mp hc
  have hwinter : isSummer c = false := isSummer_at_end (by omega) (by omega)
  rw [offsetAt_of_inCalendar hc, hzone, Zone.offset_of_winter hwinter,
    offsetAt_of_not_inCalendar (by rw [inCalendar_iff]; exact hguess)] at hnext
  omega

/-- On the local clock nothing else moves a rollover by day back over the current
    instant. -/
theorem Proper.skips_or_oversteps (h : s.Proper) (hzone : s.zone = .eastern)
    (hdaily : s.unit.IsDaily) (hle : s.next c ≤ c) : s.Skips c ∨ s.Oversteps c := by
  have hpassed := h.lt_ahead c
  have hnow := Zone.offset_cases c
  have hthen := Zone.offset_cases (s.ahead c)
  rw [next_of_eastern hzone hdaily] at hle
  -- The offsets are those of the clock inside the calendar only.
  by_cases hc : inCalendar c = true
  · rw [offsetAt_of_inCalendar hc, hzone] at hle
    by_cases hguess : inCalendar (s.ahead c) = true
    · rw [offsetAt_of_inCalendar hguess, hzone] at hle
      -- The guess lies ahead, so it is moved back by an hour: from winter to summer.
      have hwinter : isSummer c = false := by
        rw [Bool.eq_false_iff]
        intro hsummer
        rw [Zone.offset_of_summer hsummer] at hle
        omega
      have hsummer : isSummer (s.ahead c) = true := by
        by_cases hchanged : isSummer (s.ahead c) = true
        · exact hchanged
        · rw [Zone.offset_of_winter hwinter,
            Zone.offset_of_winter (Bool.eq_false_iff.mpr hchanged)] at hle
          omega
      exact .inl (h.skips_of_change hzone hdaily hc hwinter hsummer (by omega))
    · rw [offsetAt_of_not_inCalendar hguess] at hle
      -- The guess has no date, and the instant is taken for one in UTC.
      exact .inr ⟨hzone, hdaily, hc, hguess, by omega⟩
  · rw [offsetAt_of_not_inCalendar hc] at hle
    by_cases hguess : inCalendar (s.ahead c) = true
    · rw [offsetAt_of_inCalendar hguess, hzone] at hle
      omega
    · rw [offsetAt_of_not_inCalendar hguess] at hle
      omega

/-- **Ahead**: the next instant lies behind the current one, unless the clock is about to
    skip the time at which it is due, or the calendar is about to end. -/
theorem lt_next_iff (h : s.Proper) (c : Int) :
    c < s.next c ↔ ¬ (s.Skips c ∨ s.Oversteps c) := by
  constructor
  · intro hlt hback
    cases hback with
    | inl hskips =>
      have hle := hskips.next_le h
      omega
    | inr hover =>
      have hle := hover.next_le h
      omega
  · intro hnone
    by_cases hdaily : s.unit.IsDaily
    · cases hzone : s.zone with
      | utc => exact InUtc.lt_next ⟨hzone, h.count, h.atTime⟩ c
      | eastern =>
        by_cases hle : s.next c ≤ c
        · exact absurd (h.skips_or_oversteps hzone hdaily hle) hnone
        · omega
    · -- Any other unit is never corrected.
      have hpos := s.unit.length_pos
      have hinterval := h.interval_ge
      rw [next_of_not_isDaily hdaily]
      omega

/-- Half past one in the morning on the day on which the clock goes forward, when it skips
    a quarter past two. -/
theorem lt_next_iff_before_spring :
    (everyDayAt 8100).Proper ∧
      (1710052200 < (everyDayAt 8100).next 1710052200 ↔
        ¬ ((everyDayAt 8100).Skips 1710052200 ∨ (everyDayAt 8100).Oversteps 1710052200)) := by
  have hproper : (everyDayAt 8100).Proper := everyDayAt_proper (by decide)
  exact ⟨hproper, lt_next_iff hproper 1710052200⟩

/-- The next rollover from there was due a quarter of an hour ago. -/
theorem next_behind_spring :
    (everyDayAt 8100).Proper ∧ ¬ 1710052200 < (everyDayAt 8100).next 1710052200 := by
  have hnext : (everyDayAt 8100).next 1710052200 = 1710051300 := by decide +kernel
  refine ⟨everyDayAt_proper (by decide), ?_⟩
  rw [hnext]
  decide

end Schedule

end Logbook.Rotation
