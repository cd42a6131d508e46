import Logbook.Proofs.Time.Summer
import Logbook.Rotation.Schedule

/-! # Periods of a schedule

    A schedule in UTC divides time into periods.  The next instant lies behind the
    current one, and a period that is begun after an instant has come begins later than
    the one that this instant ends, in the unit in which archives are named.
-/

namespace Logbook.Rotation

open Time

/-- The seconds that the name of an archive tells apart. -/
def Period.grain : Period → Int
  | seconds => 1
  | minutes => 60
  | hours => 3600
  | days | midnight | weekday _ => daySeconds

theorem Period.length_pos (p : Period) : 0 < p.length := by
  cases p <;> simp [length, daySeconds]

/-- A rollover is due at a time of day, every so many days or weeks. -/
def Period.IsDaily : Period → Prop
  | midnight | weekday _ => True
  | seconds | minutes | hours | days => False

/-- The days to wait from a day of the week. -/
def Period.wait : Period → Int → Int
  | weekday target, day => (target.val - day) % 7
  | seconds, _ | minutes, _ | hours, _ | days, _ | midnight, _ => 0

theorem Period.wait_nonneg (p : Period) (day : Int) : 0 ≤ p.wait day := by
  cases p with
  | weekday target => exact Int.emod_nonneg _ (by decide)
  | seconds | minutes | hours | days | midnight => exact Int.le_refl 0

namespace Schedule

variable {s : Schedule} {c t : Int}

/-- **Proper**: a schedule that counts at least one unit at a time, and is due at a second
    of the day. -/
structure Proper (s : Schedule) : Prop where
  count : 0 < s.count
  atTime : ∀ t, s.atTime? = some t → (t.seconds : Int) < daySeconds

/-- **In UTC**: a schedule that counts in UTC, at least one unit at a time, and is due at
    a second of the day. -/
structure InUtc (s : Schedule) : Prop where
  zone : s.zone = .utc
  count : 0 < s.count
  atTime : ∀ t, s.atTime? = some t → (t.seconds : Int) < daySeconds

theorem InUtc.proper (h : s.InUtc) : s.Proper := ⟨h.count, h.atTime⟩

/-- The start of the period that ends at the instant after another. -/
def slot (s : Schedule) (c : Int) : Int := s.next c - s.interval

/-- What a clock shows at an instant of the calendar. -/
theorem wallClock_eq (z : Zone) (h : inCalendar c = true) :
    wallClock z c = z.read ⟨c, 0⟩ := by
  simp [wallClock, h]

theorem inCalendar_iff : inCalendar c = true ↔ -8334601228800 ≤ c ∧ c ≤ 8210266876799 := by
  simp [inCalendar]

/-- Days of the week are counted from 0 to 6. -/
theorem nextDue_day (s : Schedule) (c : Int) : 0 ≤ (s.nextDue c).2 ∧ (s.nextDue c).2 < 7 := by
  unfold nextDue weekday
  dsimp only
  split <;> dsimp only <;> omega

/-- The next instant, if the offset of the clock does not change on the way. -/
def ahead (s : Schedule) (c : Int) : Int :=
  (s.nextDue c).1 + s.unit.wait (s.nextDue c).2 * daySeconds + (s.interval - s.unit.length)

/-- **Days and weeks** end when the clock shows what it would show without a change of its
    offset. -/
theorem next_of_isDaily (h : s.unit.IsDaily) (c : Int) :
    s.next c = s.keepWallClock c (s.ahead c) := by
  have hday := s.nextDue_day c
  unfold next ahead
  cases hunit : s.unit with
  | midnight => simp [Period.wait, Period.length]
  | weekday target =>
    have hwait : (if (s.nextDue c).2 < target.val then target.val - (s.nextDue c).2
        else if (s.nextDue c).2 = target.val then 0
        else 6 - (s.nextDue c).2 + target.val + 1 : Int) = (target.val - (s.nextDue c).2) % 7 := by
      split
      · omega
      · split <;> omega
    simp only [hwait, Period.wait, Period.length]
  | seconds | minutes | hours | days =>
    rw [hunit] at h
    cases h

/-- Any other unit ends after its length. -/
theorem next_of_not_isDaily (h : ¬ s.unit.IsDaily) (c : Int) : s.next c = c + s.interval := by
  unfold next
  cases hunit : s.unit with
  | seconds | minutes | hours | days => rfl
  | midnight | weekday _ =>
    rw [hunit] at h
    exact absurd trivial h

namespace Proper

theorem dueSecond_range (h : s.Proper) : 0 ≤ s.dueSecond ∧ s.dueSecond ≤ daySeconds := by
  unfold dueSecond
  cases hat : s.atTime? with
  | none => exact ⟨by decide, Int.le_refl _⟩
  | some t =>
    have hlt := h.atTime t hat
    exact ⟨by dsimp only; omega, Int.le_of_lt hlt⟩

/-- **A due second** comes within a day, on the clock of the schedule, on a day whose place
    in the week is told.  The offset is taken for what it is at the current instant. -/
theorem nextDue_spec (h : s.Proper) (hc : inCalendar c = true) :
    ∃ n, (s.nextDue c).1 = n * daySeconds + s.dueSecond - s.zone.offset c ∧
      s.zone.wall c < n * daySeconds + s.dueSecond ∧
      n * daySeconds + s.dueSecond ≤ s.zone.wall c + daySeconds ∧ (s.nextDue c).2 = weekday n := by
  obtain ⟨hlow, hhigh⟩ := h.dueSecond_range
  rw [Zone.wall_eq]
  unfold daySeconds at *
  simp only [nextDue, wallClock_eq _ hc, Zone.read, weekday, daySeconds]
  generalize s.zone.offset c = offset
  split
  · refine ⟨(c + offset) / 86400 + 1, ?_, ?_, ?_, ?_⟩ <;> omega
  · refine ⟨(c + offset) / 86400, ?_, ?_, ?_, rfl⟩ <;> omega

/-- An interval is a multiple of the unit. -/
theorem interval_ge (h : s.Proper) : s.unit.length ≤ s.interval := by
  have hcount := h.count
  have hlength := s.unit.length_pos
  have hone : s.unit.length * 1 ≤ s.unit.length * (s.count : Int) :=
    Int.mul_le_mul_of_nonneg_left (by omega) (by omega)
  rw [interval]
  omega

/-- A due second lies behind the current instant, also outside the calendar. -/
theorem lt_nextDue (h : s.Proper) (c : Int) : c < (s.nextDue c).1 := by
  obtain ⟨hlow, hhigh⟩ := h.dueSecond_range
  have hclock : 0 ≤ (wallClock s.zone c).secondOfDay ∧
      (wallClock s.zone c).secondOfDay < daySeconds := by
    show 0 ≤ _ % daySeconds ∧ _ % daySeconds < daySeconds
    unfold daySeconds
    omega
  unfold daySeconds at *
  simp only [nextDue, daySeconds]
  split <;> dsimp only <;> omega

/-- The next instant without a change of the offset lies behind the current one. -/
theorem lt_ahead (h : s.Proper) (c : Int) : c < s.ahead c := by
  have hdue := h.lt_nextDue c
  have hwait := s.unit.wait_nonneg (s.nextDue c).2
  have hinterval := h.interval_ge
  unfold ahead daySeconds
  omega

end Proper

namespace InUtc

theorem keepWallClock_eq (h : s.InUtc) (current result : Int) :
    s.keepWallClock current result = result := by
  rw [keepWallClock, h.zone]

/-- In UTC the offset never changes. -/
theorem next_eq_ahead (h : s.InUtc) (hdaily : s.unit.IsDaily) (c : Int) :
    s.next c = s.ahead c := by
  rw [next_of_isDaily hdaily, h.keepWallClock_eq]

/-! ## Days and weeks -/

/-- A due second lies behind the current instant, a day ahead at most, on a day whose
    place in the week is told. -/
theorem nextDue_spec (h : s.InUtc) (hc : inCalendar c = true) :
    ∃ n, (s.nextDue c).1 = n * daySeconds + s.dueSecond ∧ c < (s.nextDue c).1 ∧
      (s.nextDue c).1 ≤ c + daySeconds ∧ (s.nextDue c).2 = weekday n := by
  obtain ⟨n, hdue, hlt, hle, hday⟩ := h.proper.nextDue_spec hc
  rw [Zone.wall_eq, h.zone] at hlt hle
  rw [h.zone] at hdue
  unfold Zone.offset at *
  dsimp only at *
  exact ⟨n, by omega, by omega, by omega, hday⟩

/-- The next midnight, or time of day, from which whole days are counted. -/
theorem slot_midnight (h : s.InUtc) (hunit : s.unit = .midnight) (c : Int) :
    s.slot c = (s.nextDue c).1 - daySeconds := by
  rw [slot, h.next_eq_ahead (by rw [hunit]; trivial)]
  simp only [ahead, hunit, Period.wait, Period.length]
  omega

/-- The next due second of the day of the week, from which whole weeks are counted. -/
theorem slot_weekday (h : s.InUtc) {day : Fin 7} (hunit : s.unit = .weekday day)
    (hc : inCalendar c = true) :
    ∃ n, s.slot c = n * daySeconds + s.dueSecond - 7 * daySeconds ∧ weekday n = day.val ∧
      c < s.slot c + 7 * daySeconds ∧ s.slot c ≤ c := by
  obtain ⟨n, hdue, hlt, hle, hday⟩ := h.nextDue_spec hc
  have hrange : 0 ≤ weekday n ∧ weekday n < 7 := by
    unfold weekday
    omega
  refine ⟨n + (day.val - weekday n) % 7, ?_⟩
  have hslot : s.slot c =
      (s.nextDue c).1 + (day.val - weekday n) % 7 * daySeconds - 7 * daySeconds := by
    rw [slot, h.next_eq_ahead (by rw [hunit]; trivial)]
    simp only [ahead, hunit, Period.wait, Period.length, hday]
    omega
  rw [hslot, hdue]
  unfold daySeconds at *
  refine ⟨?_, ?_, ?_, ?_⟩
  · omega
  · unfold weekday
    omega
  · omega
  · omega

/-! ## The next instant -/

/-- Without a time of day a period begins at once. -/
theorem slot_eq (h : s.unit ≠ .midnight) (h' : ∀ day, s.unit ≠ .weekday day) (c : Int) :
    s.slot c = c := by
  unfold slot next
  split
  · next heq => exact absurd heq h
  · next day heq => exact absurd heq (h' day)
  · omega

/-- **The next instant** lies behind the current one. -/
theorem lt_next (h : s.InUtc) (c : Int) : c < s.next c := by
  by_cases hdaily : s.unit.IsDaily
  · rw [h.next_eq_ahead hdaily]
    exact h.proper.lt_ahead c
  · have hinterval := h.proper.interval_ge
    have hpos := s.unit.length_pos
    rw [next_of_not_isDaily hdaily]
    omega

/-- A period begins at the current instant, or less than a day or a week before it. -/
theorem slot_range (h : s.InUtc) (hc : inCalendar c = true) :
    c - 7 * daySeconds ≤ s.slot c ∧ s.slot c ≤ c := by
  cases hunit : s.unit with
  | midnight =>
    obtain ⟨n, -, hlt, hle, -⟩ := h.nextDue_spec hc
    rw [h.slot_midnight hunit]
    unfold daySeconds at *
    omega
  | weekday day =>
    obtain ⟨n, -, -, hlt, hle⟩ := h.slot_weekday hunit hc
    omega
  | seconds | minutes | hours | days =>
    rw [slot_eq (by simp [hunit]) (by simp [hunit])]
    unfold daySeconds
    omega

/-- **Periods advance**: after an instant has come, a period begins that has a later
    start, in the unit of the names of archives. -/
theorem slot_advances (h : s.InUtc) (hc : inCalendar c = true) (ht : inCalendar t = true)
    (hdue : s.next c ≤ t) : s.slot c / s.unit.grain < s.slot t / s.unit.grain := by
  have hinterval := h.proper.interval_ge
  have hnext : s.next c = s.slot c + s.interval := by
    unfold slot
    omega
  rw [hnext] at hdue
  cases hunit : s.unit with
  | midnight =>
    rw [hunit] at hinterval
    obtain ⟨n, heq, -, -, -⟩ := h.nextDue_spec hc
    obtain ⟨m, heq', hlt', -, -⟩ := h.nextDue_spec ht
    rw [h.slot_midnight hunit] at hdue ⊢
    rw [h.slot_midnight hunit]
    unfold Period.grain Period.length daySeconds at *
    dsimp only at hinterval ⊢
    omega
  | weekday day =>
    rw [hunit] at hinterval
    obtain ⟨n, heq, hday, -, -⟩ := h.slot_weekday hunit hc
    obtain ⟨m, heq', hday', hlt', -⟩ := h.slot_weekday hunit ht
    unfold weekday at hday hday'
    unfold Period.grain Period.length daySeconds at *
    dsimp only at hinterval ⊢
    omega
  | seconds | minutes | hours | days =>
    rw [hunit] at hinterval
    rw [slot_eq (by simp [hunit]) (by simp [hunit])] at hdue ⊢
    rw [slot_eq (by simp [hunit]) (by simp [hunit])]
    unfold Period.grain Period.length at *
    first
    | (dsimp only at hinterval ⊢; omega)
    | (unfold daySeconds at *; dsimp only at hinterval ⊢; omega)

end InUtc

end Schedule

end Logbook.Rotation
