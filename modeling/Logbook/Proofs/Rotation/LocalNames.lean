import Logbook.Proofs.Rotation.Instants
import Logbook.Proofs.Rotation.Stamp

/-! # Names on the local clock

    The name of an archive tells when its period began, as the local clock shows it, moved
    by what the offset of the clock has changed from then to the rollover.  Around a change
    of the clock two periods can get one name.  Whether they can, is told by the schedule:
    by its interval for seconds to days, and by its time of day for days and weeks that are
    counted one by one.  A schedule that does not tell all periods apart still does as long
    as the offset stays what it is.
-/

namespace Logbook.Rotation

open Time

/-! ## Units -/

namespace Period

/-- Days on which a period ends are units apart. -/
theorem unit_apart {p : Period} (hdaily : p.IsDaily) {day day' k : Int}
    (h : p.EndsOn day) (h' : p.EndsOn day')
    (hlt : day * daySeconds + k * p.length < day' * daySeconds) :
    day * daySeconds + (k * p.length + p.length) ≤ day' * daySeconds := by
  unfold daySeconds at *
  cases p with
  | midnight =>
    simp only [length, daySeconds] at *
    omega
  | weekday target =>
    -- Both days are the same day of the week, so they are whole weeks apart.
    have hday : Time.weekday day = target.val := h
    have hday' : Time.weekday day' = target.val := h'
    unfold Time.weekday at hday hday'
    simp only [length, daySeconds] at *
    omega
  | seconds | minutes | hours | days => cases hdaily

/-- A unit is a week at most. -/
theorem length_le (p : Period) : p.length ≤ 7 * daySeconds := by
  cases p <;> simp [length, daySeconds]

/-- Units of days and weeks are whole days. -/
theorem whole_days {p : Period} (hdaily : p.IsDaily) (k : Int) :
    ∃ m, k * p.length = m * daySeconds := by
  cases p with
  | midnight => exact ⟨k, rfl⟩
  | weekday target =>
    refine ⟨k * 7, ?_⟩
    simp only [length, daySeconds]
    omega
  | seconds | minutes | hours | days => cases hdaily

theorem grain_pos (p : Period) : 0 < p.grain := by
  cases p <;> simp [grain, daySeconds]

/-- A unit is told from the next one by its name. -/
theorem grain_le_length (p : Period) : p.grain ≤ p.length := by
  cases p <;> simp [grain, length, daySeconds]

/-- Numbers that are a divisor apart have different quotients. -/
theorem ediv_grain_lt {p : Period} {a b : Int} (h : a + p.grain ≤ b) :
    a / p.grain < b / p.grain := by
  have hpos := p.grain_pos
  have hnext : (a + p.grain) / p.grain = a / p.grain + 1 := by
    rw [Int.add_ediv_of_dvd_right (Int.dvd_refl _), Int.ediv_self (by omega)]
  have hle := Int.ediv_le_ediv hpos h
  omega

end Period

namespace Schedule

variable {s : Schedule} {c t t' u : Int}

/-- **Inside**: an instant of the calendar that is eight days behind its start and a day
    before its end. -/
def Inside (t : Int) : Prop :=
  -8334601228800 + 8 * daySeconds ≤ t ∧ t ≤ 8210266876799 - daySeconds

instance (t : Int) : Decidable (Inside t) := inferInstanceAs (Decidable (_ ∧ _))

theorem Inside.inCalendar (h : Inside t) : inCalendar t = true := by
  unfold Inside daySeconds at h
  rw [inCalendar_iff]
  omega

/-- What the name of an archive tells of its period: the start, as the clock shows it, in the
    unit of the names.  The instant that was due was computed from `c`, and the rollover
    comes at `t`. -/
def stamp (s : Schedule) (c t : Int) : Int :=
  s.shown (s.keepWallClock t (s.slot c)) / s.unit.grain

/-- An instant moved by what the offset of the local clock is different from that at
    another one. -/
def moved (t u : Int) : Int := u + (Zone.eastern.offset t - Zone.eastern.offset u)

theorem moved_range (t u : Int) : u - 3600 ≤ moved t u ∧ moved t u ≤ u + 3600 := by
  have hoffset := Zone.offset_cases t
  have hoffset' := Zone.offset_cases u
  unfold moved
  omega

/-- What the local clock shows at an instant that has been moved. -/
theorem shown_keepWallClock (hzone : s.zone = .eastern) (ht : Inside t)
    (hu : -8334601228800 + 3600 ≤ u ∧ u ≤ t) :
    s.shown (s.keepWallClock t u) = moved t u + Zone.eastern.offset (moved t u) := by
  have hrange := moved_range t u
  have htime := ht.inCalendar
  unfold Inside daySeconds at ht
  have hin : inCalendar u = true := by
    rw [inCalendar_iff]
    omega
  -- An hour's margin keeps the moved instant where the calendar can show it.
  have hmoved : inCalendar (moved t u) = true := by
    rw [inCalendar_iff]
    omega
  have hkept : s.keepWallClock t u = moved t u := by
    rw [keepWallClock, hzone, offsetAt_of_inCalendar htime, offsetAt_of_inCalendar hin, hzone]
    rfl
  rw [hkept, shown, if_pos hmoved, hzone, Zone.wall_eq]

/-! ## Days and weeks -/

/-- What is guessed from the offset is dated if the next instant has come. -/
theorem Proper.ahead_inCalendar (h : s.Proper) (hzone : s.zone = .eastern)
    (hdaily : s.unit.IsDaily) (hc : Inside c) (ht : Inside t) (hdue : s.next c ≤ t) :
    inCalendar (s.ahead c) = true := by
  have hlt := h.lt_ahead c
  have hnext := next_of_eastern hzone hdaily c
  have hoffset := Zone.offset_cases c
  by_cases hguess : inCalendar (s.ahead c) = true
  · exact hguess
  · rw [offsetAt_of_inCalendar hc.inCalendar, offsetAt_of_not_inCalendar hguess, hzone] at hnext
    unfold Inside daySeconds at hc ht
    rw [inCalendar_iff]
    omega

/-- **Last day**: the day on which the period that is under way at an instant ends.  Its due
    second lies ahead of what the clock shows, and the period began a unit before, by the
    offset at the instant that was guessed. -/
structure LastDay (s : Schedule) (c day : Int) : Prop where
  ends : s.unit.EndsOn day
  later : c + Zone.eastern.offset c < day * daySeconds + s.dueSecond
  guess : s.ahead c =
    day * daySeconds + s.dueSecond + (s.count - 1) * s.unit.length - Zone.eastern.offset c
  began : s.slot c =
    day * daySeconds + s.dueSecond - s.unit.length - Zone.eastern.offset (s.ahead c)

/-- An interval is a unit and those after the first. -/
theorem interval_eq (s : Schedule) : s.interval = (s.count - 1) * s.unit.length + s.unit.length := by
  rw [interval, Int.sub_mul, Int.one_mul, Int.mul_comm]
  omega

theorem Proper.lastDay {day : Int} (h : s.Proper) (hzone : s.zone = .eastern)
    (hdaily : s.unit.IsDaily) (hc : Inside c) (hguess : inCalendar (s.ahead c) = true)
    (hday : IsLeast {n | s.zone.wall c < n * daySeconds + s.dueSecond ∧ s.unit.EndsOn n} day) :
    s.LastDay c day := by
  obtain ⟨day', hday', hahead⟩ := h.ahead_spec hc.inCalendar
  obtain rfl : day = day' := Int.le_antisymm (hday.2 hday'.1) (hday'.2 hday.1)
  obtain ⟨hlt, hends⟩ := hday.1
  have hnext := next_of_eastern hzone hdaily c
  rw [offsetAt_of_inCalendar hc.inCalendar, offsetAt_of_inCalendar hguess, hzone] at hnext
  rw [hzone] at hlt hahead
  rw [Zone.wall_eq] at hlt
  have hinterval := s.interval_eq
  refine ⟨hends, hlt, hahead, ?_⟩
  unfold slot
  omega

theorem Proper.exists_lastDay (h : s.Proper) (hzone : s.zone = .eastern)
    (hdaily : s.unit.IsDaily) (hc : Inside c) (ht : Inside t) (hdue : s.next c ≤ t) :
    ∃ day, s.LastDay c day := by
  obtain ⟨day, hday, -⟩ := h.ahead_spec hc.inCalendar
  exact ⟨day, h.lastDay hzone hdaily hc (h.ahead_inCalendar hzone hdaily hc ht hdue) hday⟩

/-- The start of the period is that of a day with the due second on the clock. -/
def start (s : Schedule) (day : Int) : Int := day * daySeconds + s.dueSecond - s.unit.length

/-- **The name tells the day** on which the period began, as long as that is not within an
    hour of midnight: the correction by the offsets makes up two hours at most, and two
    hours only right behind a change of the clock. -/
theorem LastDay.shown_range {day : Int} (h : s.LastDay c day) (hzone : s.zone = .eastern)
    (ht : Inside t) (hu : -8334601228800 + 3600 ≤ s.slot c ∧ s.slot c ≤ t) :
    s.start day - 7200 ≤ s.shown (s.keepWallClock t (s.slot c)) ∧
      s.shown (s.keepWallClock t (s.slot c)) ≤ s.start day + 7200 ∧
      (3600 ≤ s.start day % daySeconds → s.start day % daySeconds < 82800 →
        s.shown (s.keepWallClock t (s.slot c)) / daySeconds = s.start day / daySeconds) := by
  have hslot : s.slot c = s.start day - Zone.eastern.offset (s.ahead c) := h.began
  have hguess := Zone.offset_cases (s.ahead c)
  have hthen := Zone.offset_cases (moved t (s.slot c))
  have hmoved : moved t (s.slot c) =
    s.slot c + (Zone.eastern.offset t - Zone.eastern.offset (s.slot c)) := rfl
  rw [shown_keepWallClock hzone ht hu]
  generalize s.start day = b at *
  have hnow := Zone.offset_cases t
  have hold := Zone.offset_cases (s.slot c)
  unfold daySeconds
  -- How the offset has changed since then says in which direction the start is moved.
  rcases Int.lt_trichotomy (Zone.eastern.offset t) (Zone.eastern.offset (s.slot c)) with
    hback | hsame | hforth
  · by_cases hchanged : Zone.eastern.offset (moved t (s.slot c)) < Zone.eastern.offset (s.slot c)
    · -- The period began within an hour of the clock going forward.
      obtain ⟨n, -, hbefore, hreached⟩ := Zone.forward_between (by omega) hchanged
      unfold daySeconds at hbefore hreached
      omega
    · omega
  · have hself : moved t (s.slot c) = s.slot c := by omega
    rw [hself]
    omega
  · by_cases hchanged : Zone.eastern.offset (s.slot c) < Zone.eastern.offset (moved t (s.slot c))
    · -- The clock goes forward within an hour of the start of the period.
      obtain ⟨n, -, hbefore, hreached⟩ := Zone.forward_between (by omega) hchanged
      unfold daySeconds at hbefore hreached
      omega
    · omega

/-- **Days advance** by an interval, unless the clock is put back over the due second or
    skips it.  That can happen only to a due second between one and three in the morning, on
    the Sunday of the change. -/
theorem LastDay.advances {day day' : Int} (h : s.LastDay c day) (h' : s.LastDay t day')
    (hproper : s.Proper) (hdaily : s.unit.IsDaily) (hdue : s.next c ≤ t) :
    day * daySeconds + s.interval ≤ day' * daySeconds ∨
      day * daySeconds + (s.count - 1) * s.unit.length ≤ day' * daySeconds ∧
        3600 < s.dueSecond ∧ s.dueSecond < 10800 ∧ (s.count = 1 → weekday day = 6) ∧
          Zone.eastern.offset t < Zone.eastern.offset (s.ahead c) := by
  have hguess := h.guess
  have hlater := h'.later
  have hbegan := h.began
  have hnext : s.next c = s.slot c + s.interval := by
    unfold Schedule.slot
    omega
  have hone : s.count = 1 → (s.count - 1 : Int) * s.unit.length = 0 := by
    intro hcount
    rw [hcount]
    exact Int.zero_mul _
  have hapart := Period.unit_apart hdaily (k := s.count - 1) h.ends h'.ends
  obtain ⟨m, hwhole⟩ := Period.whole_days hdaily (s.count - 1)
  obtain ⟨hlow, hhigh⟩ := hproper.dueSecond_range
  rw [s.interval_eq] at hnext ⊢
  generalize (s.count - 1 : Int) * s.unit.length = units at *
  have hnow := Zone.offset_cases t
  have hold := Zone.offset_cases c
  have hthen := Zone.offset_cases (s.ahead c)
  -- If the clock now shows the next due second or more, the day has advanced.
  by_cases hshown : day * daySeconds + s.dueSecond + units ≤ t + Zone.eastern.offset t
  · exact .inl (hapart (by omega))
  · -- The offset at the guess was more than it is now.
    right
    have hless : Zone.eastern.offset t < Zone.eastern.offset (s.ahead c) := by omega
    have hsunday : ∃ n, weekday n = 6 ∧
        n * daySeconds + 3600 < day * daySeconds + units + s.dueSecond ∧
        day * daySeconds + units + s.dueSecond < n * daySeconds + 10800 := by
      by_cases hback : Zone.eastern.offset c = Zone.eastern.offset (s.ahead c)
      · obtain ⟨n, hsunday, hbefore, hreached⟩ := Zone.back_between (by omega) hless
        exact ⟨n, hsunday, by omega, by omega⟩
      · obtain ⟨n, hsunday, hbefore, hreached⟩ := Zone.forward_between (by omega) hless
        exact ⟨n, hsunday, by omega, by omega⟩
    obtain ⟨n, hsunday, hfrom, hto⟩ := hsunday
    unfold weekday at *
    unfold daySeconds at *
    omega

/-- The start of the period lies in the calendar. -/
theorem LastDay.slot_range {day : Int} (h : s.LastDay c day) (hproper : s.Proper) (hc : Inside c)
    (hdue : s.next c ≤ t) :
    -8334601228800 + 3600 ≤ s.slot c ∧ s.slot c ≤ t := by
  have hbegan := h.began
  have hlater := h.later
  have hnow := Zone.offset_cases c
  have hthen := Zone.offset_cases (s.ahead c)
  have hinterval := hproper.interval_ge
  have hpos := s.unit.length_pos
  have hweek := s.unit.length_le
  have hnext : s.next c = s.slot c + s.interval := by
    unfold Schedule.slot
    omega
  -- `Inside` leaves a margin of more than a week, so a week and two offsets stay within.
  unfold Inside daySeconds at *
  omega

/-! ## Periods that are told apart -/

/-- Any other period begins at once. -/
theorem slot_of_not_isDaily (h : ¬ s.unit.IsDaily) (c : Int) : s.slot c = c := by
  unfold slot
  rw [next_of_not_isDaily h]
  omega

/-- **Tells apart**: seconds to days are counted by two hours and a unit of the names at
    least.  Midnights and weeks are counted by twos at least, or they are due at a time of
    day that no change of the clock moves to another day or shows twice; to a week that does
    not end on a Sunday no such change happens. -/
def TellsApart (s : Schedule) : Prop :=
  match s.unit with
  | .seconds | .minutes | .hours | .days => 7200 + s.unit.grain ≤ s.interval
  | .midnight => 2 ≤ s.count ∨ s.dueSecond = 3600 ∨ 10800 ≤ s.dueSecond ∧ s.dueSecond < 82800
  | .weekday day =>
    2 ≤ s.count ∨ day ≠ Fin.last 6 ∨ s.dueSecond ≤ 3600 ∨ 10800 ≤ s.dueSecond

/-- Intervals of seconds to days are told apart: the correction can bring two starts of
    periods closer by three hours, but that takes two changes of the clock. -/
theorem TellsApart.stamp_lt_counted (h : s.TellsApart) (hzone : s.zone = .eastern)
    (hdaily : ¬ s.unit.IsDaily) (hc : Inside c) (ht : Inside t) (ht' : Inside t')
    (hdue : s.next c ≤ t) (hdue' : s.next t ≤ t') : s.stamp c t < s.stamp t t' := by
  have hlong : 7200 + s.unit.grain ≤ s.interval := by
    unfold TellsApart at h
    cases hunit : s.unit with
    | seconds | minutes | hours | days =>
      rw [hunit] at h
      exact h
    | midnight | weekday _ =>
      rw [hunit] at hdaily
      exact absurd trivial hdaily
  have hpos := s.unit.grain_pos
  rw [next_of_not_isDaily hdaily] at hdue hdue'
  unfold stamp
  rw [slot_of_not_isDaily hdaily, slot_of_not_isDaily hdaily,
    shown_keepWallClock hzone ht (by unfold Inside daySeconds at hc; omega),
    shown_keepWallClock hzone ht' (by unfold Inside daySeconds at ht; omega)]
  -- A whole grain between the two starts gives different names.
  refine Period.ediv_grain_lt ?_
  have hgrain : s.unit.grain ≤ daySeconds := by
    cases s.unit <;> simp [Period.grain, daySeconds]
  have hmoved : moved t c = c + (Zone.eastern.offset t - Zone.eastern.offset c) := rfl
  have hmoved' : moved t' t = t + (Zone.eastern.offset t' - Zone.eastern.offset t) := rfl
  have hold := Zone.offset_cases c
  have hnow := Zone.offset_cases t
  have hlater := Zone.offset_cases t'
  have hshown := Zone.offset_cases (moved t c)
  have hshown' := Zone.offset_cases (moved t' t)
  by_cases hnear : moved t' t < c + 100 * daySeconds
  · -- Not both starts are brought closer by a change between the offsets.
    have honce := fun h h' => Zone.offset_between (u := c) (v := moved t c) h h' hnear
    omega
  · unfold daySeconds at *
    omega

/-- The unit of the names of days and weeks is a day. -/
theorem stamp_of_isDaily (h : s.unit.IsDaily) (c t : Int) :
    s.stamp c t = s.shown (s.keepWallClock t (s.slot c)) / daySeconds := by
  unfold stamp
  cases hunit : s.unit with
  | midnight | weekday _ => rfl
  | seconds | minutes | hours | days =>
    rw [hunit] at h
    cases h

/-- Days and weeks are told apart. -/
theorem TellsApart.stamp_lt_daily (h : s.TellsApart) (hzone : s.zone = .eastern)
    (hproper : s.Proper) (hdaily : s.unit.IsDaily) (hc : Inside c) (ht : Inside t) (ht' : Inside t')
    (hdue : s.next c ≤ t) (hdue' : s.next t ≤ t') : s.stamp c t < s.stamp t t' := by
  obtain ⟨day, hday⟩ := hproper.exists_lastDay hzone hdaily hc ht hdue
  obtain ⟨day', hday'⟩ := hproper.exists_lastDay hzone hdaily ht ht' hdue'
  obtain ⟨hfrom, hto, hsame⟩ := hday.shown_range hzone ht (hday.slot_range hproper hc hdue)
  obtain ⟨hfrom', hto', hsame'⟩ := hday'.shown_range hzone ht' (hday'.slot_range hproper ht hdue')
  have hadvances := hday.advances hday' hproper hdaily hdue
  have hcount := hproper.count
  have hends := hday.ends
  rw [stamp_of_isDaily hdaily, stamp_of_isDaily hdaily]
  unfold TellsApart at h
  unfold start at *
  rw [s.interval_eq] at hadvances
  unfold daySeconds at *
  -- Names show the day, so what counts is which day the two starts fall on.
  cases hunit : s.unit with
  | midnight =>
    simp only [hunit, Period.length, daySeconds] at *
    omega
  | weekday target =>
    rw [hunit] at hends
    have htarget : weekday day = target.val := hends
    simp only [hunit, Period.length, daySeconds, Fin.ext_iff, ne_eq, Fin.val_last] at *
    omega
  | seconds | minutes | hours | days =>
    rw [hunit] at hdaily
    cases hdaily

/-- **Periods are told apart**: the one that begins when an instant has come has a later
    name than the one that this instant ends. -/
theorem TellsApart.stamp_lt (h : s.TellsApart) (hzone : s.zone = .eastern) (hproper : s.Proper)
    (hc : Inside c) (ht : Inside t) (ht' : Inside t') (hdue : s.next c ≤ t)
    (hdue' : s.next t ≤ t') : s.stamp c t < s.stamp t t' := by
  by_cases hdaily : s.unit.IsDaily
  · exact h.stamp_lt_daily hzone hproper hdaily hc ht ht' hdue hdue'
  · exact h.stamp_lt_counted hzone hdaily hc ht ht' hdue hdue'

/-- **Distinguishes**: between some instants, a period that begins when one of them has come
    has a later name than the one that this instant ends. -/
def Distinguishes (s : Schedule) (V : Int → Prop) : Prop :=
  ∀ c t t', V c → V t → V t' → s.next c ≤ t → s.next t ≤ t' → s.stamp c t < s.stamp t t'

theorem Distinguishes.mono {V V' : Int → Prop} (h : s.Distinguishes V) (hsub : ∀ t, V' t → V t) :
    s.Distinguishes V' :=
  fun c t t' hc ht ht' => h c t t' (hsub c hc) (hsub t ht) (hsub t' ht')

theorem TellsApart.distinguishes (h : s.TellsApart) (hzone : s.zone = .eastern)
    (hproper : s.Proper) : s.Distinguishes Inside :=
  fun _ _ _ hc ht ht' hdue hdue' => h.stamp_lt hzone hproper hc ht ht' hdue hdue'

/-! ## While the offset stays what it is -/

/-- **Steady**: the offset of the local clock is the same from a unit before an instant to
    an hour behind another one. -/
def Steady (s : Schedule) (first last : Int) : Prop :=
  ∀ u, first - s.unit.length ≤ u → u ≤ last + 3600 →
    Zone.eastern.offset u = Zone.eastern.offset first

/-- An instant of the calendar between two others. -/
def Between (first last t : Int) : Prop := Inside t ∧ first ≤ t ∧ t ≤ last

namespace Steady

variable {first last : Int}

/-- The offset at the guess is that of all instants. -/
theorem offset_ahead (h : s.Steady first last) (hzone : s.zone = .eastern) (hproper : s.Proper)
    (hdaily : s.unit.IsDaily) (hc : Between first last c) (ht : Between first last t)
    (hdue : s.next c ≤ t) : Zone.eastern.offset (s.ahead c) = Zone.eastern.offset first := by
  obtain ⟨hc, hfirst, -⟩ := hc
  obtain ⟨ht, -, hlast⟩ := ht
  have hpos := s.unit.length_pos
  have hlt := hproper.lt_ahead c
  have hguess := hproper.ahead_inCalendar hzone hdaily hc ht hdue
  have hnext := next_of_eastern hzone hdaily c
  rw [offsetAt_of_inCalendar hc.inCalendar, offsetAt_of_inCalendar hguess, hzone] at hnext
  have hnow := Zone.offset_cases c
  have hthen := Zone.offset_cases (s.ahead c)
  exact h _ (by omega) (by omega)

/-- A period begins a unit before the current instant at most. -/
theorem slot_range (h : s.Steady first last) (hzone : s.zone = .eastern) (hproper : s.Proper)
    (hc : Between first last c) (ht : Between first last t) (hdue : s.next c ≤ t) :
    c - s.unit.length ≤ s.slot c ∧ s.slot c ≤ t := by
  have hpos := s.unit.length_pos
  have hinterval := hproper.interval_ge
  have hnext : s.next c = s.slot c + s.interval := by
    unfold slot
    omega
  -- A period of days begins on its due second, one of seconds when the last one ended.
  by_cases hdaily : s.unit.IsDaily
  · obtain ⟨day, hday⟩ := hproper.exists_lastDay hzone hdaily hc.1 ht.1 hdue
    have hbegan := hday.began
    have hlater := hday.later
    rw [h.offset_ahead hzone hproper hdaily hc ht hdue] at hbegan
    obtain ⟨-, hfirst, hlast⟩ := hc
    rw [h c (by omega) (by omega)] at hlater
    omega
  · rw [slot_of_not_isDaily hdaily] at hnext ⊢
    omega

/-- Periods begin a unit apart at least. -/
theorem slot_advances (h : s.Steady first last) (hzone : s.zone = .eastern) (hproper : s.Proper)
    (hc : Between first last c) (ht : Between first last t) (ht' : Between first last t')
    (hdue : s.next c ≤ t) (hdue' : s.next t ≤ t') : s.slot c + s.unit.length ≤ s.slot t := by
  have hpos := s.unit.length_pos
  have hinterval := hproper.interval_ge
  by_cases hdaily : s.unit.IsDaily
  · obtain ⟨day, hday⟩ := hproper.exists_lastDay hzone hdaily hc.1 ht.1 hdue
    obtain ⟨day', hday'⟩ := hproper.exists_lastDay hzone hdaily ht.1 ht'.1 hdue'
    have hthen := h.offset_ahead hzone hproper hdaily hc ht hdue
    have hbegan := hday.began
    have hbegan' := hday'.began
    rw [hthen] at hbegan
    rw [h.offset_ahead hzone hproper hdaily ht ht' hdue'] at hbegan'
    -- The clock is not put back.
    rcases hday.advances hday' hproper hdaily hdue with hadvances | ⟨-, -, -, -, hback⟩
    · omega
    · obtain ⟨-, hfirst, hlast⟩ := ht
      rw [hthen, h t (by omega) (by omega)] at hback
      exact absurd hback (Int.lt_irrefl _)
  · rw [next_of_not_isDaily hdaily] at hdue
    rw [slot_of_not_isDaily hdaily, slot_of_not_isDaily hdaily]
    omega

/-- The start of a period is shown as it is. -/
theorem shown_slot (h : s.Steady first last) (hzone : s.zone = .eastern) (hproper : s.Proper)
    (hc : Between first last c) (ht : Between first last t) (hdue : s.next c ≤ t) :
    s.shown (s.keepWallClock t (s.slot c)) = s.slot c + Zone.eastern.offset first := by
  obtain ⟨hlow, hhigh⟩ := h.slot_range hzone hproper hc ht hdue
  have hpos := s.unit.length_pos
  have hweek := s.unit.length_le
  obtain ⟨hc, hfirst, -⟩ := hc
  obtain ⟨ht, hfrom, hlast⟩ := ht
  have hstart : Zone.eastern.offset (s.slot c) = Zone.eastern.offset first :=
    h _ (by omega) (by omega)
  -- With one offset throughout there is nothing to correct.
  have hself : moved t (s.slot c) = s.slot c := by
    rw [moved, hstart, h t (by omega) (by omega)]
    omega
  rw [shown_keepWallClock hzone ht ⟨by unfold Inside daySeconds at *; omega, hhigh⟩, hself, hstart]

/-- **On a steady clock** all periods are told apart. -/
theorem stamp_lt (h : s.Steady first last) (hzone : s.zone = .eastern) (hproper : s.Proper)
    (hc : Between first last c) (ht : Between first last t) (ht' : Between first last t')
    (hdue : s.next c ≤ t) (hdue' : s.next t ≤ t') : s.stamp c t < s.stamp t t' := by
  have hadvances := h.slot_advances hzone hproper hc ht ht' hdue hdue'
  have hgrain := s.unit.grain_le_length
  unfold stamp
  rw [h.shown_slot hzone hproper hc ht hdue, h.shown_slot hzone hproper ht ht' hdue']
  exact Period.ediv_grain_lt (by omega)

theorem distinguishes (h : s.Steady first last) (hzone : s.zone = .eastern)
    (hproper : s.Proper) : s.Distinguishes (Between first last) :=
  fun _ _ _ hc ht ht' hdue hdue' => h.stamp_lt hzone hproper hc ht ht' hdue hdue'

end Steady

end Schedule

end Logbook.Rotation
