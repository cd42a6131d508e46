import Logbook.Proofs.Rotation.Schedule
import Logbook.Proofs.Rotation.Shapes
import Logbook.Proofs.Time.Calendar
import Logbook.Proofs.Time.Digits
import Mathlib.Data.String.Basic

/-! # The time in the name of an archive

    The name of an archive tells at which time its period began, as far as the unit of
    the schedule goes.  Names of different periods are different; in the years of four
    digits later periods have greater names, and every such name is known again for that
    of an archive.
-/

namespace Logbook.Rotation

open Time Time.Pattern

/-! ## The text of an instant -/

/-- The date of an instant in UTC, from the year down. -/
def dateText (t : Int) : List Char :=
  yearText .zero (Date.ofDayNumber (t / daySeconds)).year ++
    ('-' :: twoDigits .zero (Date.ofDayNumber (t / daySeconds)).month ++
      '-' :: twoDigits .zero (Date.ofDayNumber (t / daySeconds)).day)

/-- The hour, the minute of the hour and the second of the minute of an instant. -/
def hourText (t : Int) : List Char := twoDigits .zero (t % daySeconds / 3600)

/-- The minute of an instant. -/
def minuteText (t : Int) : List Char := twoDigits .zero (t % daySeconds / 60 % 60)

/-- The second of an instant. -/
def secondText (t : Int) : List Char := twoDigits .zero (t % daySeconds % 60)

/-- The time of day of an instant, as far as a unit goes. -/
def Period.clockText : Period → Int → List Char
  | seconds, t => '_' :: (hourText t ++ '-' :: (minuteText t ++ '-' :: secondText t))
  | minutes, t => '_' :: (hourText t ++ '-' :: minuteText t)
  | hours, t => '_' :: hourText t
  | days, _ | midnight, _ | weekday _, _ => []

variable {s : Schedule} {a b t : Int} {p : Period}

/-- The seconds that the clock of a schedule shows at an instant; outside the calendar those
    that it shows at the start of 1970. -/
def Schedule.shown (s : Schedule) (t : Int) : Int := s.zone.wall (if inCalendar t then t else 0)

theorem Schedule.shown_utc (hzone : s.zone = .utc) (ht : inCalendar t = true) : s.shown t = t := by
  rw [shown, if_pos ht, Zone.wall_eq, hzone]
  exact Int.add_zero t

/-- What a clock shows, as a day and a second of the day. -/
theorem Schedule.wallClock_shown (s : Schedule) (t : Int) :
    (wallClock s.zone t).dayNumber = s.shown t / daySeconds ∧
      (wallClock s.zone t).secondOfDay = s.shown t % daySeconds := by
  rw [shown, Zone.wall_eq]
  exact ⟨rfl, rfl⟩

/-- **The suffix of an archive** is written as the clock shows it. -/
theorem archiveSuffix_shown (s : Schedule) (t : Int) :
    s.archiveSuffix t = String.ofList (dateText (s.shown t) ++ s.unit.clockText (s.shown t)) := by
  have hdate : items? "%Y-%m-%d" = some [.number .year .zero, .char '-', .number .month .zero,
      .char '-', .number .day .zero] := by decide
  have hhour : items? "%Y-%m-%d_%H" = some [.number .year .zero, .char '-', .number .month .zero,
      .char '-', .number .day .zero, .char '_', .number .hour .zero] := by decide
  have hminute : items? "%Y-%m-%d_%H-%M" = some [.number .year .zero, .char '-',
      .number .month .zero, .char '-', .number .day .zero, .char '_', .number .hour .zero,
      .char '-', .number .minute .zero] := by decide
  have hsecond : items? "%Y-%m-%d_%H-%M-%S" = some [.number .year .zero, .char '-',
      .number .month .zero, .char '-', .number .day .zero, .char '_', .number .hour .zero,
      .char '-', .number .minute .zero, .char '-', .number .second .zero] := by decide
  obtain ⟨hday, hclock⟩ := s.wallClock_shown t
  unfold Schedule.archiveSuffix
  -- Each pattern is read once above, so the items are rendered with the pattern closed.
  cases s.unit <;>
    simp [Period.pattern, hdate, hhour, hminute, hsecond, Reading.render?, Reading.itemText?,
      Reading.numberText, Reading.date, Reading.hour, Reading.minute, Reading.second,
      Period.clockText, dateText, hourText, minuteText, secondText, hday, hclock]

/-- The suffix of an archive in UTC. -/
theorem archiveSuffix_eq (hzone : s.zone = .utc) (ht : inCalendar t = true) :
    s.archiveSuffix t = String.ofList (dateText t ++ s.unit.clockText t) := by
  rw [archiveSuffix_shown, Schedule.shown_utc hzone ht]

/-! ## Parts of a text -/

theorem digits_month (t : Int) : Digits 2 (Date.ofDayNumber (t / daySeconds)).month.toNat
    (twoDigits .zero (Date.ofDayNumber (t / daySeconds)).month) := by
  have hrange := Date.ofDayNumber_range (t / daySeconds)
  exact digits_twoDigits (by omega) (by omega)

theorem digits_day (t : Int) : Digits 2 (Date.ofDayNumber (t / daySeconds)).day.toNat
    (twoDigits .zero (Date.ofDayNumber (t / daySeconds)).day) := by
  have hrange := Date.ofDayNumber_range (t / daySeconds)
  exact digits_twoDigits (by omega) (by omega)

theorem digits_hour (t : Int) : Digits 2 (t % daySeconds / 3600).toNat (hourText t) :=
  digits_twoDigits (by unfold daySeconds; omega) (by unfold daySeconds; omega)

theorem digits_minute (t : Int) : Digits 2 (t % daySeconds / 60 % 60).toNat (minuteText t) :=
  digits_twoDigits (by omega) (by omega)

theorem digits_second (t : Int) : Digits 2 (t % daySeconds % 60).toNat (secondText t) :=
  digits_twoDigits (by omega) (by omega)

/-- The time of day takes the same room at every instant. -/
theorem length_clockText (p : Period) (a b : Int) :
    (p.clockText a).length = (p.clockText b).length := by
  cases p <;> simp [Period.clockText, (digits_hour a).length, (digits_hour b).length,
    (digits_minute a).length, (digits_minute b).length, (digits_second a).length,
    (digits_second b).length]

/-- The characters of a date. -/
theorem mem_dateText {c : Char} (h : c ∈ dateText t) :
    c.isDigit = true ∨ c = '-' ∨ c = '+' := by
  unfold dateText at h
  rcases List.mem_append.mp h with hyear | hrest
  · exact mem_yearText hyear
  · simp only [List.cons_append, List.mem_cons, List.mem_append] at hrest
    rcases hrest with rfl | hmonth | rfl | hday
    · exact .inr (.inl rfl)
    · exact .inl ((digits_month t).digit c hmonth)
    · exact .inr (.inl rfl)
    · exact .inl ((digits_day t).digit c hday)

/-- The characters of a time of day. -/
theorem mem_clockText {c : Char} (h : c ∈ p.clockText t) :
    c.isDigit = true ∨ c = '-' ∨ c = '_' := by
  -- The text of every unit but the day is the start of that of the seconds.
  have hall : c ∈ Period.seconds.clockText t := by
    cases p with
    | days | midnight | weekday _ => cases h
    | hours | minutes | seconds =>
      simp only [Period.clockText, List.mem_cons, List.mem_append] at h ⊢
      tauto
  simp only [Period.clockText, List.mem_cons, List.mem_append] at hall
  rcases hall with rfl | hhour | rfl | hminute | rfl | hsecond
  · exact .inr (.inr rfl)
  · exact .inl ((digits_hour t).digit c hhour)
  · exact .inr (.inl rfl)
  · exact .inl ((digits_minute t).digit c hminute)
  · exact .inr (.inl rfl)
  · exact .inl ((digits_second t).digit c hsecond)

/-- No suffix has a character that a name must not have. -/
theorem archiveSuffix_plain (s : Schedule) (t : Int) :
    '/' ∉ (s.archiveSuffix t).toList ∧ '\x00' ∉ (s.archiveSuffix t).toList := by
  have hnone : ∀ {c : Char}, c.isDigit = false → (c ≠ '-' ∧ c ≠ '+' ∧ c ≠ '_') →
      c ∉ (s.archiveSuffix t).toList := by
    intro c hdigit hsign hmem
    rw [archiveSuffix_shown, String.toList_ofList] at hmem
    rcases List.mem_append.mp hmem with hdate | hclock
    · rcases mem_dateText hdate with h | h | h <;> simp_all
    · rcases mem_clockText hclock with h | h | h <;> simp_all
  exact ⟨hnone (by decide) (by decide), hnone (by decide) (by decide)⟩

/-! ## Different periods -/

/-- The day of an instant can be told from its date. -/
theorem dateText_inj (h : dateText a = dateText b) : a / daySeconds = b / daySeconds := by
  have hrange := Date.ofDayNumber_range (a / daySeconds)
  have hrange' := Date.ofDayNumber_range (b / daySeconds)
  unfold dateText at h
  obtain ⟨hyear, hrest⟩ := List.append_inj' h (by
    simp [(digits_month a).length, (digits_month b).length, (digits_day a).length,
      (digits_day b).length])
  obtain ⟨hmonth, hday⟩ := List.append_inj hrest (by
    simp [(digits_month a).length, (digits_month b).length])
  have hyear := yearText_inj hyear
  have hmonth := twoDigits_inj (by omega) (by omega) (List.cons.inj hmonth).2
  have hday := twoDigits_inj (by omega) (by omega) (List.cons.inj hday).2
  -- Of two days that are not the same, the later one has the later date.
  rcases Int.lt_trichotomy (a / daySeconds) (b / daySeconds) with hlt | heq | hlt
  · have hbefore := Date.ofDayNumber_before hlt
    unfold Date.Before at hbefore
    omega
  · exact heq
  · have hbefore := Date.ofDayNumber_before hlt
    unfold Date.Before at hbefore
    omega

/-- The hour of the day can be told from the text. -/
theorem hourText_inj (h : hourText a = hourText b) :
    a % daySeconds / 3600 = b % daySeconds / 3600 :=
  twoDigits_inj (by unfold daySeconds; omega) (by unfold daySeconds; omega) h

theorem minuteText_inj (h : minuteText a = minuteText b) :
    a % daySeconds / 60 % 60 = b % daySeconds / 60 % 60 :=
  twoDigits_inj (by omega) (by omega) h

theorem secondText_inj (h : secondText a = secondText b) :
    a % daySeconds % 60 = b % daySeconds % 60 :=
  twoDigits_inj (by omega) (by omega) h

/-- Two instants of a day with one time of day, as far as the unit goes, are one as far
    as the unit goes. -/
theorem clockText_inj (hday : a / daySeconds = b / daySeconds)
    (h : p.clockText a = p.clockText b) : a / p.grain = b / p.grain := by
  have hlen : (hourText a).length = (hourText b).length := by
    rw [(digits_hour a).length, (digits_hour b).length]
  have hlen' : (minuteText a).length = (minuteText b).length := by
    rw [(digits_minute a).length, (digits_minute b).length]
  -- The parts have fixed widths, so the texts are equal part by part.
  cases p with
  | days | midnight | weekday _ => exact hday
  | hours =>
    have hhour := hourText_inj (List.cons.inj h).2
    show a / 3600 = b / 3600
    unfold daySeconds at *
    omega
  | minutes =>
    obtain ⟨hhour, hrest⟩ := List.append_inj (List.cons.inj h).2 hlen
    have hhour := hourText_inj hhour
    have hminute := minuteText_inj (List.cons.inj hrest).2
    show a / 60 = b / 60
    unfold daySeconds at *
    omega
  | seconds =>
    obtain ⟨hhour, hrest⟩ := List.append_inj (List.cons.inj h).2 hlen
    obtain ⟨hminute, hrest⟩ := List.append_inj (List.cons.inj hrest).2 hlen'
    have hhour := hourText_inj hhour
    have hminute := minuteText_inj hminute
    have hsecond := secondText_inj (List.cons.inj hrest).2
    show a / 1 = b / 1
    unfold daySeconds at *
    omega

/-- **Different periods have different names**: as far as the unit goes, what the clock shows
    can be told from the suffix. -/
theorem shown_of_archiveSuffix (h : s.archiveSuffix a = s.archiveSuffix b) :
    s.shown a / s.unit.grain = s.shown b / s.unit.grain := by
  rw [archiveSuffix_shown, archiveSuffix_shown, String.ofList_inj] at h
  obtain ⟨hdate, hclock⟩ := List.append_inj' h (length_clockText _ _ _)
  exact clockText_inj (dateText_inj hdate) hclock

/-- In UTC the instant can be told. -/
theorem archiveSuffix_inj (hzone : s.zone = .utc) (ha : inCalendar a = true)
    (hb : inCalendar b = true) (h : s.archiveSuffix a = s.archiveSuffix b) :
    a / s.unit.grain = b / s.unit.grain := by
  have hshown := shown_of_archiveSuffix h
  rwa [Schedule.shown_utc hzone ha, Schedule.shown_utc hzone hb] at hshown

/-! ## Later periods -/

/-- The years of four digits. -/
def InYears (t : Int) : Prop := -62167219200 ≤ t ∧ t ≤ 253402300799

theorem InYears.inCalendar (h : InYears t) : inCalendar t = true := by
  unfold InYears at h
  rw [Schedule.inCalendar_iff]
  omega

/-- The year of such an instant has four digits. -/
theorem InYears.year (h : InYears t) : 0 ≤ (Date.ofDayNumber (t / daySeconds)).year ∧
    (Date.ofDayNumber (t / daySeconds)).year < 10000 := by
  unfold InYears at h
  have hfirst : (Date.ofDayNumber (-719528)).year = 0 := by decide
  have hlast : (Date.ofDayNumber 2932896).year = 9999 := by decide
  have hlow := Date.year_mono (n := -719528) (m := t / daySeconds) (by unfold daySeconds; omega)
  have hhigh := Date.year_mono (n := t / daySeconds) (m := 2932896) (by unfold daySeconds; omega)
  omega

theorem InYears.digits_year (h : InYears t) :
    Digits 4 (Date.ofDayNumber (t / daySeconds)).year.toNat
      (yearText .zero (Date.ofDayNumber (t / daySeconds)).year) :=
  digits_yearText h.year.1 h.year.2

theorem InYears.length_dateText (h : InYears t) : (dateText t).length = 10 := by
  simp [dateText, h.digits_year.length, (digits_month t).length, (digits_day t).length]

/-- A later day has a greater date. -/
theorem dateText_lt (ha : InYears a) (hb : InYears b) (h : a / daySeconds < b / daySeconds) :
    dateText a < dateText b := by
  have hrange := Date.ofDayNumber_range (a / daySeconds)
  have hrange' := Date.ofDayNumber_range (b / daySeconds)
  have hyears := ha.year
  have hyears' := hb.year
  unfold dateText
  -- The first part that differs decides; the parts in front of it are equal texts.
  rcases Date.ofDayNumber_before h with hyear | ⟨hyear, hmonth | ⟨hmonth, hday⟩⟩
  · refine append_lt_append (ha.digits_year.lt hb.digits_year (by omega)) ?_ _ _
    rw [ha.digits_year.length, hb.digits_year.length]
  · rw [hyear]
    refine List.append_left_lt (append_lt_append ?_ ?_ _ _)
    · exact List.cons_lt_cons_iff.mpr (.inr ⟨rfl, (digits_month a).lt (digits_month b) (by omega)⟩)
    · simp [(digits_month a).length, (digits_month b).length]
  · rw [hyear, hmonth]
    refine List.append_left_lt (List.append_left_lt ?_)
    exact List.cons_lt_cons_iff.mpr (.inr ⟨rfl, (digits_day a).lt (digits_day b) (by omega)⟩)

/-- On one day a later time, as far as the unit goes, has a greater text. -/
theorem clockText_lt (hday : a / daySeconds = b / daySeconds) (h : a / p.grain < b / p.grain) :
    p.clockText a < p.clockText b := by
  have hcons : ∀ {c : Char} {u v : List Char}, u < v → c :: u < c :: v := fun h =>
    List.cons_lt_cons_iff.mpr (.inr ⟨rfl, h⟩)
  have hlen : (hourText a).length = (hourText b).length := by
    rw [(digits_hour a).length, (digits_hour b).length]
  have hlen' : (minuteText a).length = (minuteText b).length := by
    rw [(digits_minute a).length, (digits_minute b).length]
  -- A later hour, minute or second has the greater digits.
  have hhour : a % daySeconds / 3600 < b % daySeconds / 3600 → hourText a < hourText b :=
    fun hlt => (digits_hour a).lt (digits_hour b) (by unfold daySeconds at *; omega)
  have hminute : a % daySeconds / 60 % 60 < b % daySeconds / 60 % 60 → minuteText a < minuteText b :=
    fun hlt => (digits_minute a).lt (digits_minute b) (by omega)
  have hsecond : a % daySeconds % 60 < b % daySeconds % 60 → secondText a < secondText b :=
    fun hlt => (digits_second a).lt (digits_second b) (by omega)
  have hsameHour : a % daySeconds / 3600 = b % daySeconds / 3600 → hourText a = hourText b :=
    fun heq => by rw [hourText, heq, hourText]
  have hsameMinute : a % daySeconds / 60 % 60 = b % daySeconds / 60 % 60 →
      minuteText a = minuteText b := fun heq => by rw [minuteText, heq, minuteText]
  cases p with
  | days | midnight | weekday _ =>
    simp only [Period.grain, hday] at h
    exact absurd h (Int.lt_irrefl _)
  | hours =>
    simp only [Period.grain] at h
    exact hcons (hhour (by unfold daySeconds at *; omega))
  | minutes =>
    simp only [Period.grain] at h
    by_cases hless : a % daySeconds / 3600 < b % daySeconds / 3600
    · exact hcons (append_lt_append (hhour hless) hlen _ _)
    · have hsame : a % daySeconds / 3600 = b % daySeconds / 3600 := by
        unfold daySeconds at *
        omega
      simp only [Period.clockText, hsameHour hsame]
      refine hcons (List.append_left_lt (hcons (hminute ?_)))
      unfold daySeconds at *
      omega
  | seconds =>
    simp only [Period.grain] at h
    by_cases hless : a % daySeconds / 3600 < b % daySeconds / 3600
    · exact hcons (append_lt_append (hhour hless) hlen _ _)
    · have hsame : a % daySeconds / 3600 = b % daySeconds / 3600 := by
        unfold daySeconds at *
        omega
      simp only [Period.clockText, hsameHour hsame]
      refine hcons (List.append_left_lt (hcons ?_))
      by_cases hless' : a % daySeconds / 60 % 60 < b % daySeconds / 60 % 60
      · exact append_lt_append (hminute hless') hlen' _ _
      · have hsame' : a % daySeconds / 60 % 60 = b % daySeconds / 60 % 60 := by
          unfold daySeconds at *
          omega
        simp only [hsameMinute hsame']
        refine List.append_left_lt (hcons (hsecond ?_))
        unfold daySeconds at *
        omega

/-- **Later periods have greater names.** -/
theorem archiveSuffix_lt (hzone : s.zone = .utc) (ha : InYears a) (hb : InYears b)
    (h : a / s.unit.grain < b / s.unit.grain) : s.archiveSuffix a < s.archiveSuffix b := by
  rw [archiveSuffix_eq hzone ha.inCalendar, archiveSuffix_eq hzone hb.inCalendar,
    String.lt_iff_toList_lt, String.toList_ofList, String.toList_ofList]
  have hle : a / daySeconds ≤ b / daySeconds := by
    cases hunit : s.unit <;> rw [hunit] at h <;> simp only [Period.grain] at h <;>
      unfold daySeconds at * <;> omega
  rcases Int.lt_or_eq_of_le hle with hlt | heq
  · exact append_lt_append (dateText_lt ha hb hlt)
      (ha.length_dateText.trans hb.length_dateText.symm) _ _
  · have hdate : dateText a = dateText b := by rw [dateText, heq, dateText]
    rw [hdate]
    exact List.append_left_lt (clockText_lt heq h)

/-! ## The shape of a suffix -/

/-- Digits in front of a text are gone past. -/
theorem afterDigits_of_digits {k n : Nat} {ds : List Char} (h : Digits k n ds) (rest : List Char) :
    afterDigits k (ds ++ rest) = some rest := by
  obtain ⟨rfl, hdigit, -⟩ := h
  induction ds with
  | nil => rfl
  | cons c ds ih =>
    rw [List.length_cons, List.cons_append, afterDigits, if_pos (hdigit c List.mem_cons_self)]
    exact ih fun d hd => hdigit d (List.mem_cons_of_mem _ hd)

/-- Digits alone are gone past to the end. -/
theorem afterDigits_self {k n : Nat} {ds : List Char} (h : Digits k n ds) :
    afterDigits k ds = some [] := by
  have hall := afterDigits_of_digits h []
  rwa [List.append_nil] at hall

/-- A text behind one that is gone past is left. -/
theorem afterDigits_append {n : Nat} {s rest : List Char} (h : afterDigits n s = some rest)
    (more : List Char) : afterDigits n (s ++ more) = some (rest ++ more) := by
  induction n generalizing s with
  | zero =>
    obtain rfl := Option.some.inj h
    rfl
  | succ n ih =>
    cases s with
    | nil => cases h
    | cons c s =>
      rw [afterDigits] at h
      split at h
      · next hc =>
        rw [List.cons_append, afterDigits, if_pos hc]
        exact ih h
      · cases h

theorem afterShape_append {shape : List ShapePart} {s rest : List Char}
    (h : afterShape shape s = some rest) (more : List Char) :
    afterShape shape (s ++ more) = some (rest ++ more) := by
  induction shape generalizing s with
  | nil =>
    obtain rfl := Option.some.inj h
    rfl
  | cons part shape ih =>
    cases part with
    | digits n =>
      obtain ⟨t, ht, h⟩ := Option.bind_eq_some_iff.mp h
      rw [afterShape, afterDigits_append ht more, Option.bind_some]
      exact ih h
    | literal a =>
      cases s with
      | nil => cases h
      | cons b s =>
        rw [afterShape] at h
        split at h
        · next hab =>
          rw [List.cons_append, afterShape, if_pos hab]
          exact ih h
        · cases h

/-- The number of characters of a shape. -/
def width : List ShapePart → Nat
  | [] => 0
  | .digits n :: shape => n + width shape
  | .literal _ :: shape => 1 + width shape

theorem length_of_afterDigits {n : Nat} {s rest : List Char} (h : afterDigits n s = some rest) :
    s.length = n + rest.length := by
  induction n generalizing s with
  | zero =>
    obtain rfl := Option.some.inj h
    omega
  | succ n ih =>
    cases s with
    | nil => cases h
    | cons c s =>
      rw [afterDigits] at h
      split at h
      · have hlen := ih h
        rw [List.length_cons]
        omega
      · cases h

/-- What has a shape has its width. -/
theorem length_of_afterShape {shape : List ShapePart} {s rest : List Char}
    (h : afterShape shape s = some rest) : s.length = width shape + rest.length := by
  induction shape generalizing s with
  | nil =>
    obtain rfl := Option.some.inj h
    rw [width, Nat.zero_add]
  | cons part shape ih =>
    cases part with
    | digits n =>
      obtain ⟨t, ht, h⟩ := Option.bind_eq_some_iff.mp h
      rw [length_of_afterDigits ht, ih h, width, Nat.add_assoc]
    | literal a =>
      cases s with
      | nil => cases h
      | cons b s =>
        rw [afterShape] at h
        split at h
        · rw [List.length_cons, ih h, width]
          omega
        · cases h

/-- The shape of a time of day, as far as a unit goes. -/
def Period.clockShape : Period → List ShapePart
  | seconds => [.literal '_', .digits 2, .literal '-', .digits 2, .literal '-', .digits 2]
  | minutes => [.literal '_', .digits 2, .literal '-', .digits 2]
  | hours => [.literal '_', .digits 2]
  | days | midnight | weekday _ => []

theorem Period.shape_eq (p : Period) : p.shape =
    [.digits 4, .literal '-', .digits 2, .literal '-', .digits 2] ++ p.clockShape := by
  have hdays : days.shape = [.digits 4, .literal '-', .digits 2, .literal '-', .digits 2] := by
    decide
  cases p with
  | days | midnight | weekday _ => exact hdays
  | hours | minutes | seconds => decide

/-- What follows the date of a year of four digits is left to the shape of a time of day. -/
theorem afterShape_date (p : Period) (hlow : 0 ≤ (Date.ofDayNumber (t / daySeconds)).year)
    (hhigh : (Date.ofDayNumber (t / daySeconds)).year < 10000) (more : List Char) :
    afterShape p.shape (dateText t ++ more) = afterShape p.clockShape more := by
  rw [Period.shape_eq]
  simp [afterShape, dateText, afterDigits_of_digits (digits_yearText hlow hhigh),
    afterDigits_of_digits (digits_month t), afterDigits_of_digits (digits_day t)]

/-- The text of an instant in a year of four digits has the shape of its unit. -/
theorem afterShape_text (p : Period) (hlow : 0 ≤ (Date.ofDayNumber (t / daySeconds)).year)
    (hhigh : (Date.ofDayNumber (t / daySeconds)).year < 10000) :
    afterShape p.shape (dateText t ++ p.clockText t) = some [] := by
  rw [afterShape_date p hlow hhigh]
  cases p <;>
    simp [Period.clockShape, afterShape, Period.clockText, afterDigits_of_digits (digits_hour t),
      afterDigits_self (digits_hour t), afterDigits_of_digits (digits_minute t),
      afterDigits_self (digits_minute t), afterDigits_self (digits_second t)]

/-- **A suffix has the shape of its unit**, so that the archive is known again. -/
theorem matchesShape_archiveSuffix (hzone : s.zone = .utc) (ht : InYears t) :
    matchesShape s.unit.shape (s.archiveSuffix t).toList = true := by
  rw [archiveSuffix_eq hzone ht.inCalendar, String.toList_ofList, matchesShape,
    afterShape_text s.unit ht.year.1 ht.year.2]
  rfl

/-! ## Suffixes with a time -/

/-- A suffix is a time in the shape of a unit, and nothing else. -/
def isTime (unit : Period) (k : String) : Bool := afterShape unit.shape k.toList == some []

/-- **Stamped**: a suffix is a time in the shape of a unit, or starts with the sign of a
    year that does not have four digits. -/
def Stamped (unit : Period) (k : String) : Prop :=
  isTime unit k = true ∨ ∃ c s, k.toList = c :: s ∧ c.isDigit = false

theorem isTime_iff {unit : Period} {k : String} :
    isTime unit k = true ↔ afterShape unit.shape k.toList = some [] := by
  rw [isTime, beq_iff_eq]

/-- **Every suffix of an archive is stamped**, whatever the clock shows. -/
theorem stamped_archiveSuffix (s : Schedule) (t : Int) : Stamped s.unit (s.archiveSuffix t) := by
  have htext := archiveSuffix_shown s t
  generalize s.shown t = a at htext
  -- A year of four digits makes the suffix a time; any other is written with a sign.
  by_cases hyear : 0 ≤ (Date.ofDayNumber (a / daySeconds)).year ∧
      (Date.ofDayNumber (a / daySeconds)).year < 10000
  · left
    rw [isTime_iff, htext, String.toList_ofList]
    exact afterShape_text s.unit hyear.1 hyear.2
  · right
    obtain ⟨gap, hsign⟩ := yearText_of_not hyear
    have hfirst : (if (Date.ofDayNumber (a / daySeconds)).year < 0 then '-' else '+').isDigit =
        false := by
      split <;> rfl
    rw [htext, String.toList_ofList, dateText, hsign]
    exact ⟨_, _, rfl, hfirst⟩

/-- What starts with a sign has no shape. -/
theorem afterShape_of_sign (unit : Period) {c : Char} (hc : c.isDigit = false) (s : List Char) :
    afterShape unit.shape (c :: s) = none := by
  rw [Period.shape_eq]
  show (afterDigits 4 (c :: s)).bind _ = none
  rw [afterDigits, if_neg (by simp [hc])]
  rfl

end Logbook.Rotation
