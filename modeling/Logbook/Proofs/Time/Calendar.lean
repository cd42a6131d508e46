import Logbook.Time.Date

/-! # The order of dates

    Later days have later dates.  Years are counted from March here, as in the
    computation of a date: the year that holds a day is found by its first and its last
    day, and within a year months and days follow each other by division.
-/

namespace Logbook.Time.Date

/-! ## Years of an era -/

/-- The year of an era that holds a day of the era. -/
def yearOf (doe : Int) : Int := (doe - doe / 1460 + doe / 36524 - doe / 146096) / 365

theorem yearOf_mono {a b : Int} (h : a ≤ b) : yearOf a ≤ yearOf b := by
  -- No correction takes back more than the days between.
  have hfour : a - a / 1460 ≤ b - b / 1460 := by omega
  have hcentury : a / 36524 ≤ b / 36524 := by omega
  have hend : ∀ c : Int, c / 146096 = c / 36524 / 4 := fun c => by omega
  have hsum : a - a / 1460 + a / 36524 - a / 146096 ≤ b - b / 1460 + b / 36524 - b / 146096 := by
    rw [hend a, hend b]
    omega
  exact Int.ediv_le_ediv (by decide) hsum

theorem yearOf_range {a : Int} (ha : 0 ≤ a) (hb : a < 146097) : 0 ≤ yearOf a ∧ yearOf a < 400 := by
  unfold yearOf
  omega

/-- The first day and the last day of every year of an era are in that year. -/
theorem yearOf_ends : ∀ y : Fin 400, yearOf (daysBeforeYear y.val) = y.val ∧
    yearOf (daysBeforeYear (y.val + 1) - 1) = y.val := by
  decide +kernel

/-- A day is not before the first day of its year, nor behind the last one, which is the
    leap day at the end of the era. -/
theorem dayOf_range {a : Int} (ha : 0 ≤ a) (hb : a < 146097) :
    0 ≤ a - daysBeforeYear (yearOf a) ∧ a - daysBeforeYear (yearOf a) ≤ 365 := by
  obtain ⟨hlow, hhigh⟩ := yearOf_range ha hb
  obtain ⟨y, hy⟩ : ∃ y : Fin 400, yearOf a = y.val :=
    ⟨⟨(yearOf a).toNat, by omega⟩, by simp only; omega⟩
  obtain ⟨hfirst, hlast⟩ := yearOf_ends y
  have hlength : daysBeforeYear (y.val + 1) - daysBeforeYear y.val ≤ 366 := by
    unfold daysBeforeYear
    omega
  have hbound : daysBeforeYear y.val < 146097 := by
    unfold daysBeforeYear
    omega
  rw [hy]
  constructor
  · -- A day before the first one is in an earlier year.
    refine Int.not_lt.mp fun hbefore => ?_
    have hpos : 0 < y.val := by
      refine Nat.pos_of_ne_zero fun hzero => ?_
      simp only [hzero, daysBeforeYear] at hbefore
      omega
    have heq : ((y.val - 1 : Nat) : Int) + 1 = y.val := by omega
    have hprev : yearOf (daysBeforeYear y.val - 1) = ((y.val - 1 : Nat) : Int) := by
      rw [← heq]
      exact (yearOf_ends ⟨y.val - 1, by omega⟩).2
    have hmono := yearOf_mono (a := a) (b := daysBeforeYear y.val - 1) (by omega)
    omega
  · -- A day behind the last one is in a later year, or there is none.
    refine Int.not_lt.mp fun hbehind => ?_
    have hnotLast : y.val ≠ 399 := by
      intro hend
      simp only [hend, daysBeforeYear] at hbehind
      omega
    have hnext : yearOf (daysBeforeYear (y.val + 1)) = (y.val : Int) + 1 := by
      exact_mod_cast (yearOf_ends ⟨y.val + 1, by omega⟩).1
    have hmono := yearOf_mono (a := daysBeforeYear (y.val + 1)) (b := a) (by omega)
    omega

/-! ## Years, months and days from March -/

/-- The day of its era that a day number is. -/
def dayOfEra (n : Int) : Int := (n + 719468) % 146097

/-- The year from March that holds a day. -/
def marchYear (n : Int) : Int := yearOf (dayOfEra n) + (n + 719468) / 146097 * 400

/-- The day of its year from March that a day number is. -/
def dayOfMarchYear (n : Int) : Int := dayOfEra n - daysBeforeYear (yearOf (dayOfEra n))

/-- The month from March of a day of a year. -/
def monthOf (doy : Int) : Int := (5 * doy + 2) / 153

theorem dayOfEra_range (n : Int) : 0 ≤ dayOfEra n ∧ dayOfEra n < 146097 := by
  unfold dayOfEra
  omega

theorem dayOfMarchYear_range (n : Int) : 0 ≤ dayOfMarchYear n ∧ dayOfMarchYear n ≤ 365 :=
  dayOf_range (dayOfEra_range n).1 (dayOfEra_range n).2

/-- Months from March are counted from 0 to 11. -/
theorem monthOf_range {doy : Int} (h : 0 ≤ doy ∧ doy ≤ 365) : 0 ≤ monthOf doy ∧ monthOf doy ≤ 11 := by
  unfold monthOf
  omega

/-- A later day is in a later year, or later in the same year. -/
theorem marchYear_lt {n m : Int} (h : n < m) :
    marchYear n < marchYear m ∨
      marchYear n = marchYear m ∧ dayOfMarchYear n < dayOfMarchYear m := by
  obtain ⟨hn, hn'⟩ := dayOfEra_range n
  obtain ⟨hm, hm'⟩ := dayOfEra_range m
  obtain ⟨hlow, hhigh⟩ := yearOf_range hn hn'
  obtain ⟨hlow', hhigh'⟩ := yearOf_range hm hm'
  have hn_eq : n + 719468 = dayOfEra n + 146097 * ((n + 719468) / 146097) := by
    unfold dayOfEra
    omega
  have hm_eq : m + 719468 = dayOfEra m + 146097 * ((m + 719468) / 146097) := by
    unfold dayOfEra
    omega
  unfold marchYear dayOfMarchYear
  generalize (n + 719468) / 146097 = era at *
  generalize (m + 719468) / 146097 = era' at *
  by_cases hera : era = era'
  · subst hera
    have hdays : dayOfEra n < dayOfEra m := by omega
    have hyears := yearOf_mono (Int.le_of_lt hdays)
    by_cases hyear : yearOf (dayOfEra n) = yearOf (dayOfEra m)
    · right
      rw [hyear]
      omega
    · left
      omega
  · left
    omega

/-- Within a year a later day is in a later month, or later in the same month. -/
theorem monthOf_lt {a b : Int} (h : a < b) :
    monthOf a < monthOf b ∨
      monthOf a = monthOf b ∧ a - daysBeforeMonth (monthOf a) < b - daysBeforeMonth (monthOf b) := by
  by_cases hmonth : monthOf a = monthOf b
  · right
    rw [hmonth]
    omega
  · left
    unfold monthOf at *
    omega

/-! ## Dates -/

/-- The date of a day, by its year from March and its day of that year. -/
theorem ofDayNumber_eq (n : Int) :
    ofDayNumber n =
      { year := if monthOf (dayOfMarchYear n) < 10 then marchYear n else marchYear n + 1
        month := if monthOf (dayOfMarchYear n) < 10 then monthOf (dayOfMarchYear n) + 3
          else monthOf (dayOfMarchYear n) - 9
        day := dayOfMarchYear n - daysBeforeMonth (monthOf (dayOfMarchYear n)) + 1 } := by
  have hdoe : n + 719468 - (n + 719468) / 146097 * 146097 = dayOfEra n := by
    unfold dayOfEra
    omega
  simp only [ofDayNumber, hdoe]
  rfl

/-- Months have the numbers 1 to 12 and days 1 to 31. -/
theorem ofDayNumber_range (n : Int) :
    (1 ≤ (ofDayNumber n).month ∧ (ofDayNumber n).month ≤ 12) ∧
      1 ≤ (ofDayNumber n).day ∧ (ofDayNumber n).day ≤ 31 := by
  have hdoy := dayOfMarchYear_range n
  have hmonth := monthOf_range hdoy
  rw [ofDayNumber_eq]
  generalize hd : dayOfMarchYear n = doy at *
  refine ⟨?_, ?_⟩
  · dsimp only
    split <;> omega
  · show 1 ≤ doy - daysBeforeMonth (monthOf doy) + 1 ∧ doy - daysBeforeMonth (monthOf doy) + 1 ≤ 31
    unfold daysBeforeMonth monthOf
    omega

/-- **Before**: a date comes before another, year by year, month by month and day by
    day. -/
def Before (a b : Date) : Prop :=
  a.year < b.year ∨ a.year = b.year ∧ (a.month < b.month ∨ a.month = b.month ∧ a.day < b.day)

/-- **Later days have later dates.** -/
theorem ofDayNumber_before {n m : Int} (h : n < m) : (ofDayNumber n).Before (ofDayNumber m) := by
  have hmonth := monthOf_range (dayOfMarchYear_range n)
  have hmonth' := monthOf_range (dayOfMarchYear_range m)
  rw [ofDayNumber_eq, ofDayNumber_eq]
  unfold Before
  dsimp only
  rcases marchYear_lt h with hyear | ⟨hyear, hday⟩
  · -- January and February belong to the year before, counted from March.
    split <;> split <;> omega
  · rcases monthOf_lt hday with hlt | ⟨heq, hlt⟩
    · rw [hyear]
      split <;> split <;> omega
    · rw [hyear, heq]
      split <;> omega

/-- Years do not go back. -/
theorem year_mono {n m : Int} (h : n ≤ m) : (ofDayNumber n).year ≤ (ofDayNumber m).year := by
  rcases Int.lt_or_eq_of_le h with hlt | rfl
  · rcases ofDayNumber_before hlt with hyear | ⟨hyear, -⟩ <;> omega
  · exact Int.le_refl _

end Logbook.Time.Date
