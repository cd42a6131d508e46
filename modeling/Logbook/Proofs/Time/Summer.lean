import Logbook.Proofs.Time.Calendar
import Logbook.Time.Zone

/-! # Summer time

    The local clock is an hour ahead from a Sunday in March to a Sunday in November.  Both
    days are told by the year that the instant has in UTC, so every summer lies in one
    year, and the hour before a summer is in none.
-/

namespace Logbook.Time

namespace Date

/-! ## Days from the first of March -/

/-- The number of the first of March. -/
def marchFirst (year : Int) : Int := dayNumber ⟨year, 3, 1⟩

theorem dayNumber_march (year day : Int) : dayNumber ⟨year, 3, day⟩ = marchFirst year + (day - 1) := by
  unfold marchFirst dayNumber
  dsimp only
  rw [if_neg (by decide), if_neg (by decide)]
  omega

theorem dayNumber_november (year day : Int) :
    dayNumber ⟨year, 11, day⟩ = marchFirst year + 245 + (day - 1) := by
  unfold marchFirst dayNumber daysBeforeMonth
  dsimp only
  rw [if_neg (by decide), if_neg (by decide), if_neg (by decide), if_neg (by decide)]
  omega

/-- **From March to December** a day has the year that the first of March has. -/
theorem year_ofDayNumber {year k : Int} (hk : 0 ≤ k) (hlast : k ≤ 305) :
    (ofDayNumber (marchFirst year + k)).year = year := by
  obtain ⟨r, hr⟩ : ∃ r : Fin 400, (r.val : Int) = year - year / 400 * 400 :=
    ⟨⟨(year - year / 400 * 400).toNat, by omega⟩, by simp only; omega⟩
  have hnumber : marchFirst year + k + 719468 =
      year / 400 * 146097 + (daysBeforeYear r.val + k) := by
    unfold marchFirst dayNumber daysBeforeMonth
    dsimp only
    rw [if_neg (by decide), if_neg (by decide), hr]
    omega
  have hlength : daysBeforeYear r.val + 305 < daysBeforeYear (r.val + 1) := by
    unfold daysBeforeYear
    omega
  have hrange : 0 ≤ daysBeforeYear r.val ∧ daysBeforeYear r.val + 305 < 146097 := by
    have hlt := r.isLt
    unfold daysBeforeYear
    omega
  have hera : (marchFirst year + k + 719468) / 146097 = year / 400 := by omega
  have hday : dayOfEra (marchFirst year + k) = daysBeforeYear r.val + k := by
    unfold dayOfEra
    omega
  -- The day lies between the first and the last day of its year of the era.
  have hyear : yearOf (dayOfEra (marchFirst year + k)) = r.val := by
    obtain ⟨hfirst, hend⟩ := yearOf_ends r
    have hlow := yearOf_mono (a := daysBeforeYear r.val) (b := daysBeforeYear r.val + k) (by omega)
    have hhigh := yearOf_mono (a := daysBeforeYear r.val + k)
      (b := daysBeforeYear (r.val + 1) - 1) (by omega)
    rw [hday]
    omega
  have hmonth : monthOf (dayOfMarchYear (marchFirst year + k)) < 10 := by
    have hdoy : dayOfMarchYear (marchFirst year + k) = k := by
      unfold dayOfMarchYear
      rw [hyear, hday]
      omega
    rw [hdoy]
    unfold monthOf
    omega
  rw [ofDayNumber_eq]
  dsimp only
  rw [if_pos hmonth, marchYear, hyear, hera]
  omega

end Date

open Date

/-! ## Changes of the clock -/

/-- The Sunday on which the clock goes forward. -/
def springSunday (year : Int) : Int := weekdayOnOrAfter (dayNumber ⟨year, 3, 8⟩) 6

theorem summerStart_eq (year : Int) :
    summerStart year = springSunday year * daySeconds + 25200 := rfl

theorem weekday_springSunday (year : Int) : weekday (springSunday year) = 6 := by
  unfold springSunday weekdayOnOrAfter weekday
  omega

theorem springSunday_range (year : Int) :
    marchFirst year + 7 ≤ springSunday year ∧ springSunday year ≤ marchFirst year + 13 := by
  unfold springSunday weekdayOnOrAfter weekday
  rw [dayNumber_march]
  omega

theorem summerEnd_range (year : Int) :
    (marchFirst year + 245) * daySeconds + 21600 ≤ summerEnd year ∧
      summerEnd year ≤ (marchFirst year + 251) * daySeconds + 21600 := by
  unfold summerEnd weekdayOnOrAfter weekday daySeconds
  rw [dayNumber_november]
  omega

/-- An instant from the day before a summer to its end has the year of the summer. -/
theorem year_near_summer {year t : Int} (hlow : summerStart year - daySeconds ≤ t)
    (hhigh : t < summerEnd year) : (ofDayNumber (t / daySeconds)).year = year := by
  have hspring := springSunday_range year
  have hend := summerEnd_range year
  rw [summerStart_eq] at hlow
  unfold daySeconds at *
  have hday : t / 86400 = marchFirst year + (t / 86400 - marchFirst year) := by omega
  rw [hday]
  exact year_ofDayNumber (by omega) (by omega)

/-- **Summer** is the time between the changes of the clock of some year. -/
theorem isSummer_iff {t : Int} : isSummer t = true ↔ ∃ year, summerStart year ≤ t ∧ t < summerEnd year := by
  constructor
  · intro h
    simp only [isSummer, Bool.and_eq_true, decide_eq_true_eq] at h
    exact ⟨_, h⟩
  · rintro ⟨year, hlow, hhigh⟩
    have hbefore : summerStart year - daySeconds ≤ t := by
      unfold daySeconds
      omega
    simp only [isSummer, year_near_summer hbefore hhigh, hlow, hhigh, decide_true, Bool.and_self]

/-- The day before a summer is in none. -/
theorem isSummer_before {year t : Int} (hlow : summerStart year - daySeconds ≤ t)
    (hhigh : t < summerStart year) : isSummer t = false := by
  have hspring := springSunday_range year
  have hend := summerEnd_range year
  have hbehind : t < summerEnd year := by
    rw [summerStart_eq] at hhigh
    unfold daySeconds at *
    omega
  rw [Bool.eq_false_iff]
  intro hsummer
  simp only [isSummer, year_near_summer hlow hbehind, Bool.and_eq_true, decide_eq_true_eq] at hsummer
  omega

/-! ## From one change to the next -/

/-- The Sunday on which the clock goes back. -/
def autumnSunday (year : Int) : Int := weekdayOnOrAfter (dayNumber ⟨year, 11, 1⟩) 6

theorem summerEnd_eq (year : Int) :
    summerEnd year = autumnSunday year * daySeconds + 21600 := rfl

theorem weekday_autumnSunday (year : Int) : weekday (autumnSunday year) = 6 := by
  unfold autumnSunday weekdayOnOrAfter weekday
  omega

/-- Between a winter and a summer the clock goes forward. -/
theorem summerStart_between {u v : Int} (hu : isSummer u = false) (hv : isSummer v = true)
    (hle : u ≤ v) : ∃ year, u < summerStart year ∧ summerStart year ≤ v := by
  obtain ⟨year, hstart, hend⟩ := isSummer_iff.mp hv
  refine ⟨year, Int.not_le.mp fun hstarted => ?_, hstart⟩
  rw [isSummer_iff.mpr ⟨year, hstarted, by omega⟩] at hu
  cases hu

/-- Between a summer and a winter the clock goes back. -/
theorem summerEnd_between {u v : Int} (hu : isSummer u = true) (hv : isSummer v = false)
    (hle : u ≤ v) : ∃ year, u < summerEnd year ∧ summerEnd year ≤ v := by
  obtain ⟨year, hstart, hend⟩ := isSummer_iff.mp hu
  refine ⟨year, hend, Int.not_lt.mp fun hlasts => ?_⟩
  rw [isSummer_iff.mpr ⟨year, by omega, hlasts⟩] at hv
  cases hv

/-- A year has at least 365 days. -/
theorem marchFirst_lt {y y' : Int} (h : y < y') : marchFirst y + 365 ≤ marchFirst y' := by
  have hnumber : ∀ y, marchFirst y = 365 * y + y / 4 - y / 100 + y / 400 - 719468 := by
    intro y
    unfold marchFirst dayNumber daysBeforeYear daysBeforeMonth
    dsimp only
    rw [if_neg (by decide), if_neg (by decide)]
    omega
  rw [hnumber, hnumber]
  omega

/-- **The clock is not changed twice** within a hundred days. -/
theorem isSummer_between {u v w : Int} (huv : u ≤ v) (hvw : v ≤ w)
    (hnear : w < u + 100 * daySeconds) (h : isSummer u = isSummer w) : isSummer v = isSummer u := by
  unfold daySeconds at hnear
  cases hu : isSummer u with
  | false =>
    rw [hu] at h
    -- A summer between them is too long.
    rw [Bool.eq_false_iff]
    intro hv
    obtain ⟨year, hstart, hend⟩ := isSummer_iff.mp hv
    have hbefore : u < summerStart year := by
      refine Int.not_le.mp fun hstarted => ?_
      rw [isSummer_iff.mpr ⟨year, hstarted, by omega⟩] at hu
      cases hu
    have hbehind : summerEnd year ≤ w := by
      refine Int.not_lt.mp fun hlasts => ?_
      rw [isSummer_iff.mpr ⟨year, by omega, hlasts⟩] at h
      cases h
    have hspring := springSunday_range year
    have hautumn := summerEnd_range year
    rw [summerStart_eq] at hbefore
    unfold daySeconds at *
    omega
  | true =>
    rw [hu] at h
    obtain ⟨year, hstart, hend⟩ := isSummer_iff.mp hu
    obtain ⟨year', hstart', hend'⟩ := isSummer_iff.mp h.symm
    -- The summers of different years are too far apart.
    have hspring := springSunday_range year
    have hspring' := springSunday_range year'
    have hautumn := summerEnd_range year
    have hautumn' := summerEnd_range year'
    rw [summerStart_eq] at hstart hstart'
    unfold daySeconds at *
    rcases Int.lt_trichotomy year year' with hlt | rfl | hgt
    · have hdays := marchFirst_lt hlt
      omega
    · refine isSummer_iff.mpr ⟨year, ?_, by omega⟩
      rw [summerStart_eq]
      unfold daySeconds
      omega
    · have hdays := marchFirst_lt hgt
      omega

/-! ## Wall clocks -/

/-- The seconds that a wall clock has counted since the midnight at which it showed the
    start of 1970. -/
def Zone.wall (z : Zone) (t : Int) : Int :=
  (z.read ⟨t, 0⟩).dayNumber * daySeconds + (z.read ⟨t, 0⟩).secondOfDay

theorem Zone.wall_eq (z : Zone) (t : Int) : z.wall t = t + z.offset t := by
  show (t + z.offset t) / daySeconds * daySeconds + (t + z.offset t) % daySeconds = t + z.offset t
  unfold daySeconds
  omega

theorem Zone.offset_of_summer {t : Int} (h : isSummer t = true) : Zone.eastern.offset t = -14400 := by
  simp [Zone.offset, h]

theorem Zone.offset_of_winter {t : Int} (h : isSummer t = false) : Zone.eastern.offset t = -18000 := by
  simp [Zone.offset, h]

theorem Zone.offset_cases (t : Int) : Zone.eastern.offset t = -14400 ∨ Zone.eastern.offset t = -18000 := by
  cases h : isSummer t with
  | true => exact .inl (Zone.offset_of_summer h)
  | false => exact .inr (Zone.offset_of_winter h)

theorem Zone.offset_eq_iff {u v : Int} :
    Zone.eastern.offset u = Zone.eastern.offset v ↔ isSummer u = isSummer v := by
  cases hu : isSummer u <;> cases hv : isSummer v <;> simp [Zone.offset, hu, hv]

theorem Zone.offset_lt_iff {u v : Int} :
    Zone.eastern.offset u < Zone.eastern.offset v ↔ isSummer u = false ∧ isSummer v = true := by
  cases hu : isSummer u <;> cases hv : isSummer v <;> simp [Zone.offset, hu, hv]

/-- **The clock goes forward** at two in the morning of a Sunday. -/
theorem Zone.forward_between {u v : Int} (hle : u ≤ v)
    (hlt : Zone.eastern.offset u < Zone.eastern.offset v) :
    ∃ n, weekday n = 6 ∧ u < n * daySeconds + 25200 ∧ n * daySeconds + 25200 ≤ v := by
  obtain ⟨hu, hv⟩ := offset_lt_iff.mp hlt
  obtain ⟨year, hbefore, hreached⟩ := summerStart_between hu hv hle
  exact ⟨springSunday year, weekday_springSunday year, hbefore, hreached⟩

/-- **The clock goes back** at two in the morning of a Sunday. -/
theorem Zone.back_between {u v : Int} (hle : u ≤ v)
    (hlt : Zone.eastern.offset v < Zone.eastern.offset u) :
    ∃ n, weekday n = 6 ∧ u < n * daySeconds + 21600 ∧ n * daySeconds + 21600 ≤ v := by
  obtain ⟨hv, hu⟩ := offset_lt_iff.mp hlt
  obtain ⟨year, hbefore, hreached⟩ := summerEnd_between hu hv hle
  rw [summerEnd_eq] at hbefore hreached
  exact ⟨autumnSunday year, weekday_autumnSunday year, hbefore, hreached⟩

/-- The offset is the same twice within a hundred days, and so in between. -/
theorem Zone.offset_between {u v w : Int} (huv : u ≤ v) (hvw : v ≤ w)
    (hnear : w < u + 100 * daySeconds)
    (h : Zone.eastern.offset u = Zone.eastern.offset w) :
    Zone.eastern.offset v = Zone.eastern.offset u :=
  offset_eq_iff.mpr (isSummer_between huv hvw hnear (offset_eq_iff.mp h))

/-- **One correction is enough**: if the clock ever shows a time, it does so at the instant
    that has the offset of any instant that was guessed from an offset. -/
theorem Zone.wall_corrected {time guess : Int} (hshown : ∃ t, Zone.eastern.wall t = time)
    (hguess : guess = time + 14400 ∨ guess = time + 18000) :
    Zone.eastern.wall (time - Zone.eastern.offset guess) = time := by
  have hoffset := Zone.offset_cases guess
  by_cases hright : Zone.eastern.wall guess = time
  · -- The guess is corrected to itself.
    have hsame : time - Zone.eastern.offset guess = guess := by
      rw [Zone.wall_eq] at hright
      omega
    rw [hsame, hright]
  · -- Only one other instant can show the time, and the correction leads there.
    obtain ⟨t, ht⟩ := hshown
    have hother : time - Zone.eastern.offset guess = t := by
      have hne : t ≠ guess := fun heq => hright (heq ▸ ht)
      have hoffset' := Zone.offset_cases t
      rw [Zone.wall_eq] at ht hright
      omega
    rw [hother, ht]

end Logbook.Time
