/-! # Ranges of code points

    A character class is a list of closed intervals of code points in ascending
    order; membership stops at the first interval that is not below the point.
-/

namespace Logbook.Text

/-- Membership in a list of closed intervals in ascending order. -/
def inRanges : List (Nat × Nat) → Nat → Bool
  | [], _ => false
  | (lo, hi) :: rest, n => if n ≤ hi then lo ≤ n else inRanges rest n

/-- A point that is found lies in one of the intervals. -/
theorem exists_of_inRanges {rs : List (Nat × Nat)} {n : Nat} (h : inRanges rs n = true) :
    ∃ r ∈ rs, r.1 ≤ n ∧ n ≤ r.2 := by
  induction rs with
  | nil => simp [inRanges] at h
  | cons r t ih =>
    obtain ⟨lo, hi⟩ := r
    by_cases hn : n ≤ hi
    · have hlo : lo ≤ n := by simpa [inRanges, hn] using h
      exact ⟨(lo, hi), by simp, hlo, hn⟩
    · have ht : inRanges t n = true := by simpa [inRanges, hn] using h
      obtain ⟨r, hr, hb⟩ := ih ht
      exact ⟨r, by simp [hr], hb⟩

end Logbook.Text
