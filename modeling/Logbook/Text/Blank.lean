/-! # White space

    The characters with the Unicode property *White_Space*, and the trimming of
    a text on both sides.  Everything works on lists of characters, so that the
    readers of levels, times and templates share one notion of a text.
-/

namespace Logbook.Text

/-- White space in the sense of the Unicode property of that name. -/
def isBlank (c : Char) : Bool :=
  let n := c.toNat
  (9 ≤ n && n ≤ 13) || n == 0x20 || n == 0x85 || n == 0xA0 || n == 0x1680 ||
    (0x2000 ≤ n && n ≤ 0x200A) || n == 0x2028 || n == 0x2029 || n == 0x202F ||
    n == 0x205F || n == 0x3000

/-- What is left of a text without the characters of a class at its end. -/
def trimEnd (p : Char → Bool) (s : List Char) : List Char :=
  (s.reverse.dropWhile p).reverse

/-- A text without the white space at both ends. -/
def trim (s : List Char) : List Char :=
  trimEnd isBlank (s.dropWhile isBlank)

/-- A trimmed text starts with no white space. -/
theorem head_dropWhile_isBlank (s : List Char) (c : Char) (r : List Char)
    (h : s.dropWhile isBlank = c :: r) : isBlank c = false := by
  induction s with
  | nil => simp at h
  | cons a t ih =>
    by_cases ha : isBlank a = true
    · rw [List.dropWhile_cons_of_pos ha] at h
      exact ih h
    · have ha' : isBlank a = false := by simpa using ha
      rw [List.dropWhile_cons_of_neg ha] at h
      have hc : a = c := (List.cons.inj h).1
      exact hc ▸ ha'

/-- The number of bytes that a text takes in UTF-8. -/
def byteLength (s : List Char) : Nat :=
  s.foldl (fun n c => n + c.utf8Size) 0

end Logbook.Text
