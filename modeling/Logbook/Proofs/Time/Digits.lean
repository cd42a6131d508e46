import Logbook.Time.Pattern
import Mathlib.Algebra.Group.Nat.Defs
import Mathlib.Data.List.Lex
import Mathlib.Data.Char

/-! # Numbers in digits

    A number that is filled up with zeros to a fixed width keeps its order as a text,
    and can be told from the text.  A year has four digits, or a sign in front of five or
    more.
-/

namespace Logbook.Time.Pattern

/-! ## Texts of digits -/

/-- **Digits**: a text of `k` digits that stands for the number `n`. -/
structure Digits (k n : Nat) (ds : List Char) : Prop where
  length : ds.length = k
  digit : ∀ c ∈ ds, c.isDigit = true
  value : Nat.ofDigitChars 10 ds 0 = n

/-- What a digit counts is at most nine. -/
theorem digit_le {c : Char} (h : c.isDigit = true) :
    '0'.toNat ≤ c.toNat ∧ c.toNat ≤ '0'.toNat + 9 := by
  simp only [Char.isDigit, ge_iff_le, Bool.and_eq_true, decide_eq_true_eq] at h
  exact ⟨h.1, h.2⟩

/-- Texts of one width that are decided by their first parts. -/
theorem append_lt_append {a a' : List Char} (h : a < a') (hlen : a.length = a'.length)
    (b b' : List Char) : a ++ b < a' ++ b' := by
  induction a generalizing a' with
  | nil =>
    obtain rfl := List.length_eq_zero_iff.mp hlen.symm
    cases h
  | cons c a ih =>
    cases a' with
    | nil => cases hlen
    | cons c' a' =>
      rw [List.cons_append, List.cons_append, List.cons_lt_cons_iff]
      rcases List.cons_lt_cons_iff.mp h with hlt | ⟨rfl, hlt⟩
      · exact .inl hlt
      · exact .inr ⟨rfl, ih hlt (by simpa using hlen)⟩

/-- The number of a text of digits, by its first digit. -/
theorem ofDigitChars_cons_eq (c : Char) (ds : List Char) :
    Nat.ofDigitChars 10 (c :: ds) 0 =
      10 ^ ds.length * (c.toNat - '0'.toNat) + Nat.ofDigitChars 10 ds 0 := by
  rw [Nat.ofDigitChars_cons, Nat.ofDigitChars_eq_ofDigitChars_zero, Nat.mul_zero, Nat.zero_add]

/-- A text of so many digits stands for a number below that power of ten. -/
theorem Digits.lt_pow {k n : Nat} {ds : List Char} (h : Digits k n ds) : n < 10 ^ k := by
  obtain ⟨rfl, hdigit, rfl⟩ := h
  induction ds with
  | nil => simp [Nat.ofDigitChars]
  | cons c ds ih =>
    have hc := digit_le (hdigit c List.mem_cons_self)
    have hrest := ih fun d hd => hdigit d (List.mem_cons_of_mem _ hd)
    have hfirst : 10 ^ ds.length * (c.toNat - '0'.toNat) ≤ 10 ^ ds.length * 9 :=
      Nat.mul_le_mul_left _ (by omega)
    rw [ofDigitChars_cons_eq, List.length_cons, Nat.pow_succ]
    omega

/-- **The order of numbers** is that of their digits. -/
theorem Digits.lt {k n m : Nat} {ds es : List Char} (h : Digits k n ds) (h' : Digits k m es)
    (hlt : n < m) : ds < es := by
  induction ds generalizing es k n m with
  | nil =>
    -- Without digits both numbers are zero.
    have hzero : k = 0 := h.length.symm
    have hm := h'.lt_pow
    rw [hzero] at hm
    omega
  | cons c ds ih =>
    obtain ⟨hlen, hdigit, hvalue⟩ := h
    obtain ⟨hlen', hdigit', hvalue'⟩ := h'
    cases es with
    | nil =>
      rw [← hlen] at hlen'
      cases hlen'
    | cons c' es =>
      have hwidth : ds.length = es.length := by
        rw [← hlen] at hlen'
        simpa using hlen'.symm
      have hrest : Digits ds.length (Nat.ofDigitChars 10 ds 0) ds :=
        ⟨rfl, fun d hd => hdigit d (List.mem_cons_of_mem _ hd), rfl⟩
      have hrest' : Digits ds.length (Nat.ofDigitChars 10 es 0) es :=
        ⟨hwidth.symm, fun d hd => hdigit' d (List.mem_cons_of_mem _ hd), rfl⟩
      have hbound := hrest.lt_pow
      have hbound' := hrest'.lt_pow
      have hc := digit_le (hdigit c List.mem_cons_self)
      have hc' := digit_le (hdigit' c' List.mem_cons_self)
      rw [ofDigitChars_cons_eq] at hvalue hvalue'
      rw [← hwidth] at hvalue'
      rw [List.cons_lt_cons_iff]
      rcases Nat.lt_trichotomy c.toNat c'.toNat with hless | hsame | hmore
      · exact .inl hless
      · obtain rfl : c = c' := Char.toNat_inj.mp hsame
        refine .inr ⟨rfl, ih hrest hrest' ?_⟩
        omega
      · -- A greater first digit makes a greater number.
        have hstep : 10 ^ ds.length * (c'.toNat - '0'.toNat) + 10 ^ ds.length ≤
            10 ^ ds.length * (c.toNat - '0'.toNat) := by
          rw [← Nat.mul_succ]
          exact Nat.mul_le_mul_left _ (by omega)
        omega

/-! ## Two digits -/

/-- A number below one hundred is written in two digits. -/
theorem digits_twoDigits {n : Int} (h : 0 ≤ n) (h' : n < 100) :
    Digits 2 n.toNat (twoDigits .zero n) := by
  have hall : ∀ k ∈ List.range 100, (twoDigits .zero (k : Nat)).length = 2 ∧
      (twoDigits .zero (k : Nat)).all Char.isDigit = true ∧
      Nat.ofDigitChars 10 (twoDigits .zero (k : Nat)) 0 = k := by
    decide +kernel
  obtain ⟨hlen, hdigit, hvalue⟩ := hall n.toNat (List.mem_range.mpr (by omega))
  have hn : ((n.toNat : Nat) : Int) = n := by omega
  simp only [hn] at hlen hdigit hvalue
  exact ⟨hlen, List.all_eq_true.mp hdigit, hvalue⟩

theorem twoDigits_inj {n m : Int} (hn : 0 ≤ n ∧ n < 100) (hm : 0 ≤ m ∧ m < 100)
    (h : twoDigits .zero n = twoDigits .zero m) : n = m := by
  have hvalue := (digits_twoDigits hn.1 hn.2).value
  rw [h, (digits_twoDigits hm.1 hm.2).value] at hvalue
  omega

/-! ## Years -/

/-- Zeros in front of a number do not count. -/
theorem ofDigitChars_zeros (gap n : Nat) :
    Nat.ofDigitChars 10 (List.replicate gap '0' ++ Nat.toDigits 10 n) 0 = n := by
  have hzeros : Nat.ofDigitChars 10 (List.replicate gap '0') 0 = 0 := by
    induction gap with
    | zero => rfl
    | succ gap ih =>
      rw [List.replicate_succ, ofDigitChars_cons_eq, ih]
      rfl
  rw [Nat.ofDigitChars_append, hzeros]
  exact Nat.ofDigitChars_toDigits (by decide) (by decide)

/-- Zeros and the digits of a number are digits. -/
theorem isDigit_of_mem_zeros {gap n : Nat} {c : Char}
    (h : c ∈ List.replicate gap '0' ++ Nat.toDigits 10 n) : c.isDigit = true := by
  rcases List.mem_append.mp h with hzero | hdigit
  · rw [List.eq_of_mem_replicate hzero]
    rfl
  · exact Nat.isDigit_of_mem_toDigits (by decide) (by decide) hdigit

/-- A year of at most four digits is written in four. -/
theorem digits_yearText {y : Int} (h : 0 ≤ y) (h' : y < 10000) :
    Digits 4 y.toNat (yearText .zero y) := by
  have hlen : (Nat.toDigits 10 y.natAbs).length ≤ 4 :=
    (Nat.length_toDigits_le_iff (by decide) (by decide)).mpr (by omega)
  rw [yearText, if_pos ⟨h, h'⟩]
  simp only [filled, List.length_nil, Nat.zero_add, List.nil_append]
  refine ⟨?_, fun c hc => isDigit_of_mem_zeros hc, ?_⟩
  · rw [List.length_append, List.length_replicate]
    omega
  · rw [ofDigitChars_zeros]
    omega

/-- What any other year is written as: a sign and digits. -/
theorem yearText_of_not {y : Int} (h : ¬ (0 ≤ y ∧ y < 10000)) :
    ∃ gap, yearText .zero y = (if y < 0 then '-' else '+') ::
      (List.replicate gap '0' ++ Nat.toDigits 10 y.natAbs) := by
  refine ⟨5 - (1 + (Nat.toDigits 10 y.natAbs).length), ?_⟩
  rw [yearText, if_neg h]
  simp only [filled, List.length_singleton, List.cons_append, List.nil_append]

/-- The characters of a year. -/
theorem mem_yearText {y : Int} {c : Char} (h : c ∈ yearText .zero y) :
    c.isDigit = true ∨ c = '-' ∨ c = '+' := by
  by_cases hy : 0 ≤ y ∧ y < 10000
  · exact .inl ((digits_yearText hy.1 hy.2).digit c h)
  · obtain ⟨gap, heq⟩ := yearText_of_not hy
    rw [heq] at h
    rcases List.mem_cons.mp h with rfl | hrest
    · split <;> simp
    · exact .inl (isDigit_of_mem_zeros hrest)

/-- **A year can be told from its text.** -/
theorem yearText_inj {y z : Int} (h : yearText .zero y = yearText .zero z) : y = z := by
  -- A sign is no digit, so both years have one or neither has.
  have hmixed : ∀ {y z : Int}, (0 ≤ y ∧ y < 10000) → ¬ (0 ≤ z ∧ z < 10000) →
      yearText .zero y ≠ yearText .zero z := by
    intro y z hy hz heq
    obtain ⟨gap, htext⟩ := yearText_of_not hz
    have hdigit := (digits_yearText hy.1 hy.2).digit (if z < 0 then '-' else '+')
      (by rw [heq, htext]; exact List.mem_cons_self)
    split at hdigit <;> cases hdigit
  by_cases hy : 0 ≤ y ∧ y < 10000
  · by_cases hz : 0 ≤ z ∧ z < 10000
    · have hvalue := (digits_yearText hy.1 hy.2).value
      rw [h, (digits_yearText hz.1 hz.2).value] at hvalue
      omega
    · exact absurd h (hmixed hy hz)
  · by_cases hz : 0 ≤ z ∧ z < 10000
    · exact absurd h.symm (hmixed hz hy)
    · obtain ⟨gap, htext⟩ := yearText_of_not hy
      obtain ⟨gap', htext'⟩ := yearText_of_not hz
      rw [htext, htext', List.cons.injEq] at h
      obtain ⟨hsign, hdigits⟩ := h
      have hvalue := ofDigitChars_zeros gap y.natAbs
      rw [hdigits, ofDigitChars_zeros] at hvalue
      have hside : y < 0 ↔ z < 0 := by
        split at hsign <;> split at hsign <;> first | omega | cases hsign
      omega

end Logbook.Time.Pattern
