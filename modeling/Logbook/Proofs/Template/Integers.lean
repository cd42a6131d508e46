import Logbook.Template.Written
import Mathlib.Algebra.Group.Nat.Defs
import Mathlib.Data.List.TakeWhile

/-! # Integers read back

    A conversion writes an integer as a sign, the mark of a radix, zeros and digits, with
    blanks around them.  Whatever the flags and the width, the integer can be told from
    the text: without the outer blanks, the sign and the mark there are digits of the
    radix, and their value is the magnitude.

    Padding decides only where blanks or zeros go, and how many: the text is as long as
    the width asks, and never shorter than without a width.
-/

namespace Logbook.Template

/-! ## Padding -/

namespace Written

variable (w : Written) (flags : Flags) (width : Nat)

/-- A text is padded up to the width, and a longer one not at all. -/
theorem length_pad : (w.pad flags width).length = max width w.length := by
  have hsum : w.length = w.sign.length + w.mark.length + w.body.length := rfl
  fun_cases pad w flags width <;>
    simp only [List.length_append, List.length_replicate] <;> omega

/-- Without a width there is no padding. -/
theorem pad_zero : w.pad flags 0 = w.sign ++ w.mark ++ w.body := by
  unfold pad
  simp only [Nat.zero_sub, List.replicate_zero, List.append_nil, List.nil_append]
  split
  · rfl
  · split <;> rfl

/-- Padding puts blanks around a text and zeros in front of its body. -/
theorem exists_pad :
    ∃ before zeros behind, w.pad flags width =
      List.replicate before ' ' ++ (w.sign ++ w.mark ++ List.replicate zeros '0' ++ w.body) ++
        List.replicate behind ' ' := by
  fun_cases pad w flags width with
  | case1 gap _ => exact ⟨0, 0, gap, by simp⟩
  | case2 gap _ _ => exact ⟨0, gap, 0, by simp⟩
  | case3 gap _ _ => exact ⟨gap, 0, 0, by simp⟩

end Written

/-! ## Digits -/

/-- The digits of a whole-number kind, in the order of what they count. -/
def Kind.digits : Kind → List Char
  | .o => ['0', '1', '2', '3', '4', '5', '6', '7']
  | .x => ['0', '1', '2', '3', '4', '5', '6', '7', '8', '9', 'a', 'b', 'c', 'd', 'e', 'f']
  | .X => ['0', '1', '2', '3', '4', '5', '6', '7', '8', '9', 'A', 'B', 'C', 'D', 'E', 'F']
  | _ => ['0', '1', '2', '3', '4', '5', '6', '7', '8', '9']

/-- The number that digits write, the first of them counting most. -/
def valueIn (digits text : List Char) : Nat :=
  text.foldl (fun n c => digits.length * n + digits.idxOf c) 0

variable {digits : List Char}

/-- The number of a text by its last digit. -/
theorem valueIn_concat (text : List Char) (c : Char) :
    valueIn digits (text ++ [c]) = digits.length * valueIn digits text + digits.idxOf c := by
  rw [valueIn, List.foldl_append]
  rfl

/-- Zeros in front do not count. -/
theorem valueIn_zeros_append (hzero : digits.idxOf '0' = 0) (count : Nat) (text : List Char) :
    valueIn digits (List.replicate count '0' ++ text) = valueIn digits text := by
  have hzeros : valueIn digits (List.replicate count '0') = 0 := by
    induction count with
    | zero => rfl
    | succ count ih =>
      rw [List.replicate_succ', valueIn_concat, ih, hzero]
      rfl
  rw [valueIn, List.foldl_append]
  rw [valueIn] at hzeros
  rw [hzeros]
  rfl

/-- A number written in the radix that is the number of digits has its own value. -/
theorem valueIn_toDigits {letter : Char → Char} (hradix : 1 < digits.length)
    (hletter : ∀ m < digits.length, digits.idxOf (letter (Nat.digitChar m)) = m) (n : Nat) :
    valueIn digits ((Nat.toDigits digits.length n).map letter) = n := by
  induction n using Nat.strong_induction_on with
  | h n ih =>
    by_cases hlt : n < digits.length
    · rw [Nat.toDigits_of_lt_base hlt, List.map_singleton, ← List.nil_append [_], valueIn_concat,
        hletter n hlt, valueIn, List.foldl_nil, Nat.mul_zero, Nat.zero_add]
    · have hpos : 0 < digits.length := by omega
      rw [Nat.toDigits_of_base_le hradix (by omega), List.map_append, List.map_singleton,
        valueIn_concat, ih _ (Nat.div_lt_self (by omega) hradix), hletter _ (Nat.mod_lt n hpos)]
      exact Nat.div_add_mod n digits.length

/-- What is written in a radix are digits of it. -/
theorem mem_of_mem_toDigits {letter : Char → Char} (hradix : 1 < digits.length)
    (hletter : ∀ m < digits.length, digits.idxOf (letter (Nat.digitChar m)) = m) {n : Nat} {c : Char}
    (hc : c ∈ (Nat.toDigits digits.length n).map letter) : c ∈ digits := by
  have hdigit : ∀ m < digits.length, letter (Nat.digitChar m) ∈ digits := by
    intro m hm
    rw [← List.idxOf_lt_length_iff, hletter m hm]
    exact hm
  induction n using Nat.strong_induction_on with
  | h n ih =>
    by_cases hlt : n < digits.length
    · rw [Nat.toDigits_of_lt_base hlt, List.map_singleton, List.mem_singleton] at hc
      exact hc ▸ hdigit n hlt
    · have hpos : 0 < digits.length := by omega
      rw [Nat.toDigits_of_base_le hradix (by omega), List.map_append, List.map_singleton,
        List.mem_append, List.mem_singleton] at hc
      rcases hc with hc | rfl
      · exact ih _ (Nat.div_lt_self (by omega) hradix) hc
      · exact hdigit _ (Nat.mod_lt n hpos)

/-- The digits of a kind's radix, in the case of the kind. -/
theorem Kind.idxOf_digits (kind : Kind) :
    kind.digits.length = kind.radix.1 ∧ ∀ m < kind.digits.length,
      kind.digits.idxOf ((if kind.radix.2.2 then Char.toUpper else id) (Nat.digitChar m)) = m := by
  cases kind <;> decide

/-- An integer's digits are not nothing, are digits of the radix, and have its value. -/
theorem integerText_spec (kind : Kind) (n : Nat) :
    integerText kind.radix.1 kind.radix.2.2 n ≠ [] ∧
      (∀ c ∈ integerText kind.radix.1 kind.radix.2.2 n, c ∈ kind.digits) ∧
      valueIn kind.digits (integerText kind.radix.1 kind.radix.2.2 n) = n := by
  obtain ⟨hlength, hletter⟩ := kind.idxOf_digits
  have hradix : 1 < kind.digits.length := by cases kind <;> decide
  have htext : integerText kind.radix.1 kind.radix.2.2 n =
      (Nat.toDigits kind.digits.length n).map (if kind.radix.2.2 then Char.toUpper else id) := by
    rw [integerText, hlength]
    split <;> simp
  rw [htext]
  refine ⟨?_, fun c hc => mem_of_mem_toDigits hradix hletter hc, valueIn_toDigits hradix hletter n⟩
  simp

/-! ## Reading back -/

/-- The mark of a kind's radix under the flag `#`. -/
def Kind.mark : Kind → List Char
  | .o => ['0', 'o']
  | .x => ['0', 'x']
  | .X => ['0', 'X']
  | _ => []

/-- A text without the blanks at both ends. -/
def withoutBlanks (text : List Char) : List Char :=
  Text.trimEnd (· = ' ') (text.dropWhile (· = ' '))

/-- Whether a minus sign is in front, and what follows a sign. -/
def splitMinus : List Char → Bool × List Char
  | '-' :: rest => (true, rest)
  | '+' :: rest => (false, rest)
  | text => (false, text)

/-- **An integer read back** from the text of a conversion: whether it has a minus sign, and
    its magnitude.  The outer blanks, one sign, and under the flag `#` the mark of the radix
    are taken away, and there must be digits of the radix left and nothing else. -/
def readInteger? (kind : Kind) (alt : Bool) (text : List Char) : Option (Bool × Nat) :=
  let (minus, rest) := splitMinus (withoutBlanks text)
  let mark := if alt then kind.mark else []
  let digits := rest.drop mark.length
  if mark <+: rest ∧ digits ≠ [] ∧ digits.all (· ∈ kind.digits) then
    some (minus, valueIn kind.digits digits)
  else none

/-- Blanks around a text that has none are taken away. -/
theorem withoutBlanks_around {text : List Char} (htext : ∀ c ∈ text, c ≠ ' ') (before behind : Nat) :
    withoutBlanks (List.replicate before ' ' ++ text ++ List.replicate behind ' ') = text := by
  have hdrop : ∀ (count : Nat) (s : List Char), (∀ c ∈ s.head?, c ≠ ' ') →
      (List.replicate count ' ' ++ s).dropWhile (· = ' ') = s := by
    intro count s hs
    rw [List.dropWhile_append_of_pos (by simp)]
    cases s with
    | nil => rfl
    | cons c s => simp [hs c rfl]
  have hfront : (List.replicate before ' ' ++ text ++ List.replicate behind ' ').dropWhile (· = ' ') =
      if text = [] then [] else text ++ List.replicate behind ' ' := by
    rw [List.append_assoc]
    cases htext' : text with
    | nil => simp
    | cons c rest =>
      rw [hdrop]
      · simp
      · intro d hd
        obtain rfl : c = d := by simpa using hd
        exact htext c (by simp [htext'])
  rw [withoutBlanks, hfront]
  split
  · next hnil => rw [hnil]; rfl
  · rw [Text.trimEnd, List.reverse_append, List.reverse_replicate, hdrop, List.reverse_reverse]
    intro c hc
    exact htext c (List.mem_reverse.mp (List.mem_of_mem_head? hc))

/-- Digits of a radix, behind a mark or not, have no blank and no sign among them. -/
theorem ne_sign_of_mem {kind : Kind} {c : Char} (hc : c ∈ kind.mark ∨ c ∈ kind.digits) :
    c ≠ ' ' ∧ c ≠ '+' ∧ c ≠ '-' := by
  have hall : (kind.mark ++ kind.digits).all (fun c => c ≠ ' ' && c ≠ '+' && c ≠ '-') = true := by
    cases kind <;> decide
  have hchar := List.all_eq_true.mp hall c (List.mem_append.mpr hc)
  simpa [and_assoc] using hchar

/-- A sign that is no blank is split off what begins with no sign. -/
theorem splitMinus_sign {sign text : List Char} (hsign : sign ∈ [[], ['+'], ['-']])
    (htext : ∀ c ∈ text, c ≠ '+' ∧ c ≠ '-') :
    splitMinus (sign ++ text) = (decide (sign = ['-']), text) := by
  simp only [List.mem_cons, List.not_mem_nil, or_false] at hsign
  rcases hsign with rfl | rfl | rfl
  · rw [List.nil_append]
    unfold splitMinus
    split
    · exact absurd rfl (htext '-' List.mem_cons_self).2
    · exact absurd rfl (htext '+' List.mem_cons_self).1
    · rfl
  · rfl
  · rfl

/-- **Reading back**: an integer is read from its sign, mark, zeros and digits, with any
    number of blanks around them. -/
theorem readInteger?_around (kind : Kind) (alt : Bool) {sign text : List Char}
    (hsign : sign ∈ [[], ['+'], ['-']]) (hne : text ≠ []) (htext : ∀ c ∈ text, c ∈ kind.digits)
    (before behind zeros : Nat) :
    readInteger? kind alt (List.replicate before ' ' ++
        (sign ++ ((if alt then kind.mark else []) ++ (List.replicate zeros '0' ++ text))) ++
        List.replicate behind ' ') =
      some (decide (sign = ['-']), valueIn kind.digits text) := by
  have hzero : '0' ∈ kind.digits ∧ kind.digits.idxOf '0' = 0 := by cases kind <;> decide
  have hdigits : ∀ c ∈ List.replicate zeros '0' ++ text, c ∈ kind.digits := by
    intro c hc
    rcases List.mem_append.mp hc with hc | hc
    · exact List.eq_of_mem_replicate hc ▸ hzero.1
    · exact htext c hc
  have hmark : ∀ c ∈ (if alt then kind.mark else []) ++ (List.replicate zeros '0' ++ text),
      c ∈ kind.mark ∨ c ∈ kind.digits := by
    intro c hc
    rcases List.mem_append.mp hc with hc | hc
    · split at hc
      · exact .inl hc
      · cases hc
    · exact .inr (hdigits c hc)
  have hblank : ∀ c ∈ sign ++ ((if alt then kind.mark else []) ++ (List.replicate zeros '0' ++ text)),
      c ≠ ' ' := by
    intro c hc
    rcases List.mem_append.mp hc with hc | hc
    · simp only [List.mem_cons, List.not_mem_nil, or_false] at hsign
      rcases hsign with rfl | rfl | rfl
      · cases hc
      · obtain rfl := List.mem_singleton.mp hc
        decide
      · obtain rfl := List.mem_singleton.mp hc
        decide
    · exact (ne_sign_of_mem (hmark c hc)).1
  rw [readInteger?, withoutBlanks_around hblank,
    splitMinus_sign hsign fun c hc => (ne_sign_of_mem (hmark c hc)).2]
  simp only [List.drop_left]
  have hall : (List.replicate zeros '0' ++ text).all (· ∈ kind.digits) = true :=
    List.all_eq_true.mpr fun c hc => decide_eq_true (hdigits c hc)
  rw [if_pos ⟨List.prefix_append _ _, by simp [hne], hall⟩, valueIn_zeros_append hzero.2]

/-! ## Integers -/

/-- The sign that is shown, as blanks and a sign that is no blank. -/
theorem exists_signText (negative : Bool) (flags : Flags) :
    ∃ blanks sign, signText negative flags = List.replicate blanks ' ' ++ sign ∧
      sign ∈ [[], ['+'], ['-']] ∧ decide (sign = ['-']) = negative := by
  unfold signText
  split
  · next h => exact ⟨0, ['-'], rfl, by decide, h.symm⟩
  · next h =>
    have hnegative : negative = false := by simpa using h
    split
    · exact ⟨0, ['+'], rfl, by decide, hnegative.symm⟩
    · split
      · exact ⟨1, [], rfl, by decide, hnegative.symm⟩
      · exact ⟨0, [], rfl, by decide, hnegative.symm⟩

/-- An integer as it is written, not yet padded. -/
def writtenInteger (kind : Kind) (flags : Flags) (n : Int64) : Written where
  sign := signText (n.toInt < 0) flags
  mark := if flags.alt then kind.mark else []
  body := integerText kind.radix.1 kind.radix.2.2 n.toInt.natAbs
  numeric := true

theorem write_integer {c : Conversion} (hkind : c.kind ∈ [.d, .i, .u, .o, .x, .X]) (n : Int64) :
    c.write (.int n) = .ok (writtenInteger c.kind c.flags n) := by
  simp only [List.mem_cons, List.not_mem_nil, or_false] at hkind
  rcases hkind with h | h | h | h | h | h <;> (rw [Conversion.write, h]; rfl)

/-- The text of an integer is read back, whatever the padding. -/
theorem readInteger?_pad (kind : Kind) (flags : Flags) (n : Int64) (width : Nat) :
    readInteger? kind flags.alt ((writtenInteger kind flags n).pad flags width) =
      some (decide (n.toInt < 0), n.toInt.natAbs) := by
  obtain ⟨hne, hdigits, hvalue⟩ := integerText_spec kind n.toInt.natAbs
  obtain ⟨before, zeros, behind, hpad⟩ := (writtenInteger kind flags n).exists_pad flags width
  obtain ⟨blanks, sign, hsign, hmem, hminus⟩ := exists_signText (n.toInt < 0) flags
  have htext : (writtenInteger kind flags n).pad flags width =
      List.replicate (before + blanks) ' ' ++
        (sign ++ ((if flags.alt then kind.mark else []) ++ (List.replicate zeros '0' ++
          integerText kind.radix.1 kind.radix.2.2 n.toInt.natAbs))) ++
        List.replicate behind ' ' := by
    rw [hpad]
    simp only [writtenInteger, hsign, ← List.replicate_append_replicate, List.append_assoc]
  rw [htext, readInteger?_around kind flags.alt hmem hne hdigits, hminus, hvalue]

/-- **Integers can be read back.**  A conversion of a whole-number kind writes every integer,
    whatever its flags, width and precision.  The text is as long as the width, or as long as
    without a width if that is longer, and it tells the integer: without the outer blanks, a
    sign and the mark of the radix there are digits of the radix and nothing else, their value
    is the magnitude, and the sign is a minus sign exactly for a negative integer. -/
theorem render_integer (n : Int64) (c : Conversion) (hkind : c.kind ∈ [.d, .i, .u, .o, .x, .X]) :
    ∃ text bare, c.render (.int n) = .ok text ∧
      ({ c with width? := none } : Conversion).render (.int n) = .ok bare ∧
      text.length = max (c.width?.getD 0) bare.length ∧
      readInteger? c.kind c.flags.alt text = some (decide (n.toInt < 0), n.toInt.natAbs) := by
  have hwrite := write_integer hkind n
  have hbare : ({ c with width? := none } : Conversion).write (.int n) = c.write (.int n) := rfl
  refine ⟨(writtenInteger c.kind c.flags n).pad c.flags (c.width?.getD 0),
    (writtenInteger c.kind c.flags n).pad c.flags 0, ?_, ?_, ?_, ?_⟩
  · rw [Conversion.render, hwrite]
    rfl
  · rw [Conversion.render, hbare, hwrite]
    rfl
  · rw [Written.length_pad, Written.length_pad, Nat.max_eq_right (Nat.zero_le _)]
  · exact readInteger?_pad c.kind c.flags n _

/-- The least integer, with zeros between the mark and the digits and one column to fill. -/
theorem render_integer_least :
    let c : Conversion :=
      { flags := { zero := true, plus := true, alt := true }, width? := some 20, kind := .x }
    c.kind ∈ [.d, .i, .u, .o, .x, .X] ∧
      c.render (.int Int64.minValue) = .ok "-0x08000000000000000".toList ∧
      readInteger? .x true "-0x08000000000000000".toList = some (true, 2 ^ 63) := by
  intro c
  have hkind : c.kind ∈ [.d, .i, .u, .o, .x, .X] := by decide
  have htext : c.render (.int Int64.minValue) = .ok "-0x08000000000000000".toList := by rfl
  obtain ⟨text, bare, hrender, -, -, hread⟩ := render_integer Int64.minValue c hkind
  obtain rfl : "-0x08000000000000000".toList = text := Except.ok.inj (htext.symm.trans hrender)
  exact ⟨hkind, htext, hread⟩

end Logbook.Template
