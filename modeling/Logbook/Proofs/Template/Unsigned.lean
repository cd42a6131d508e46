import Logbook.Proofs.Template.Conversions
import Logbook.Proofs.Template.Integers
import Logbook.Proofs.Time.Digits

/-! # Where a number begins

    The body of a number, whatever its notation, begins with a digit, a letter or a point,
    and neither with a sign nor with a blank.  So sign and body can be told apart once they
    have been put together.
-/

namespace Logbook.Template

/-! ## Texts that begin with no sign -/

/-- A character behind which a field puts its zeros. -/
def isSign (c : Char) : Bool := c = '+' || c = '-' || c = ' '

/-- A text that does not begin with a sign. -/
def Unsigned (text : List Char) : Prop := ∀ c ∈ text.head?, isSign c = false

namespace Unsigned

variable {a b : List Char}

theorem of_forall (h : ∀ c ∈ a, isSign c = false) : Unsigned a :=
  fun c hc => h c (List.mem_of_mem_head? hc)

theorem append (ha : Unsigned a) (hb : Unsigned b) : Unsigned (a ++ b) := by
  cases a with
  | nil => exact hb
  | cons c a => exact ha

/-- What a text begins with has the same beginning. -/
theorem of_beginning (hb : Unsigned b) (h : a <+: b) : Unsigned a := by
  obtain ⟨rest, rfl⟩ := h
  cases a with
  | nil => exact of_forall (by simp)
  | cons c a => exact hb

end Unsigned

theorem isSign_of_isDigit {c : Char} (h : c.isDigit = true) : isSign c = false := by
  rw [← Bool.not_eq_true]
  intro hsign
  simp only [isSign, Bool.or_eq_true, decide_eq_true_eq] at hsign
  rcases hsign with (rfl | rfl) | rfl <;> exact absurd h (by decide)

/-- All signs come before the letters. -/
theorem isSign_of_le {c : Char} (h : 65 ≤ c.toNat) : isSign c = false := by
  rw [← Bool.not_eq_true]
  intro hsign
  simp only [isSign, Bool.or_eq_true, decide_eq_true_eq] at hsign
  rcases hsign with (rfl | rfl) | rfl <;> exact absurd h (by decide)

/-- Some letters become capitals, and all else stays as it is. -/
theorem isSign_toUpper {c : Char} (h : isSign c = false) : isSign c.toUpper = false := by
  delta Char.toUpper
  split
  · next hlower =>
    -- The difference between the cases is negative, so the sum of codes wraps around.
    have hlow : 97 ≤ c.val.toNat := hlower.1
    have hhigh : c.val.toNat ≤ 122 := hlower.2
    have hshift : (65 - 97 : UInt32).toNat = 2 ^ 32 - 32 := rfl
    refine isSign_of_le ?_
    show 65 ≤ (c.val + (65 - 97)).toNat
    rw [UInt32.toNat_add]
    omega
  · exact h

theorem Unsigned.map_toUpper {text : List Char} (h : Unsigned text) :
    Unsigned (text.map Char.toUpper) := by
  intro c hc
  rw [List.head?_map] at hc
  obtain ⟨d, hd, rfl⟩ := Option.map_eq_some_iff.mp hc
  exact isSign_toUpper (h d hd)

/-! ## Bodies of numbers -/

theorem isSign_of_mem_zeroFilled {count n : Nat} {c : Char} (hc : c ∈ Decimal.zeroFilled count n) :
    isSign c = false :=
  isSign_of_isDigit (Time.Pattern.isDigit_of_mem_zeros hc)

/-- Digits with a point among them begin with no sign. -/
theorem unsigned_pointed {ds : List Char} (hds : ∀ c ∈ ds, isSign c = false) (count : Nat) :
    Unsigned (ds.take count ++ '.' :: ds.drop count) := by
  have htake : Unsigned (ds.take count) := .of_forall fun c hc => hds c (List.mem_of_mem_take hc)
  refine htake.append ?_
  intro c hc
  obtain rfl := Option.mem_some_iff.mp hc
  decide

theorem unsigned_fixedText (v : Decimal.Magnitude) (places : Nat) :
    Unsigned (Decimal.fixedText v places) := by
  simp only [Decimal.fixedText]
  split
  · exact .of_forall fun c hc => isSign_of_mem_zeroFilled (List.mem_of_mem_take hc)
  · exact unsigned_pointed (fun c hc => isSign_of_mem_zeroFilled hc) _

theorem unsigned_exponentText (v : Decimal.Magnitude) (places : Nat) :
    Unsigned (Decimal.exponentText v places) := by
  have hexponent : ∀ rest, Unsigned ('e' :: rest) := by
    intro rest c hc
    obtain rfl := Option.mem_some_iff.mp hc
    decide
  simp only [Decimal.exponentText]
  refine Unsigned.append ?_ (hexponent _)
  split
  · exact .of_forall fun c hc => isSign_of_mem_zeroFilled hc
  · exact unsigned_pointed (fun c hc => isSign_of_mem_zeroFilled hc) 1

/-- Taking characters away from the end of a text leaves its beginning. -/
theorem Unsigned.trimEnd {text : List Char} (h : Unsigned text) (p : Char → Bool) :
    Unsigned (Text.trimEnd p text) := by
  refine h.of_beginning ?_
  rw [Text.trimEnd, ← List.reverse_suffix, List.reverse_reverse]
  exact List.dropWhile_suffix p

/-- What is left of a number are its beginning and its exponent. -/
theorem unsigned_stripFraction {text : List Char} (h : Unsigned text) :
    Unsigned (stripFraction text) := by
  -- A number of which nothing is left in front of its exponent begins with the mark of it.
  have hnumber : Unsigned (text.takeWhile (· ≠ 'e')) := h.of_beginning (List.takeWhile_prefix _)
  have hexponent : Unsigned (text.dropWhile (· ≠ 'e')) := by
    intro c hc
    obtain rfl : c = 'e' := by simpa using head?_dropWhile c hc
    decide
  simp only [stripFraction]
  split
  · exact ((hnumber.trimEnd _).trimEnd _).append hexponent
  · exact hnumber.append hexponent

theorem unsigned_generalText (x : Double) (v : Decimal.Magnitude) (precision : Nat)
    (keepZeros : Bool) : Unsigned (generalText x v precision keepZeros) := by
  have hform : ∀ (small : Bool) (places places' : Nat), Unsigned
      (if small then Decimal.fixedText v places else Decimal.exponentText v places') := by
    intro small places places'
    cases small with
    | true => exact unsigned_fixedText v places
    | false => exact unsigned_exponentText v places'
  simp only [generalText]
  split
  · exact hform _ _ _
  · exact unsigned_stripFraction (hform _ _ _)

/-- A double without its sign begins with no sign, whatever its notation. -/
theorem unsigned_doubleBody (kind : Kind) (x : Double) (precision : Nat) (alt : Bool) :
    Unsigned (doubleBody kind x precision alt) := by
  have hword : ∀ c ∈ ['n', 'a', 'n'] ++ ['i', 'n', 'f'], isSign c = false := by simp [isSign]
  have hcase : ∀ {text}, Unsigned text →
      Unsigned (if kind.isCapital then text.map Char.toUpper else text) := by
    intro text htext
    split
    · exact htext.map_toUpper
    · exact htext
  refine hcase ?_
  split
  · exact .of_forall fun c hc => hword c (List.mem_append_left _ hc)
  · exact .of_forall fun c hc => hword c (List.mem_append_right _ hc)
  · split
    · exact unsigned_fixedText _ _
    · exact unsigned_fixedText _ _
    · exact unsigned_exponentText _ _
    · exact unsigned_exponentText _ _
    · exact unsigned_generalText _ _ _ _

theorem unsigned_integerText (kind : Kind) (n : Nat) :
    Unsigned (integerText kind.radix.1 kind.radix.2.2 n) := by
  obtain ⟨-, hdigits, -⟩ := integerText_spec kind n
  refine .of_forall fun c hc => ?_
  obtain ⟨hblank, hplus, hminus⟩ := ne_sign_of_mem (.inr (hdigits c hc))
  simp [isSign, hblank, hplus, hminus]

/-! ## Numbers -/

/-- A number as it is written without the flag `#`. -/
structure Written.IsNumber (w : Written) : Prop where
  numeric : w.numeric = true
  mark : w.mark = []
  sign : ∀ c ∈ w.sign, isSign c = true
  body : Unsigned w.body

theorem isSign_of_mem_signText {negative : Bool} {flags : Flags} {c : Char}
    (hc : c ∈ signText negative flags) : isSign c = true := by
  unfold signText at hc
  split at hc
  · obtain rfl := List.mem_singleton.mp hc
    rfl
  · split at hc
    · obtain rfl := List.mem_singleton.mp hc
      rfl
    · split at hc
      · obtain rfl := List.mem_singleton.mp hc
        rfl
      · cases hc

/-- A kind by which values are written as numbers. -/
def Kind.isNumber : Kind → Bool
  | .s | .r | .a | .c => false
  | _ => true

/-- What a number kind writes is a number, as long as there is no mark. -/
theorem Conversion.write_isNumber {c : Conversion} (hkind : c.kind.isNumber = true)
    (halt : c.flags.alt = false) {v : Value} {w : Written} (h : c.write v = .ok w) : w.IsNumber := by
  have hwrite : c.write v = writeInteger c.kind c.flags v ∨
      c.write v = writeDouble c.kind c.flags c.precision? v := by
    unfold write
    cases hk : c.kind <;> first | exact .inl rfl | exact .inr rfl | (rw [hk] at hkind; cases hkind)
  rcases hwrite with hwrite | hwrite
  · rw [hwrite, writeInteger] at h
    split at h
    · cases h
    · obtain rfl := Except.ok.inj h
      exact ⟨rfl, by simp [halt], fun c hc => isSign_of_mem_signText hc, unsigned_integerText _ _⟩
  · rw [hwrite, writeDouble] at h
    split at h
    · cases h
    · obtain rfl := Except.ok.inj h
      exact ⟨rfl, rfl, fun c hc => isSign_of_mem_signText hc, unsigned_doubleBody _ _ _ _⟩

end Logbook.Template
