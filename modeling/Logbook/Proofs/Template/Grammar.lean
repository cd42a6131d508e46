import Logbook.Template.Conversion
import Mathlib.Algebra.Group.Nat.Defs

/-! # The grammar of percent templates

    A percent template is a sequence of tokens: a character other than a percent sign,
    two percent signs, or a conversion

        % [ ( key ) ] flag* digit* [ . digit* ] size* kind

    whose key has balanced parentheses.  The grammar is stated here without reference to
    how a template is read.  Reading succeeds on the texts of the grammar and on no other
    text, and it returns what the tokens say.

    The one choice the grammar leaves open is whether a zero between flags and width is
    a flag or a digit.  It is a flag: reading takes the longest run of flags.
-/

namespace Logbook.Template

/-! ## Keys -/

/-- A text in which each parenthesis has its partner. -/
inductive Balanced : List Char → Prop where
  | nil : Balanced []
  | char {c : Char} {s : List Char} : c ≠ '(' → c ≠ ')' → Balanced s → Balanced (c :: s)
  | group {s t : List Char} : Balanced s → Balanced t → Balanced ('(' :: (s ++ ')' :: t))

/-- Balanced texts, each of which but the last is followed by a parenthesis that closes
    one of `depth` groups. -/
def Closing : Nat → List Char → Prop
  | 0, s => Balanced s
  | depth + 1, s => ∃ b t, Balanced b ∧ Closing depth t ∧ s = b ++ ')' :: t

namespace Closing

variable {depth : Nat} {s : List Char}

theorem char {c : Char} (hopen : c ≠ '(') (hclose : c ≠ ')') (h : Closing depth s) :
    Closing depth (c :: s) := by
  cases depth with
  | zero => exact .char hopen hclose h
  | succ depth =>
    obtain ⟨b, t, hb, ht, rfl⟩ := h
    exact ⟨c :: b, t, .char hopen hclose hb, ht, rfl⟩

/-- A group that is opened is closed by the first of the parentheses. -/
theorem opened (h : Closing (depth + 1) s) : Closing depth ('(' :: s) := by
  obtain ⟨b, t, hb, ht, rfl⟩ := h
  cases depth with
  | zero => exact .group hb ht
  | succ depth =>
    obtain ⟨b', t', hb', ht', rfl⟩ := ht
    refine ⟨'(' :: (b ++ ')' :: b'), t', .group hb hb', ht', ?_⟩
    simp

end Closing

/-- What is read as a key closes all groups that were open. -/
theorem closing_of_keyBody {depth : Nat} {s k r : List Char} (h : keyBody depth s = some (k, r)) :
    Closing depth k ∧ s = k ++ ')' :: r := by
  fun_induction keyBody depth s generalizing k r with
  | case1 => simp at h
  | case2 depth rest ih =>
    obtain ⟨⟨k', r'⟩, hk, he⟩ := Option.map_eq_some_iff.1 h
    obtain ⟨rfl, rfl⟩ := Prod.mk.inj he
    obtain ⟨hclosing, rfl⟩ := ih hk
    exact ⟨hclosing.opened, rfl⟩
  | case3 rest =>
    obtain ⟨rfl, rfl⟩ := Prod.mk.inj (Option.some.inj h)
    exact ⟨.nil, rfl⟩
  | case4 depth rest ih =>
    obtain ⟨⟨k', r'⟩, hk, he⟩ := Option.map_eq_some_iff.1 h
    obtain ⟨rfl, rfl⟩ := Prod.mk.inj he
    obtain ⟨hclosing, rfl⟩ := ih hk
    exact ⟨⟨[], k', .nil, hclosing, rfl⟩, rfl⟩
  | case5 depth c rest hopen hclose hclose' ih =>
    obtain ⟨⟨k', r'⟩, hk, he⟩ := Option.map_eq_some_iff.1 h
    obtain ⟨rfl, rfl⟩ := Prod.mk.inj he
    obtain ⟨hclosing, rfl⟩ := ih hk
    refine ⟨hclosing.char hopen ?_, rfl⟩
    rintro rfl
    cases depth with
    | zero => exact hclose rfl rfl
    | succ depth => exact hclose' depth rfl rfl

/-- A balanced text is passed over, whatever the number of open groups. -/
theorem Balanced.keyBody {s : List Char} (h : Balanced s) (depth : Nat) (r : List Char) :
    keyBody depth (s ++ r) = (Template.keyBody depth r).map fun (k, r) => (s ++ k, r) := by
  induction h generalizing depth r with
  | nil =>
    rw [List.nil_append]
    cases Template.keyBody depth r <;> rfl
  | @char c s hopen hclose _ ih =>
    rw [List.cons_append, Template.keyBody, ih]
    · cases Template.keyBody depth r <;> rfl
    · exact fun heq => hopen heq
    · exact fun _ heq => hclose heq
    · exact fun _ _ heq => hclose heq
  | @group s t _ _ ihs iht =>
    rw [List.cons_append, Template.keyBody, List.append_assoc, ihs, List.cons_append,
      Template.keyBody, iht]
    cases Template.keyBody depth r with
    | none => rfl
    | some kr => simp

/-- **A key is a balanced text**, and it ends at the first parenthesis that has no
    partner in it. -/
theorem keyBody_eq_some_iff {s k r : List Char} :
    keyBody 0 s = some (k, r) ↔ Balanced k ∧ s = k ++ ')' :: r := by
  constructor
  · exact closing_of_keyBody
  · rintro ⟨hk, rfl⟩
    rw [hk.keyBody, keyBody]
    simp

instance (k : List Char) : Decidable (Balanced k) :=
  decidable_of_iff (keyBody 0 (k ++ [')']) = some (k, [])) <| by
    rw [keyBody_eq_some_iff, and_iff_left rfl]

example : Balanced "f(x)(y)".toList ∧ ¬ Balanced ")(".toList := by decide

/-! ## The text of a conversion -/

/-- The part of a conversion after its key, as it is written. -/
structure SpecText where
  flags : List Char := []
  width : List Char := []
  precision? : Option (List Char) := none
  sizes : List Char := []
  kind : Kind
  flags_mem : ∀ c ∈ flags, c ∈ ['-', '0', '+', ' ', '#']
  width_digit : ∀ c ∈ width, c.isDigit
  precision_digit : ∀ ds ∈ precision?, ∀ c ∈ ds, c.isDigit
  sizes_mem : ∀ c ∈ sizes, c ∈ ['h', 'l', 'L']

/-- A conversion, as it is written. -/
structure ConversionText where
  key? : Option (List Char) := none
  spec : SpecText
  key_balanced : ∀ k ∈ key?, Balanced k

/-- A point and the digits after it. -/
def precisionText : Option (List Char) → List Char
  | none => []
  | some ds => '.' :: ds

/-- The precision and the sizes, with the letter at the end. -/
def SpecText.tail (x : SpecText) : List Char :=
  precisionText x.precision? ++ (x.sizes ++ [x.kind.letter])

/-- The characters of a conversion after its key. -/
def SpecText.text (x : SpecText) : List Char := x.flags ++ (x.width ++ x.tail)

/-- The characters of a conversion after its percent sign. -/
def ConversionText.body (x : ConversionText) : List Char :=
  match x.key? with
  | none => x.spec.text
  | some k => '(' :: (k ++ ')' :: x.spec.text)

/-- The characters of a conversion. -/
def ConversionText.text (x : ConversionText) : List Char := '%' :: x.body

/-- The number that decimal digits write, if there are any and it is below `2 ^ 64`. -/
def number? (ds : List Char) : Option Nat :=
  if ds ≠ [] ∧ Nat.ofDigitChars 10 ds 0 < 2 ^ 64 then some (Nat.ofDigitChars 10 ds 0) else none

/-- What a conversion says apart from its key: its flags are those that occur, and its
    numbers are decimal.  A precision without digits is zero, and so is one that is too
    large. -/
def SpecText.decode (x : SpecText) (key? : Option String) : Conversion where
  key?
  flags :=
    { left := '-' ∈ x.flags, zero := '0' ∈ x.flags, plus := '+' ∈ x.flags, space := ' ' ∈ x.flags,
      alt := '#' ∈ x.flags }
  width? := number? x.width
  precision? := x.precision?.map fun ds => (number? ds).getD 0
  kind := x.kind

/-- What a conversion says. -/
def ConversionText.decode (x : ConversionText) : Conversion :=
  x.spec.decode (x.key?.map String.ofList)

/-- No other way to take the same text apart has a longer run of flags. -/
def ConversionText.LongestFlags (x : ConversionText) : Prop :=
  ∀ y : ConversionText, y.text = x.text → y.spec.flags.length ≤ x.spec.flags.length

/-! ## Tokens -/

/-- One step of a template, as it is written. -/
inductive Token where
  | plain (c : Char) (h : c ≠ '%')
  | percent
  | conversion (x : ConversionText)

/-- The characters of a token. -/
def Token.text : Token → List Char
  | plain c _ => [c]
  | percent => ['%', '%']
  | conversion x => x.text

/-- What a token stands for. -/
def Token.segment : Token → Segment Conversion
  | plain c _ => .char c
  | percent => .char '%'
  | conversion x => .field x.decode

/-- Each conversion has the longest run of flags that its text allows. -/
def LongestRuns (tokens : List Token) : Prop := ∀ x, .conversion x ∈ tokens → x.LongestFlags

end Logbook.Template
