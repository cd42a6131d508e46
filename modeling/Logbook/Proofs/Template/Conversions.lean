import Logbook.Proofs.Template.Grammar
import Mathlib.Data.List.TakeWhile

/-! # Reading a conversion

    Each part of a conversion ends where a character stands that cannot continue it, so
    reading finds the parts of a conversion that is written, and what it finds is written
    there.  The exception is a zero between flags and width, which reading takes for a
    flag.
-/

namespace Logbook.Template

/-! ## Runs of characters -/

/-- A run of characters of one class ends in front of the first one of another class. -/
theorem span_append {p : Char → Bool} {a b : List Char} (ha : ∀ c ∈ a, p c = true)
    (hb : ∀ c ∈ b.head?, p c = false) :
    (a ++ b).takeWhile p = a ∧ (a ++ b).dropWhile p = b := by
  rw [List.takeWhile_append_of_pos ha, List.dropWhile_append_of_pos ha]
  cases b with
  | nil => simp
  | cons c b =>
    have hc : p c = false := hb c rfl
    simp [hc]

theorem head?_dropWhile {p : Char → Bool} {s : List Char} :
    ∀ c ∈ (s.dropWhile p).head?, p c = false := by
  intro c hc
  have hnot := List.head?_dropWhile_not p s
  rw [Option.mem_def.mp hc] at hnot
  exact hnot

theorem isFlag_iff {c : Char} : isFlag c = true ↔ c ∈ ['-', '0', '+', ' ', '#'] := by
  simp [isFlag, or_assoc]

theorem isSize_iff {c : Char} : isSize c = true ↔ c ∈ ['h', 'l', 'L'] := by
  simp [isSize, or_assoc]

theorem digits64?_eq (ds : List Char) : digits64? ds = number? ds := by
  have hvalue : ds.foldl (fun n d => n * 10 + (d.toNat - '0'.toNat)) 0 = Nat.ofDigitChars 10 ds 0 := by
    rw [Nat.ofDigitChars]
    congr 1
    funext n d
    rw [Nat.mul_comm]
  have hlimit : twoTo 64 = 2 ^ 64 := by decide
  cases ds with
  | nil => rfl
  | cons d ds =>
    simp only [digits64?, number?, hvalue, hlimit, List.isEmpty_cons, ne_eq, reduceCtorEq,
      not_false_eq_true, true_and, Bool.false_eq_true, if_false]

/-! ## Reading a conversion -/

namespace SpecText

variable (x : SpecText)

theorem isFlag_of_mem : ∀ c ∈ x.flags, isFlag c = true :=
  fun c hc => isFlag_iff.mpr (x.flags_mem c hc)

theorem isSize_of_mem : ∀ c ∈ x.sizes, isSize c = true :=
  fun c hc => isSize_iff.mpr (x.sizes_mem c hc)

/-- Sizes or a letter come where no flag, digit, point or star can stand. -/
theorem head_sizes {c : Char} (r : List Char)
    (hc : c ∈ (x.sizes ++ x.kind.letter :: r).head?) :
    isFlag c = false ∧ c.isDigit = false ∧ c ≠ '.' ∧ c ≠ '*' := by
  cases hsizes : x.sizes with
  | nil =>
    rw [hsizes] at hc
    obtain rfl : x.kind.letter = c := by simpa using hc
    cases x.kind <;> decide
  | cons d ds =>
    rw [hsizes] at hc
    obtain rfl : d = c := by simpa using hc
    have hmem : d ∈ ['h', 'l', 'L'] := x.sizes_mem d (by simp [hsizes])
    simp only [List.mem_cons, List.not_mem_nil, or_false] at hmem
    rcases hmem with rfl | rfl | rfl <;> decide

/-- A point, sizes or a letter come where no flag, digit or star can stand. -/
theorem head_tail {c : Char} (r : List Char) (hc : c ∈ (x.tail ++ r).head?) :
    isFlag c = false ∧ c.isDigit = false ∧ c ≠ '*' := by
  cases hprec : x.precision? with
  | none =>
    have htail : x.tail ++ r = x.sizes ++ x.kind.letter :: r := by simp [tail, hprec, precisionText]
    rw [htail] at hc
    obtain ⟨hflag, hdigit, -, hstar⟩ := x.head_sizes r hc
    exact ⟨hflag, hdigit, hstar⟩
  | some ds =>
    obtain rfl : '.' = c := by simpa [tail, hprec, precisionText] using hc
    decide

/-- A width that begins with another digit than zero begins with no flag. -/
theorem head_width {c : Char} (hzero : x.width.head? ≠ some '0') (r : List Char)
    (hc : c ∈ (x.width ++ (x.tail ++ r)).head?) : isFlag c = false ∧ c ≠ '*' := by
  -- Behind no width stands the tail, which begins with neither flag nor star.
  cases hwidth : x.width with
  | nil =>
    rw [hwidth, List.nil_append] at hc
    obtain ⟨hflag, -, hstar⟩ := x.head_tail r hc
    exact ⟨hflag, hstar⟩
  | cons d ds =>
    rw [hwidth] at hc hzero
    obtain rfl : d = c := by simpa using hc
    have hdigit : d.isDigit = true := x.width_digit d (by simp [hwidth])
    constructor
    · rw [← Bool.not_eq_true, isFlag_iff]
      intro hmem
      simp only [List.mem_cons, List.not_mem_nil, or_false] at hmem
      -- The only flag among the digits is the zero.
      rcases hmem with rfl | rfl | rfl | rfl | rfl
      · exact absurd hdigit (by decide)
      · exact hzero rfl
      · exact absurd hdigit (by decide)
      · exact absurd hdigit (by decide)
      · exact absurd hdigit (by decide)
    · rintro rfl
      exact absurd hdigit (by decide)

/-- The precision of a conversion is read in front of its sizes. -/
theorem readPrecision_tail (r : List Char) :
    readPrecision (x.tail ++ r) =
      (x.precision?.map fun ds => (number? ds).getD 0, x.sizes ++ x.kind.letter :: r) := by
  cases hprec : x.precision? with
  | none =>
    have htail : x.tail ++ r = x.sizes ++ x.kind.letter :: r := by simp [tail, hprec, precisionText]
    rw [htail]
    -- What follows begins with a size or the letter, and so not with a point.
    cases hrest : x.sizes ++ x.kind.letter :: r with
    | nil => rfl
    | cons c rest =>
      have hc := x.head_sizes r (c := c) (by rw [hrest]; rfl)
      rw [readPrecision]
      · rfl
      · intro _ heq
        exact hc.2.2.1 (List.cons.inj heq).1
  | some ds =>
    have htail : x.tail ++ r = '.' :: (ds ++ (x.sizes ++ x.kind.letter :: r)) := by
      simp [tail, hprec, precisionText]
    obtain ⟨htake, hdrop⟩ := span_append (p := Char.isDigit) (x.precision_digit ds hprec)
      fun c hc => (x.head_sizes r hc).2.1
    rw [htail, readPrecision, htake, hdrop, digits64?_eq]
    rfl

end SpecText

/-- The part of a conversion after its key is read, if it begins with its longest run of
    flags. -/
theorem readSpec_text (total : Nat) (key? : Option String) (x : SpecText)
    (hzero : x.width.head? ≠ some '0') (r : List Char) :
    readSpec total key? (x.text ++ r) = .ok (x.decode key?, r) := by
  have htext : x.text ++ r = x.flags ++ (x.width ++ (x.tail ++ r)) := by simp [SpecText.text]
  -- Each part is the longest run of its own characters, since the next part begins with another.
  obtain ⟨hflags, hwidth⟩ := span_append (p := isFlag) x.isFlag_of_mem
    fun c hc => (x.head_width hzero r hc).1
  obtain ⟨hdigits, htail⟩ := span_append (p := Char.isDigit) x.width_digit
    fun c hc => (x.head_tail r hc).2.1
  have hsizes := (span_append (p := isSize) (b := x.kind.letter :: r) x.isSize_of_mem (by
    intro c hc
    obtain rfl : x.kind.letter = c := by simpa using hc
    cases x.kind <;> decide)).2
  have hstar : ¬ (x.width ++ (x.tail ++ r)).head? = some '*' :=
    fun heq => (x.head_width hzero r heq).2 rfl
  simp only [readSpec, htext, hflags, hwidth, hdigits, htail, x.readPrecision_tail r, hsizes,
    hstar, if_false, Kind.ofLetter?_letter, digits64?_eq]
  simp [SpecText.decode, Flags.ofChars]

/-- A precision that is read stands in front of what is left. -/
theorem text_of_readPrecision (s : List Char) :
    ∃ ds? : Option (List Char), (∀ ds ∈ ds?, ∀ c ∈ ds, c.isDigit) ∧
      s = precisionText ds? ++ (readPrecision s).2 ∧
      (readPrecision s).1 = ds?.map fun ds => (number? ds).getD 0 := by
  fun_cases readPrecision s with
  | case1 rest =>
    refine ⟨some (rest.takeWhile Char.isDigit), ?_, ?_, ?_⟩
    · intro ds hds c hc
      obtain rfl := Option.mem_some_iff.mp hds
      exact List.mem_takeWhile_imp hc
    · rw [precisionText, List.cons_append, List.takeWhile_append_dropWhile]
    · rw [digits64?_eq]
      rfl
  | case2 => exact ⟨none, by simp, rfl, rfl⟩

/-- The width begins where the flags end, so not with a zero. -/
theorem head?_width (s : List Char) :
    ((s.dropWhile isFlag).takeWhile Char.isDigit).head? ≠ some '0' := by
  intro hzero
  have hhead : '0' ∈ (s.dropWhile isFlag).head? := by
    cases hrest : s.dropWhile isFlag with
    | nil => simp [hrest] at hzero
    | cons d ds =>
      have hd : d.isDigit = true := by
        by_contra hd
        simp [hrest, hd] at hzero
      simpa [hrest, hd] using hzero
  exact absurd (head?_dropWhile _ hhead) (by decide)

/-- What is read after a key is written there, and no flag follows the flags. -/
theorem text_of_readSpec {total : Nat} {key? : Option String} {s r : List Char} {c : Conversion}
    (h : readSpec total key? s = .ok (c, r)) :
    ∃ x : SpecText, x.width.head? ≠ some '0' ∧ s = x.text ++ r ∧ c = x.decode key? := by
  obtain ⟨ds?, hdigit, hprec, hread⟩ :=
    text_of_readPrecision ((s.dropWhile isFlag).dropWhile Char.isDigit)
  simp only [readSpec] at h
  split at h
  · cases h
  · split at h
    · cases h
    · next letter rest hsizes =>
      split at h
      · next kind hkind =>
        obtain ⟨rfl, rfl⟩ := Prod.mk.inj (Except.ok.inj h)
        -- The parts are the runs that were read.
        let x : SpecText :=
          { flags := s.takeWhile isFlag, width := (s.dropWhile isFlag).takeWhile Char.isDigit,
            precision? := ds?,
            sizes := (readPrecision ((s.dropWhile isFlag).dropWhile Char.isDigit)).2.takeWhile isSize,
            kind,
            flags_mem := fun c hc => isFlag_iff.mp (List.mem_takeWhile_imp hc)
            width_digit := fun c hc => List.mem_takeWhile_imp hc
            precision_digit := hdigit
            sizes_mem := fun c hc => isSize_iff.mp (List.mem_takeWhile_imp hc) }
        refine ⟨x, ?_, ?_, ?_⟩
        · exact head?_width s
        · have htail : x.tail ++ rest = (s.dropWhile isFlag).dropWhile Char.isDigit := by
            rw [hprec, ← List.takeWhile_append_dropWhile (p := isSize) (l := (readPrecision _).2),
              hsizes, ← Kind.letter_of_ofLetter? hkind]
            simp [x, SpecText.tail]
          have htext : x.text ++ rest = x.flags ++ (x.width ++ (x.tail ++ rest)) := by
            simp [SpecText.text]
          rw [htext, htail]
          simp only [x, List.takeWhile_append_dropWhile]
        · simp [x, SpecText.decode, Flags.ofChars, digits64?_eq, hread]
      · cases h

/-- **A conversion is read** as far as it goes, if it begins with its longest run of flags. -/
theorem readConversion_body (total : Nat) (x : ConversionText)
    (hzero : x.spec.width.head? ≠ some '0') (r : List Char) :
    readConversion total (x.body ++ r) = .ok (x.decode, r) := by
  cases hkey : x.key? with
  | none =>
    have hbody : x.body ++ r = x.spec.text ++ r := by rw [ConversionText.body, hkey]
    rw [hbody, readConversion, readSpec_text total none x.spec hzero r, ConversionText.decode, hkey]
    · rfl
    · -- Without a key there is no parenthesis in front.
      intro rest heq
      have hread := readSpec_text total none x.spec hzero r
      rw [heq] at hread
      cases hread
  | some k =>
    have hbody : x.body ++ r = '(' :: (k ++ ')' :: (x.spec.text ++ r)) := by
      rw [ConversionText.body, hkey]
      simp
    have hk : keyBody 0 (k ++ ')' :: (x.spec.text ++ r)) = some (k, x.spec.text ++ r) :=
      keyBody_eq_some_iff.mpr ⟨x.key_balanced k hkey, rfl⟩
    rw [hbody, readConversion, hk, ConversionText.decode, hkey]
    exact readSpec_text total (some (String.ofList k)) x.spec hzero r

/-- What is read as a conversion is one. -/
theorem text_of_readConversion {total : Nat} {s r : List Char} {c : Conversion}
    (h : readConversion total s = .ok (c, r)) :
    ∃ x : ConversionText, x.spec.width.head? ≠ some '0' ∧ s = x.body ++ r ∧ c = x.decode := by
  unfold readConversion at h
  split at h
  · next rest =>
    split at h
    · cases h
    · next k rest' hk =>
      obtain ⟨hbalanced, rfl⟩ := keyBody_eq_some_iff.mp hk
      obtain ⟨x, hzero, rfl, rfl⟩ := text_of_readSpec h
      let y : ConversionText :=
        { key? := some k, spec := x,
          key_balanced := by
            intro k' hk'
            obtain rfl := Option.mem_some_iff.mp hk'
            exact hbalanced }
      refine ⟨y, hzero, ?_, rfl⟩
      simp [y, ConversionText.body]
  · obtain ⟨x, hzero, rfl, rfl⟩ := text_of_readSpec h
    exact ⟨{ spec := x, key_balanced := by simp }, hzero, rfl, rfl⟩

/-! ## The longest run of flags -/

namespace SpecText

variable (x : SpecText)

/-- The same text, with the zeros in front of the width as flags. -/
def zerosAsFlags : SpecText :=
  { x with
    flags := x.flags ++ x.width.takeWhile (· = '0')
    width := x.width.dropWhile (· = '0')
    flags_mem := by
      intro c hc
      rcases List.mem_append.mp hc with hc | hc
      · exact x.flags_mem c hc
      · have hzero : c = '0' := by simpa using List.mem_takeWhile_imp hc
        simp [hzero]
    width_digit := fun c hc => x.width_digit c ((List.dropWhile_sublist _).mem hc) }

theorem text_zerosAsFlags : x.zerosAsFlags.text = x.text := by
  have htail : x.zerosAsFlags.tail = x.tail := rfl
  rw [text, text, htail, zerosAsFlags, List.append_assoc, ← List.append_assoc (List.takeWhile _ _),
    List.takeWhile_append_dropWhile]

theorem head_zerosAsFlags : x.zerosAsFlags.width.head? ≠ some '0' := by
  intro hzero
  exact absurd (head?_dropWhile (p := (· = '0')) (s := x.width) _ hzero) (by decide)

/-- What comes after a key does not begin with a parenthesis. -/
theorem text_ne_cons {rest : List Char} : x.text ≠ '(' :: rest := by
  intro heq
  have hread := readSpec_text 0 none x.zerosAsFlags x.head_zerosAsFlags []
  rw [text_zerosAsFlags, heq] at hread
  cases hread

end SpecText

namespace ConversionText

variable {x y : ConversionText}

/-- The same text, with the zeros in front of the width as flags. -/
def zerosAsFlags (x : ConversionText) : ConversionText := { x with spec := x.spec.zerosAsFlags }

theorem text_zerosAsFlags (x : ConversionText) : x.zerosAsFlags.text = x.text := by
  rw [text, text, body, body, zerosAsFlags, x.spec.text_zerosAsFlags]

/-- The text of a conversion says where its key ends. -/
theorem spec_text_eq (h : y.text = x.text) : y.spec.text = x.spec.text := by
  have hbody : y.body = x.body := (List.cons.inj h).2
  rw [body, body] at hbody
  cases hx : x.key? with
  | none =>
    cases hy : y.key? with
    | none => simpa [hx, hy] using hbody
    -- The text behind the mark begins with a parenthesis only if there is a key.
    | some k => exact absurd (by simpa [hx, hy] using hbody.symm) x.spec.text_ne_cons
  | some k =>
    cases hy : y.key? with
    | none => exact absurd (by simpa [hx, hy] using hbody) y.spec.text_ne_cons
    | some k' =>
      simp only [hx, hy, List.cons.injEq, true_and] at hbody
      -- A key ends at the parenthesis that closes its first one, and there is one such place.
      have hkey := keyBody_eq_some_iff.mpr ⟨x.key_balanced k hx, rfl (a := k ++ ')' :: x.spec.text)⟩
      have hkey' := keyBody_eq_some_iff.mpr
        ⟨y.key_balanced k' hy, rfl (a := k' ++ ')' :: y.spec.text)⟩
      rw [hbody, hkey] at hkey'
      simp only [Option.some.injEq, Prod.mk.injEq] at hkey'
      exact hkey'.2.symm

/-- **The longest run of flags** is the one that no zero follows. -/
theorem longestFlags_iff : x.LongestFlags ↔ x.spec.width.head? ≠ some '0' := by
  constructor
  · intro hlongest hzero
    -- A zero that begins the width can be written as a flag, which is one flag more.
    have hle := hlongest x.zerosAsFlags x.text_zerosAsFlags
    cases hwidth : x.spec.width with
    | nil => simp [hwidth] at hzero
    | cons d ds =>
      obtain rfl : d = '0' := by simpa [hwidth] using hzero
      simp only [zerosAsFlags, SpecText.zerosAsFlags, hwidth, List.takeWhile_cons, decide_true, if_true,
        List.length_append, List.length_cons] at hle
      omega
  · intro hzero y htext
    -- The flags are all that the text begins with, so no reading of it has more.
    have hx : x.spec.text.takeWhile isFlag = x.spec.flags :=
      (span_append x.spec.isFlag_of_mem fun c hc => by
        refine (x.spec.head_width hzero [] ?_).1
        rwa [List.append_nil]).1
    have hy : y.spec.text.takeWhile isFlag = y.spec.flags ++ _ :=
      List.takeWhile_append_of_pos y.spec.isFlag_of_mem
    rw [← hx, ← spec_text_eq htext, hy, List.length_append]
    exact Nat.le_add_right _ _

end ConversionText

end Logbook.Template
