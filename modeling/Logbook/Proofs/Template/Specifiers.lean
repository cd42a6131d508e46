import Logbook.Proofs.Template.BraceGrammar
import Logbook.Proofs.Template.Conversions

/-! # Reading a specifier

    The parts of a specifier are read one after the other.  Each part ends where a
    character stands that cannot continue it, because no sign of an alignment is a sign
    option, no sign option a digit, and no digit a point or a letter.  So what is written
    is read, and what is read is written there.
-/

namespace Logbook.Template

theorem Align.ofChar?_char (a : Align) : ofChar? a.char = some a := ofChar?_eq_some_iff.mpr rfl

theorem SignOption.ofChar?_char (o : SignOption) : ofChar? o.char = some o :=
  ofChar?_eq_some_iff.mpr rfl

theorem FieldKind.ofChar?_letter (k : FieldKind) : ofChar? k.letter = some k :=
  ofChar?_eq_some_iff.mpr rfl

/-! ## What is written is read -/

namespace SpecifierText

variable (x : SpecifierText) {c : Char}

/-! ### Characters of the parts -/

theorem mem_tail (hc : c ∈ x.tail) : c.isDigit = true ∨ c = '.' ∨ ∃ k : FieldKind, k.letter = c := by
  rw [tail, List.mem_append] at hc
  rcases hc with hprec | hkind
  · cases hp : x.precision? with
    | none => simp [hp, precisionText] at hprec
    | some ds =>
      rw [hp, precisionText, List.mem_cons] at hprec
      rcases hprec with rfl | hds
      · exact .inr (.inl rfl)
      · exact .inl ((x.precision_digit ds hp).2 c hds)
  · cases hk : x.kind? with
    | none => simp [hk] at hkind
    | some k =>
      obtain rfl : c = k.letter := by simpa [hk] using hkind
      exact .inr (.inr ⟨k, rfl⟩)

theorem mem_measures (hc : c ∈ x.measures) :
    c.isDigit = true ∨ c = '.' ∨ ∃ k : FieldKind, k.letter = c := by
  rw [measures, List.mem_append, List.mem_append] at hc
  rcases hc with hzero | hwidth | htail
  · split at hzero
    · obtain rfl := List.mem_singleton.mp hzero
      exact .inl rfl
    · cases hzero
  · exact .inl (x.width_digit c hwidth)
  · exact x.mem_tail htail

/-- No sign option stands among the digits, the point and the letter. -/
theorem ofChar?_measures (hc : c ∈ x.measures) : SignOption.ofChar? c = none := by
  rw [Option.eq_none_iff_forall_not_mem]
  intro o ho
  obtain rfl := SignOption.ofChar?_eq_some_iff.mp ho
  rcases x.mem_measures hc with hdigit | hpoint | ⟨k, hk⟩
  · cases o <;> exact absurd hdigit (by decide)
  · cases o <;> exact absurd hpoint (by decide)
  · cases o <;> cases k <;> exact absurd hk (by decide)

/-- No sign of an alignment stands behind the alignment. -/
theorem ofChar?_unaligned (hc : c ∈ x.unaligned) : Align.ofChar? c = none := by
  rw [Option.eq_none_iff_forall_not_mem]
  intro a ha
  obtain rfl := Align.ofChar?_eq_some_iff.mp ha
  rw [unaligned, List.mem_append] at hc
  rcases hc with hsign | hmeasures
  · cases hs : x.sign? with
    | none => simp [hs] at hsign
    | some o =>
      have hchar : a.char = o.char := by simpa [hs] using hsign
      cases a <;> cases o <;> exact absurd hchar (by decide)
  · rcases x.mem_measures hmeasures with hdigit | hpoint | ⟨k, hk⟩
    · cases a <;> exact absurd hdigit (by decide)
    · cases a <;> exact absurd hpoint (by decide)
    · cases a <;> cases k <;> exact absurd hk (by decide)

/-- A point or a letter comes where no digit can stand. -/
theorem isDigit_head_kind (hc : c ∈ (x.kind?.elim [] fun k => [k.letter]).head?) :
    c.isDigit = false := by
  cases hk : x.kind? with
  | none => simp [hk] at hc
  | some k =>
    obtain rfl : k.letter = c := by simpa [hk] using hc
    cases k <;> decide

theorem isDigit_head_tail (hc : c ∈ x.tail.head?) : c.isDigit = false := by
  cases hp : x.precision? with
  | none => exact x.isDigit_head_kind (by simpa [tail, hp, precisionText] using hc)
  | some ds =>
    obtain rfl : '.' = c := by simpa [tail, hp, precisionText] using hc
    decide

/-! ### Reading the parts -/

/-- Where no sign of an alignment stands, there is no alignment. -/
theorem readAlign_of_forall {s : List Char} (h : ∀ c ∈ s, Align.ofChar? c = none) :
    readAlign s = (' ', none, s) := by
  fun_cases readAlign s with
  | case1 => rfl
  | case2 c a ha => simp [h c] at ha
  | case3 => rfl
  | case4 c d rest a ha => simp [h d] at ha
  | case5 c d rest _ a ha => simp [h c] at ha
  | case6 => rfl

theorem readAlign_text : readAlign x.text = (x.align.fill, x.align.align?, x.unaligned) := by
  have hplain : ∀ c ∈ x.unaligned, Align.ofChar? c = none := fun c hc => x.ofChar?_unaligned hc
  rw [text]
  cases x.align with
  | absent => exact readAlign_of_forall hplain
  | bare a =>
    show readAlign (a.char :: x.unaligned) = _
    cases hrest : x.unaligned with
    | nil => simp [readAlign, a.ofChar?_char, AlignText.fill, AlignText.align?]
    | cons d rest =>
      have hd : Align.ofChar? d = none := hplain d (by simp [hrest])
      simp [readAlign, hd, a.ofChar?_char, AlignText.fill, AlignText.align?]
  | filled fill a h =>
    show readAlign (fill :: a.char :: x.unaligned) = _
    simp [readAlign, a.ofChar?_char, AlignText.fill, AlignText.align?]

theorem readSign_unaligned : readSign x.unaligned = (x.sign?, x.measures) := by
  rw [unaligned]
  cases x.sign? with
  | none =>
    show readSign x.measures = _
    cases hrest : x.measures with
    | nil => rfl
    | cons c rest =>
      have hc : SignOption.ofChar? c = none := x.ofChar?_measures (by simp [hrest])
      rw [readSign, hc]
  | some o =>
    show readSign (o.char :: x.measures) = _
    rw [readSign, o.ofChar?_char]

theorem readZero_measures (hzero : x.ZeroIsFlag) :
    readZero x.measures = (x.zero, x.width ++ x.tail) := by
  rw [measures]
  cases hz : x.zero with
  | true => rfl
  | false =>
    show readZero (x.width ++ x.tail) = _
    -- Without the flag no zero comes next: neither as a digit of the width nor behind it.
    have hhead : (x.width ++ x.tail).head? ≠ some '0' := by
      cases hwidth : x.width with
      | nil => exact fun h => absurd (x.isDigit_head_tail h) (by decide)
      | cons d ds =>
        have hd := hzero hz
        rw [hwidth] at hd
        exact hd
    unfold readZero
    split
    · next heq => exact absurd (congrArg List.head? heq) hhead
    · rfl

theorem readFieldPrecision_tail :
    readFieldPrecision x.tail =
      .ok (x.precision?.bind number?, x.kind?.elim [] fun k => [k.letter]) := by
  rw [tail]
  cases hp : x.precision? with
  | none =>
    cases x.kind? with
    | none => rfl
    | some k => cases k <;> rfl
  | some ds =>
    obtain ⟨hne, hdigit⟩ := x.precision_digit ds hp
    obtain ⟨htake, hdrop⟩ := span_append hdigit fun c hc => x.isDigit_head_kind hc
    show readFieldPrecision ('.' :: (ds ++ _)) = _
    rw [readFieldPrecision, htake, hdrop, digits64?_eq, if_neg (by simpa using hne)]
    rfl

theorem readFieldKind_letter :
    readFieldKind (x.kind?.elim [] fun k => [k.letter]) = (x.kind?, []) := by
  cases x.kind? with
  | none => rfl
  | some k =>
    show readFieldKind [k.letter] = _
    rw [readFieldKind, k.ofChar?_letter]

/-- **A specifier is read**, if a zero in front of its width is the zero flag. -/
theorem readFieldSpec_text (hzero : x.ZeroIsFlag) : readFieldSpec x.text = .ok x.decode := by
  obtain ⟨hwidth, htail⟩ := span_append (p := Char.isDigit) x.width_digit
    fun c hc => x.isDigit_head_tail hc
  simp only [readFieldSpec, x.readAlign_text, x.readSign_unaligned, x.readZero_measures hzero,
    hwidth, htail, x.readFieldPrecision_tail, x.readFieldKind_letter, digits64?_eq]
  rfl

end SpecifierText

/-! ## What is read is written -/

/-- A fill and an alignment that are read stand in front of what is left. -/
theorem text_of_readAlign {s : List Char} (hopen : '\x7b' ∉ s) (hclose : '\x7d' ∉ s) :
    ∃ a : AlignText, s = a.text ++ (readAlign s).2.2 ∧ a.fill = (readAlign s).1 ∧
      a.align? = (readAlign s).2.1 := by
  fun_cases readAlign s with
  | case1 => exact ⟨.absent, rfl, rfl, rfl⟩
  | case2 c a ha =>
    obtain rfl := Align.ofChar?_eq_some_iff.mp ha
    exact ⟨.bare a, rfl, rfl, rfl⟩
  | case3 c _ => exact ⟨.absent, rfl, rfl, rfl⟩
  | case4 c d rest a ha =>
    obtain rfl := Align.ofChar?_eq_some_iff.mp ha
    have hfill : c ≠ '\x7b' ∧ c ≠ '\x7d' := by
      constructor
      · rintro rfl
        exact hopen List.mem_cons_self
      · rintro rfl
        exact hclose List.mem_cons_self
    exact ⟨.filled c a hfill, rfl, rfl, rfl⟩
  | case5 c d rest _ a ha =>
    obtain rfl := Align.ofChar?_eq_some_iff.mp ha
    exact ⟨.bare a, rfl, rfl, rfl⟩
  | case6 c d rest _ _ => exact ⟨.absent, rfl, rfl, rfl⟩

theorem text_of_readSign (s : List Char) :
    s = ((readSign s).1.elim [] fun o => [o.char]) ++ (readSign s).2 := by
  fun_cases readSign s with
  | case1 => rfl
  | case2 c rest o ho =>
    obtain rfl := SignOption.ofChar?_eq_some_iff.mp ho
    rfl
  | case3 => rfl

/-- After the zero flag has been looked for, a zero comes next only if there is the flag. -/
theorem text_of_readZero (s : List Char) :
    s = (if (readZero s).1 then ['0'] else []) ++ (readZero s).2 ∧
      ((readZero s).1 = false → (readZero s).2.head? ≠ some '0') := by
  fun_cases readZero s with
  | case1 rest => exact ⟨rfl, by simp⟩
  | case2 s hne =>
    refine ⟨rfl, ?_⟩
    intro _ hzero
    obtain ⟨rest, rfl⟩ := List.head?_eq_some_iff.mp hzero
    exact hne rest rfl

theorem text_of_readFieldPrecision {s r : List Char} {p? : Option Nat}
    (h : readFieldPrecision s = .ok (p?, r)) :
    ∃ ds? : Option (List Char), (∀ ds ∈ ds?, ds ≠ [] ∧ ∀ c ∈ ds, c.isDigit) ∧
      s = precisionText ds? ++ r ∧ p? = ds?.bind number? := by
  fun_cases readFieldPrecision s with
  | case1 rest ds hds =>
    rw [readFieldPrecision, if_pos hds] at h
    cases h
  | case2 rest ds hds =>
    rw [readFieldPrecision, if_neg hds] at h
    obtain ⟨rfl, rfl⟩ := Prod.mk.inj (Except.ok.inj h)
    refine ⟨some ds, ?_, ?_, ?_⟩
    · intro ds' hds'
      obtain rfl := Option.mem_some_iff.mp hds'
      exact ⟨by simpa using hds, fun c hc => List.mem_takeWhile_imp hc⟩
    · rw [precisionText, List.cons_append, List.takeWhile_append_dropWhile]
    · rw [digits64?_eq]
      rfl
  | case3 s hne =>
    rw [readFieldPrecision] at h
    · obtain ⟨rfl, rfl⟩ := Prod.mk.inj (Except.ok.inj h)
      exact ⟨none, by simp, rfl, rfl⟩
    · exact hne

theorem text_of_readFieldKind (s : List Char) :
    s = ((readFieldKind s).1.elim [] fun k => [k.letter]) ++ (readFieldKind s).2 := by
  fun_cases readFieldKind s with
  | case1 => rfl
  | case2 c rest k hk =>
    obtain rfl := FieldKind.ofChar?_eq_some_iff.mp hk
    rfl
  | case3 => rfl

/-- **What is read as a specifier is one**, as long as no brace is in it. -/
theorem text_of_readFieldSpec {s : List Char} {spec : FieldSpec} (hopen : '\x7b' ∉ s)
    (hclose : '\x7d' ∉ s) (h : readFieldSpec s = .ok spec) :
    ∃ x : SpecifierText, x.ZeroIsFlag ∧ s = x.text ∧ spec = x.decode := by
  obtain ⟨align, halign, hfill, halign?⟩ := text_of_readAlign hopen hclose
  have hsign := text_of_readSign (readAlign s).2.2
  obtain ⟨hzero, hnozero⟩ := text_of_readZero (readSign (readAlign s).2.2).2
  simp only [readFieldSpec] at h
  -- What is left after each step is named by the step.
  generalize hunaligned : (readAlign s).2.2 = unaligned at *
  generalize hmeasures : (readSign unaligned).2 = measures at *
  generalize hrest : (readZero measures).2 = rest at *
  split at h
  · cases h
  · next p? r hprec =>
    obtain ⟨ds?, hdigit, hprecision, rfl⟩ := text_of_readFieldPrecision hprec
    have hkind := text_of_readFieldKind r
    split at h
    · next hend =>
      have hnil : (readFieldKind r).2 = [] := by simpa using hend
      rw [hnil, List.append_nil] at hkind
      let x : SpecifierText :=
        { align, sign? := (readSign unaligned).1, zero := (readZero measures).1,
          width := rest.takeWhile Char.isDigit, precision? := ds?, kind? := (readFieldKind r).1,
          width_digit := fun c hc => List.mem_takeWhile_imp hc
          precision_digit := hdigit }
      refine ⟨x, ?_, ?_, ?_⟩
      · intro hflag hhead
        refine hnozero hflag ?_
        cases rest with
        | nil => simp [x] at hhead
        | cons d ds =>
          by_cases hd : d.isDigit = true
          · simpa [x, hd] using hhead
          · simp [x, hd] at hhead
      · have htail : x.tail = rest.dropWhile Char.isDigit := by
          rw [hprecision, hkind]
          rfl
        rw [halign, hsign, hzero, SpecifierText.text, SpecifierText.unaligned,
          SpecifierText.measures, htail, List.takeWhile_append_dropWhile]
      · rw [← Except.ok.inj h, SpecifierText.decode, hfill, halign?, digits64?_eq]
    · cases h

end Logbook.Template
