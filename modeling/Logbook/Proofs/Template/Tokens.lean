import Logbook.Proofs.Template.Conversions
import Logbook.Proofs.Template.Merging

/-! # Reading a template token by token

    A template is read exactly if it is a sequence of tokens, and then as what the tokens
    stand for.  In particular pieces are read back from their canonical text.
-/

namespace Logbook.Template

/-! ## Reading tokens -/

/-- A text is made of tokens that stand for given segments. -/
def Tokenizes (s : List Char) (segs : List (Segment Conversion)) : Prop :=
  ∃ tokens : List Token, s = tokens.flatMap Token.text ∧ LongestRuns tokens ∧
    segs = tokens.map Token.segment

namespace Tokenizes

variable {s : List Char} {segs : List (Segment Conversion)}

theorem nil : Tokenizes [] [] := by
  refine ⟨[], rfl, ?_, rfl⟩
  intro x hx
  cases hx

theorem cons (token : Token) (hlongest : ∀ x, token = .conversion x → x.LongestFlags)
    (h : Tokenizes s segs) : Tokenizes (token.text ++ s) (token.segment :: segs) := by
  obtain ⟨tokens, rfl, hruns, rfl⟩ := h
  refine ⟨token :: tokens, rfl, ?_, rfl⟩
  intro x hx
  rcases List.mem_cons.mp hx with heq | hx
  · exact hlongest x heq.symm
  · exact hruns x hx

theorem percent (h : Tokenizes s segs) : Tokenizes ('%' :: '%' :: s) (.char '%' :: segs) :=
  h.cons .percent fun _ heq => by cases heq

theorem plain {c : Char} (hc : c ≠ '%') (h : Tokenizes s segs) :
    Tokenizes (c :: s) (.char c :: segs) :=
  h.cons (.plain c hc) fun _ heq => by cases heq

theorem conversion {x : ConversionText} (hx : x.LongestFlags) (h : Tokenizes s segs) :
    Tokenizes (x.text ++ s) (.field x.decode :: segs) :=
  h.cons (.conversion x) fun _ heq => Token.conversion.inj heq ▸ hx

end Tokenizes

theorem Token.percentSegments_append (total : Nat) (token : Token)
    (hlongest : ∀ x, token = .conversion x → x.LongestFlags) (s : List Char) :
    percentSegments total (token.text ++ s) = (percentSegments total s).map (token.segment :: ·) := by
  cases token with
  | plain c hc =>
    rw [text, List.singleton_append, percentSegments]
    · rfl
    · exact fun _ heq => absurd heq hc
    · exact fun heq => absurd heq hc
  | percent =>
    rw [text, List.cons_append, List.singleton_append, percentSegments]
    rfl
  | conversion x =>
    -- With the longest run of flags the reader takes the conversion as the token has it.
    have hread := readConversion_body total x
      (ConversionText.longestFlags_iff.mp (hlongest x rfl)) s
    rw [text, ConversionText.text, List.cons_append, percentSegments]
    · split
      · next heq =>
        rw [hread] at heq
        cases heq
      · next heq =>
        rw [hread] at heq
        cases heq
        rfl
    · -- No conversion begins with a percent sign.
      intro rest heq
      rw [heq] at hread
      cases hread

/-- A template that is read is made of the tokens that it is read as. -/
theorem tokenizes_of_percentSegments {total : Nat} {s : List Char}
    {segs : List (Segment Conversion)} (h : percentSegments total s = .ok segs) :
    Tokenizes s segs := by
  induction s using percentSegments.induct total generalizing segs with
  | case1 =>
    rw [percentSegments] at h
    obtain rfl := Except.ok.inj h
    exact .nil
  | case2 rest ih =>
    rw [percentSegments] at h
    obtain ⟨segs', hrest, rfl⟩ := map_eq_ok_iff.mp h
    exact (ih hrest).percent
  -- A fault of the reader is no list of segments.
  | case3 rest hne f hread =>
    rw [percentSegments.eq_3 _ _ hne] at h
    split at h
    · cases h
    · next heq =>
      rw [hread] at heq
      cases heq
  | case4 rest hne c rest' hread ih =>
    rw [percentSegments.eq_3 _ _ hne] at h
    split at h
    · cases h
    · next heq =>
      rw [hread] at heq
      cases heq
      obtain ⟨segs', hrest, rfl⟩ := map_eq_ok_iff.mp h
      obtain ⟨x, hzero, rfl, rfl⟩ := text_of_readConversion hread
      exact (ih hrest).conversion (ConversionText.longestFlags_iff.mpr hzero)
  | case5 c rest hne hc ih =>
    rw [percentSegments.eq_4 _ _ _ hne hc] at h
    obtain ⟨segs', hrest, rfl⟩ := map_eq_ok_iff.mp h
    exact (ih hrest).plain hc

/-- A sequence of tokens with the longest runs of flags is read as far as it goes. -/
theorem LongestRuns.percentSegments_append {tokens : List Token} (h : LongestRuns tokens)
    (total : Nat) (s : List Char) :
    percentSegments total (tokens.flatMap Token.text ++ s) =
      (percentSegments total s).map (tokens.map Token.segment ++ ·) := by
  refine read_flatMap ?_ s
  intro token htoken s
  exact token.percentSegments_append total (fun x heq => h x (heq ▸ htoken)) s

/-- **A template is read as its tokens.** -/
theorem percentSegments_eq_ok_iff {total : Nat} {s : List Char} {segs : List (Segment Conversion)} :
    percentSegments total s = .ok segs ↔ Tokenizes s segs := by
  constructor
  · exact tokenizes_of_percentSegments
  · rintro ⟨tokens, rfl, hruns, rfl⟩
    have hread := hruns.percentSegments_append total []
    rw [List.append_nil, percentSegments] at hread
    rw [hread, Except.map, List.append_nil]

/-- The same token with its longest run of flags. -/
def Token.zerosAsFlags : Token → Token
  | conversion x => .conversion x.zerosAsFlags
  | token => token

/-- Every sequence of tokens has a form in which each run of flags is the longest. -/
theorem exists_longestRuns (tokens : List Token) :
    ∃ tokens', LongestRuns tokens' ∧ tokens'.flatMap Token.text = tokens.flatMap Token.text := by
  -- A zero in front of a width is read as a flag; the text is the same.
  refine ⟨tokens.map Token.zerosAsFlags, ?_, ?_⟩
  · intro x hx
    obtain ⟨token, -, htoken⟩ := List.mem_map.mp hx
    cases token with
    | plain c hc => cases htoken
    | percent => cases htoken
    | conversion y =>
      obtain rfl := Token.conversion.inj htoken
      exact ConversionText.longestFlags_iff.mpr y.spec.head_zerosAsFlags
  · rw [List.flatMap_map]
    congr 1
    funext token
    cases token with
    | plain c hc => rfl
    | percent => rfl
    | conversion x => exact x.text_zerosAsFlags

/-! ## Reading templates -/

/-- Pieces are what tokens stand for, in order, with neighbouring literals merged. -/
def Represents (tokens : List Token) (ps : List (Piece Conversion)) : Prop :=
  Merged ps ∧ ps.flatMap Piece.segments = tokens.map Token.segment

/-- A template is read exactly as its tokens with the longest runs of flags. -/
theorem percentPieces_eq_ok_iff {t : String} {ps : List (Piece Conversion)} :
    percentPieces t = .ok ps ↔
      ∃ tokens : List Token, t.toList = tokens.flatMap Token.text ∧ LongestRuns tokens ∧
        Represents tokens ps := by
  rw [percentPieces, map_merge_eq_ok_iff, percentSegments_eq_ok_iff]
  constructor
  · rintro ⟨hmerged, tokens, htext, hruns, hsegs⟩
    exact ⟨tokens, htext, hruns, hmerged, hsegs⟩
  · rintro ⟨tokens, htext, hruns, hmerged, hsegs⟩
    exact ⟨hmerged, tokens, htext, hruns, hsegs⟩

/-! ## Canonical texts -/

/-- The characters of the flags that are set. -/
def Flags.chars (f : Flags) : List Char :=
  (if f.left then ['-'] else []) ++ ((if f.zero then ['0'] else []) ++
    ((if f.plus then ['+'] else []) ++ ((if f.space then [' '] else []) ++
      (if f.alt then ['#'] else []))))

namespace Conversion

/-- A conversion that a template can say: its key is balanced, its width is not zero, and
    its numbers are below `2 ^ 64`. -/
structure Printable (c : Conversion) : Prop where
  key : ∀ k ∈ c.key?, Balanced k.toList
  width : ∀ w ∈ c.width?, 1 ≤ w ∧ w < 2 ^ 64
  precision : ∀ p ∈ c.precision?, p < 2 ^ 64

/-- The canonical text of a conversion. -/
def printed (c : Conversion) : List Char :=
  '%' :: (c.key?.elim [] (fun k => '(' :: (k.toList ++ [')'])) ++ (c.flags.chars ++
    (c.width?.elim [] (Nat.toDigits 10) ++
      (c.precision?.elim [] (fun p => '.' :: Nat.toDigits 10 p) ++ [c.kind.letter]))))

end Conversion

/-- The canonical text of a piece: a percent sign of a literal is written twice. -/
def Piece.printed : Piece Conversion → List Char
  | literal text => text.flatMap fun c => if c = '%' then ['%', '%'] else [c]
  | field c => c.printed

theorem number?_toDigits {n : Nat} (h : n < 2 ^ 64) : number? (Nat.toDigits 10 n) = some n := by
  rw [number?, Nat.ofDigitChars_ten_toDigits, if_pos ⟨Nat.toDigits_ne_nil, h⟩]

/-- A number other than zero is written without a zero in front. -/
theorem head?_toDigits {n : Nat} (h : 1 ≤ n) : (Nat.toDigits 10 n).head? ≠ some '0' := by
  induction n using Nat.strong_induction_on with
  | h n ih =>
    by_cases hlt : n < 10
    · have hdigit : ∀ m < 10, 1 ≤ m → [Nat.digitChar m].head? ≠ some '0' := by decide
      rw [Nat.toDigits_of_lt_base hlt]
      exact hdigit n hlt h
    · rw [Nat.toDigits_of_base_le (by decide) (by omega),
        List.head?_append_of_ne_nil _ Nat.toDigits_ne_nil]
      exact ih (n / 10) (by omega) (by omega)

/-! ### Numbers that may be absent -/

section

variable {n? : Option Nat}

theorem isDigit_of_mem_decimal {c : Char} (hc : c ∈ n?.elim [] (Nat.toDigits 10)) :
    c.isDigit = true := by
  cases n? with
  | none => cases hc
  | some n => exact Nat.isDigit_of_mem_toDigits (by decide) (by decide) hc

theorem number?_decimal (h : ∀ n ∈ n?, n < 2 ^ 64) : number? (n?.elim [] (Nat.toDigits 10)) = n? := by
  cases n? with
  | none => rfl
  | some n => exact number?_toDigits (h n rfl)

theorem head?_decimal (h : ∀ n ∈ n?, 1 ≤ n) : (n?.elim [] (Nat.toDigits 10)).head? ≠ some '0' := by
  cases n? with
  | none => simp
  | some n => exact head?_toDigits (h n rfl)

end

/-! ### Conversions -/

theorem Flags.mem_chars {f : Flags} {c : Char} :
    c ∈ f.chars ↔ (c = '-' ∧ f.left) ∨ (c = '0' ∧ f.zero) ∨ (c = '+' ∧ f.plus) ∨
      (c = ' ' ∧ f.space) ∨ (c = '#' ∧ f.alt) := by
  have hif : ∀ (b : Bool) (d : Char), c ∈ (if b then [d] else []) ↔ c = d ∧ b = true := by
    intro b d
    cases b <;> simp
  simp only [chars, List.mem_append, hif]

/-- The parts of the canonical text of a conversion. -/
def Conversion.Printable.text {c : Conversion} (h : c.Printable) : ConversionText where
  key? := c.key?.map String.toList
  spec :=
    { flags := c.flags.chars
      width := c.width?.elim [] (Nat.toDigits 10)
      precision? := c.precision?.map (Nat.toDigits 10)
      kind := c.kind
      flags_mem := by
        intro d hd
        rw [Flags.mem_chars] at hd
        rcases hd with ⟨rfl, -⟩ | ⟨rfl, -⟩ | ⟨rfl, -⟩ | ⟨rfl, -⟩ | ⟨rfl, -⟩ <;> decide
      width_digit := fun _ hd => isDigit_of_mem_decimal hd
      precision_digit := by
        intro ds hds d hd
        obtain ⟨p, -, rfl⟩ := Option.map_eq_some_iff.mp hds
        exact Nat.isDigit_of_mem_toDigits (by decide) (by decide) hd
      sizes_mem := by simp }
  key_balanced := by
    intro s hs
    obtain ⟨k, hk, rfl⟩ := Option.map_eq_some_iff.mp hs
    exact h.key k hk

namespace Conversion.Printable

variable {c : Conversion} (h : c.Printable)

theorem text_text : h.text.text = c.printed := by
  have hspec : h.text.spec.text = c.flags.chars ++ (c.width?.elim [] (Nat.toDigits 10) ++
      (c.precision?.elim [] (fun p => '.' :: Nat.toDigits 10 p) ++ [c.kind.letter])) := by
    cases hp : c.precision? <;> simp [text, SpecText.text, SpecText.tail, precisionText, hp]
  rw [ConversionText.text, ConversionText.body, hspec, printed]
  cases hk : c.key? <;> simp [text, hk]

theorem decode_text : h.text.decode = c := by
  have hkey : (c.key?.map String.toList).map String.ofList = c.key? := by
    cases c.key? <;> simp
  have hwidth : number? (c.width?.elim [] (Nat.toDigits 10)) = c.width? :=
    number?_decimal fun w hw => (h.width w hw).2
  have hprecision : (c.precision?.map (Nat.toDigits 10)).map (fun ds => (number? ds).getD 0) =
      c.precision? := by
    cases hp : c.precision? with
    | none => rfl
    | some p => simp [number?_toDigits (h.precision p hp)]
  rw [ConversionText.decode, SpecText.decode]
  simp only [text, hkey, hwidth, hprecision, Flags.mem_chars]
  simp

theorem longestFlags_text : h.text.LongestFlags :=
  ConversionText.longestFlags_iff.mpr (head?_decimal fun w hw => (h.width w hw).1)

end Conversion.Printable

/-- The canonical text of a literal is made of tokens for its characters. -/
theorem Tokenizes.literal {s : List Char} {segs : List (Segment Conversion)} (h : Tokenizes s segs)
    (text : List Char) :
    Tokenizes ((Piece.literal text).printed ++ s) ((Piece.literal text).segments ++ segs) := by
  rw [Piece.printed, Piece.segments]
  induction text with
  | nil => exact h
  | cons c text ih =>
    rw [List.flatMap_cons, List.append_assoc, List.map_cons, List.cons_append]
    by_cases hc : c = '%'
    · subst hc
      exact ih.percent
    · rw [if_neg hc]
      exact ih.plain hc

/-- Canonical texts are made of tokens for the pieces that they print. -/
theorem tokenizes_printed {ps : List (Piece Conversion)}
    (h : ∀ c, .field c ∈ ps → c.Printable) :
    Tokenizes (ps.flatMap Piece.printed) (ps.flatMap Piece.segments) := by
  induction ps with
  | nil => exact .nil
  | cons p ps ih =>
    have hps := ih fun c hc => h c (List.mem_cons_of_mem _ hc)
    rw [List.flatMap_cons, List.flatMap_cons]
    cases p with
    | literal text => exact hps.literal text
    | field c =>
      have hc := h c List.mem_cons_self
      have htokens := hps.conversion hc.longestFlags_text
      rwa [hc.decode_text, hc.text_text] at htokens

/-- **The grammar of percent templates.**  A template is read if it is a sequence of tokens,
    and not otherwise.  The pieces are then what the tokens with the longest runs of flags
    stand for, in order, with neighbouring literals merged and no empty literal.  So the
    canonical text of pieces is read as these pieces up to the merging of literals. -/
theorem percentPieces_grammar :
    (∀ t : String,
      ((∃ ps, percentPieces t = .ok ps) ↔
        ∃ tokens : List Token, t.toList = tokens.flatMap Token.text) ∧
      ∀ ps, percentPieces t = .ok ps ↔
        ∃ tokens : List Token, t.toList = tokens.flatMap Token.text ∧ LongestRuns tokens ∧
          Represents tokens ps) ∧
    ∀ ps : List (Piece Conversion), (∀ c, .field c ∈ ps → c.Printable) →
      ∃ qs, percentPieces (String.ofList (ps.flatMap Piece.printed)) = .ok qs ∧ Merged qs ∧
        qs.flatMap Piece.segments = ps.flatMap Piece.segments ∧ (Merged ps → qs = ps) := by
  refine ⟨?_, ?_⟩
  · intro t
    refine ⟨⟨?_, ?_⟩, fun ps => percentPieces_eq_ok_iff⟩
    · rintro ⟨ps, hps⟩
      obtain ⟨tokens, htext, -⟩ := percentPieces_eq_ok_iff.mp hps
      exact ⟨tokens, htext⟩
    · -- Any tokens give the text, but only those with the longest runs are read.
      rintro ⟨tokens, htext⟩
      obtain ⟨tokens', hruns, htext'⟩ := exists_longestRuns tokens
      exact ⟨merge (tokens'.map Token.segment), percentPieces_eq_ok_iff.mpr
        ⟨tokens', htext.trans htext'.symm, hruns, eq_merge_iff.mp rfl⟩⟩
  · intro ps hps
    obtain ⟨tokens, htext, hruns, hsegs⟩ := tokenizes_printed hps
    refine ⟨merge (ps.flatMap Piece.segments), ?_, merged_merge _, segments_merge _, merge_segments⟩
    rw [percentPieces_eq_ok_iff]
    refine ⟨tokens, ?_, hruns, ?_⟩
    · rw [String.toList_ofList, htext]
    · exact eq_merge_iff.mp (congrArg merge hsegs)

/-- A percent sign in a literal, a key with parentheses, and a zero as a flag in front of a
    width. -/
theorem percentPieces_grammar_balanced_key :
    percentPieces "100%%%(f(x))-08.3f" =
      .ok [.literal "100%".toList,
        .field { key? := some "f(x)", flags := { left := true, zero := true }, width? := some 8,
                 precision? := some 3, kind := .f }] := by
  obtain ⟨qs, hread, -, -, heq⟩ := percentPieces_grammar.2
    [.literal "100%".toList,
      .field { key? := some "f(x)", flags := { left := true, zero := true }, width? := some 8,
               precision? := some 3, kind := .f }] (by
    intro c hc
    obtain rfl : c = _ := by simpa using hc
    exact ⟨by decide, by decide, by decide⟩)
  rw [heq ⟨by decide, by decide⟩] at hread
  exact hread

end Logbook.Template
