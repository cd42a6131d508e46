import Logbook.Proofs.Names
import Logbook.Proofs.Template.Placeholders
import Logbook.Proofs.Template.Tokens

/-! # Occurrences of a mark in a template

    A mark is a text that begins as fields begin: with a percent sign, a brace or a dollar
    sign.  Where a mark occurs in a template, it either begins in a token that the mark fits,
    or it begins with the second sign of an escape, and then it is read as the text that it
    is.  The first happens at a field of the name in the mark and at few others, which are
    determined here for each style.
-/

namespace Logbook

/-! ## Texts in texts -/

/-- One text occurs in another, as lists. -/
theorem Style.occurs_iff {part s : List Char} : Style.occurs part s = true ↔ part <:+: s := by
  induction s with
  | nil => simp [Style.occurs, List.isEmpty_iff]
  | cons c rest ih =>
    rw [Style.occurs, Bool.or_eq_true, startsWith_iff, ih, List.infix_cons_iff]

namespace Template

variable {m c : Char} {s t u v k : List Char}

/-- A mark does not begin where its first character is not. -/
theorem infix_cons_of_ne (h : m ≠ c) : m :: t <:+: c :: s ↔ m :: t <:+: s := by
  rw [List.infix_cons_iff, List.cons_prefix_cons]
  exact or_iff_right fun hbegins => h hbegins.1

/-- A mark does not begin in a text that does not hold its first character. -/
theorem infix_append_of_not_mem (h : m ∉ u) : m :: t <:+: u ++ v ↔ m :: t <:+: v := by
  induction u with
  | nil => rfl
  | cons c u ih =>
    obtain ⟨hc, hu⟩ := not_or.mp (mt List.mem_cons.mpr h)
    rw [List.cons_append, infix_cons_of_ne hc, ih hu]

/-- A text that goes on behind another one begins with it, if what follows does not begin
    with one of its characters. -/
theorem prefix_append_iff (h : ∀ c ∈ v.head?, c ∉ t) : t <+: u ++ v ↔ t <+: u := by
  induction t generalizing u with
  | nil => simp
  | cons d t ih =>
    cases u with
    | nil =>
      -- The text would go on with what follows, which begins with none of its characters.
      refine iff_of_false ?_ (by simp)
      rintro ⟨w, hw⟩
      exact h d (by rw [← List.nil_append v, ← hw]; rfl) List.mem_cons_self
    | cons c u =>
      have ht := ih (u := u) fun c hc hmem => h c hc (List.mem_cons_of_mem _ hmem)
      rw [List.cons_append, List.cons_prefix_cons, List.cons_prefix_cons, ht]

/-- A text that ends at a character which neither it nor the other one holds is the other
    one. -/
theorem concat_prefix_iff (ht : c ∉ t) (hu : c ∉ u) : t ++ [c] <+: u ++ c :: v ↔ t = u := by
  constructor
  · intro h
    induction t generalizing u with
    | nil =>
      cases u with
      | nil => rfl
      | cons d u => exact absurd (List.mem_cons.mpr (.inl (List.cons_prefix_cons.mp h).1)) hu
    | cons d t ih =>
      obtain ⟨hd, ht⟩ := not_or.mp (mt List.mem_cons.mpr ht)
      cases u with
      | nil => exact absurd (List.cons_prefix_cons.mp h).1.symm hd
      | cons e u =>
        obtain ⟨-, hu'⟩ := not_or.mp (mt List.mem_cons.mpr hu)
        obtain ⟨rfl, hrest⟩ := List.cons_prefix_cons.mp h
        exact congrArg (d :: ·) (ih ht hu' hrest)
  · rintro rfl
    exact ⟨v, by simp⟩

/-! ## Literals -/

section

variable {α τ : Type}

/-- The literal at the beginning of pieces, as far as there is one. -/
def leading : List (Piece α) → List Char
  | .literal text :: _ => text
  | _ => []

theorem leading_consChar (c : Char) (ps : List (Piece α)) :
    leading (consChar c ps) = c :: leading ps := by
  fun_cases consChar c ps with
  | case1 text ps => rfl
  | case2 ps hne =>
    rcases ps with _ | ⟨_ | _, ps⟩
    · rfl
    · exact absurd rfl (hne _ _)
    · rfl

/-- Characters that are read first begin the first literal. -/
theorem map_char_prefix_iff {segs : List (Segment α)} :
    u.map .char <+: segs ↔ u <+: leading (merge segs) := by
  induction segs generalizing u with
  | nil => cases u <;> simp [merge, leading]
  | cons seg segs ih =>
    cases u with
    | nil => simp
    | cons d u =>
      cases seg with
      | char c =>
        rw [merge, leading_consChar, List.map_cons, List.cons_prefix_cons, List.cons_prefix_cons,
          Segment.char.injEq, ih]
      | field a => simp [merge, leading, List.cons_prefix_cons]

/-- Characters that are read one after the other occur in a literal. -/
theorem map_char_infix_iff (hne : u ≠ []) {segs : List (Segment α)} :
    u.map .char <:+: segs ↔ ∃ text, .literal text ∈ merge segs ∧ u <:+: text := by
  induction segs with
  | nil => simp [merge, hne]
  | cons seg segs ih =>
    rw [List.infix_cons_iff, map_char_prefix_iff, ih]
    cases seg with
    | char c =>
      -- The character joins the literal behind it, or it begins one.
      rw [merge, leading_consChar]
      generalize merge segs = ps
      fun_cases consChar c ps with
      | case1 text ps => simp [leading, List.infix_cons_iff, or_assoc]
      | case2 ps hnot =>
        have hlead : leading ps = [] := by
          rcases ps with _ | ⟨_ | _, ps⟩
          · rfl
          · exact absurd rfl (hnot _ _)
          · rfl
        simp [hlead, List.infix_cons_iff, hne]
    | field a => simp [merge, leading, hne]

/-! ## Marks between tokens -/

variable {text : τ → List Char} {segment : τ → Segment α} {tokens : List τ}

/-- Characters that stand for themselves wherever they are read: a token begins with one
    only if it is that character. -/
structure Plain (text : τ → List Char) (segment : τ → Segment α) (u : List Char) : Prop where
  head : ∀ token, ∀ c ∈ u, (text token).head? = some c ↔ segment token = .char c
  alone : ∀ token, ∀ c ∈ u, segment token = .char c → text token = [c]

/-- It is enough that each token is a single character that stands for itself, or neither
    begins with one of the characters nor stands for one. -/
theorem Plain.of_tokens (h : ∀ token, (∃ c, text token = [c] ∧ segment token = .char c) ∨
    ∀ c ∈ u, (text token).head? ≠ some c ∧ segment token ≠ .char c) : Plain text segment u where
  head token c hc := by
    rcases h token with ⟨d, htext, hsegment⟩ | hsign
    · simp [htext, hsegment]
    · exact iff_of_false (hsign c hc).1 (hsign c hc).2
  alone token c hc hread := by
    rcases h token with ⟨d, htext, hsegment⟩ | hsign
    · obtain rfl := Segment.char.inj (hsegment.symm.trans hread)
      exact htext
    · exact absurd hread (hsign c hc).2

/-- Such characters begin a template exactly if they are read first. -/
theorem Plain.prefix_iff (h : Plain text segment u) (hne : ∀ token, text token ≠ []) :
    u <+: tokens.flatMap text ↔ u.map .char <+: tokens.map segment := by
  induction u generalizing tokens with
  | nil => simp
  | cons c u ih =>
    have hrest : Plain text segment u :=
      ⟨fun token d hd => h.head token d (List.mem_cons_of_mem _ hd),
        fun token d hd => h.alone token d (List.mem_cons_of_mem _ hd)⟩
    cases tokens with
    | nil => simp
    | cons token tokens =>
      rw [List.flatMap_cons, List.map_cons, List.map_cons, List.cons_prefix_cons]
      by_cases hread : segment token = .char c
      · rw [h.alone token c List.mem_cons_self hread, List.singleton_append, List.cons_prefix_cons,
          ih hrest, hread]
        simp
      · -- Only a token that stands for a character begins with it.
        refine iff_of_false ?_ (fun hbegins => hread hbegins.1.symm)
        rintro ⟨w, hw⟩
        refine hread ((h.head token c List.mem_cons_self).mp ?_)
        obtain ⟨d, rest, hd⟩ := List.exists_cons_of_ne_nil (hne token)
        rw [hd, List.cons_append, List.cons_append] at hw
        rw [hd, (List.cons.inj hw).1]
        rfl

/-- **Where a mark occurs in a template**: at a token that it fits, or in the text that the
    template stands for. -/
theorem mark_infix_iff {Fits : τ → Prop} (hplain : Plain text segment t)
    (hne : ∀ token, text token ≠ [])
    (hstep : ∀ token rest, token :: rest <:+ tokens →
      (m :: t <:+: text token ++ rest.flatMap text ↔
        Fits token ∨ (segment token = .char m ∧ t <+: rest.flatMap text) ∨
          m :: t <:+: rest.flatMap text)) :
    m :: t <:+: tokens.flatMap text ↔
      (∃ token ∈ tokens, Fits token) ∨ (m :: t).map .char <:+: tokens.map segment := by
  induction tokens with
  | nil => simp
  | cons token tokens ih =>
    have hrest := ih fun token' rest hsuffix =>
      hstep token' rest (hsuffix.trans (List.suffix_cons _ _))
    rw [List.flatMap_cons, hstep token tokens List.suffix_rfl, hrest, List.map_cons, List.map_cons,
      List.infix_cons_iff, List.cons_prefix_cons, hplain.prefix_iff hne]
    simp only [List.mem_cons, exists_eq_or_imp, eq_comm (a := Segment.char m)]
    rw [or_assoc]
    exact or_congr_right or_left_comm

end

variable {name : List Char}

/-- A name begins with a character that is no sign. -/
theorem Identifier.not_begins (h : Identifier name) (hc : c ≠ '_' ∧ c.isAlphanum = false) :
    ¬ name <+: c :: s := by
  intro hbegins
  have hnot : c ∉ name := not_mem_identifier (isIdentifier_iff.mpr h) hc
  obtain ⟨d, rest, rfl, -⟩ := h
  exact hnot (List.mem_cons.mpr (.inl (List.cons_prefix_cons.mp hbegins).1.symm))

/-! ## Percent templates -/

theorem balanced_of_not_mem (hopen : '(' ∉ s) (hclose : ')' ∉ s) : Balanced s := by
  induction s with
  | nil => exact .nil
  | cons c s ih =>
    obtain ⟨hc, hopen⟩ := not_or.mp (mt List.mem_cons.mpr hopen)
    obtain ⟨hc', hclose⟩ := not_or.mp (mt List.mem_cons.mpr hclose)
    exact .char (Ne.symm hc) (Ne.symm hc') (ih hopen hclose)

/-- A key and the parenthesis behind it begin a text exactly if the text begins with that
    key. -/
theorem Balanced.prefix_iff (h : Balanced t) (hk : Balanced k) :
    t ++ [')'] <+: k ++ ')' :: v ↔ k = t := by
  constructor
  · rintro ⟨w, hw⟩
    have hkey := keyBody_eq_some_iff.mpr ⟨hk, (rfl : k ++ ')' :: v = _)⟩
    have hkey' := keyBody_eq_some_iff.mpr ⟨h, (by simp [← hw] : k ++ ')' :: v = t ++ ')' :: w)⟩
    rw [hkey, Option.some.injEq, Prod.mk.injEq] at hkey'
    exact hkey'.1
  · rintro rfl
    exact ⟨v, by simp⟩

/-- A mark whose group is balanced occurs in a key as a whole, or behind it. -/
theorem mark_in_key (h : Balanced t) {depth : Nat} {r : List Char}
    (hkey : keyBody depth s = some (k, r)) :
    '%' :: t <:+: s ↔ '%' :: t <:+: k ∨ '%' :: t <:+: r := by
  fun_induction keyBody depth s generalizing k r with
  | case1 => cases hkey
  | case2 depth rest ih =>
    obtain ⟨⟨k', r'⟩, hrest, heq⟩ := Option.map_eq_some_iff.mp hkey
    obtain ⟨rfl, rfl⟩ := Prod.mk.inj heq
    rw [infix_cons_of_ne (by decide), infix_cons_of_ne (by decide), ih hrest]
  | case3 rest =>
    obtain ⟨rfl, rfl⟩ := Prod.mk.inj (Option.some.inj hkey)
    rw [infix_cons_of_ne (by decide)]
    simp
  | case4 depth rest ih =>
    obtain ⟨⟨k', r'⟩, hrest, heq⟩ := Option.map_eq_some_iff.mp hkey
    obtain ⟨rfl, rfl⟩ := Prod.mk.inj heq
    rw [infix_cons_of_ne (by decide), infix_cons_of_ne (by decide), ih hrest]
  | case5 depth c rest _ _ _ ih =>
    obtain ⟨⟨k', r'⟩, hrest, heq⟩ := Option.map_eq_some_iff.mp hkey
    obtain ⟨rfl, rfl⟩ := Prod.mk.inj heq
    -- A balanced text in front of the rest is in front of the rest of the key.
    have hgroup : t <+: rest ↔ t <+: k' := by
      constructor
      · rintro ⟨w, rfl⟩
        rw [h.keyBody] at hrest
        obtain ⟨⟨k'', r''⟩, -, heq⟩ := Option.map_eq_some_iff.mp hrest
        obtain ⟨rfl, rfl⟩ := Prod.mk.inj heq
        exact List.prefix_append _ _
      · intro hbegins
        rw [(closing_of_keyBody hrest).2]
        exact hbegins.trans (List.prefix_append _ _)
    rw [List.infix_cons_iff, List.infix_cons_iff, List.cons_prefix_cons, List.cons_prefix_cons,
      hgroup, ih hrest, or_assoc]

theorem SpecText.percent_not_mem (x : SpecText) : '%' ∉ x.text := by
  simp only [text, tail, List.mem_append, List.mem_singleton, not_or]
  refine ⟨fun h => absurd (x.flags_mem _ h) (by decide),
    fun h => absurd (x.width_digit _ h) (by decide), ?_,
    fun h => absurd (x.sizes_mem _ h) (by decide), by cases x.kind <;> decide⟩
  cases hp : x.precision? with
  | none => simp [precisionText]
  | some ds =>
    intro h
    rcases List.mem_cons.mp h with heq | hin
    · exact absurd heq (by decide)
    · exact absurd (x.precision_digit ds hp _ hin) (by decide)

/-- The mark of a name in a percent template. -/
def percentMark (name : List Char) : List Char := '%' :: '(' :: (name ++ [')'])

/-- A conversion under the name, or with the mark of the name in its key. -/
def Token.Fits (name : List Char) : Token → Prop
  | conversion x => ∃ k ∈ x.key?, k = name ∨ percentMark name <:+: k
  | _ => False

theorem Token.fits_iff {token : Token} :
    token.Fits name ↔
      ∃ x, token = .conversion x ∧ ∃ k ∈ x.key?, k = name ∨ percentMark name <:+: k := by
  cases token <;> simp [Fits]

theorem Token.segment_eq_field_iff {token : Token} {c : Conversion} :
    token.segment = .field c ↔ ∃ x, token = .conversion x ∧ x.decode = c := by
  cases token <;> simp [segment]

theorem plain_percent (h : '%' ∉ u) : Plain Token.text Token.segment u := by
  have hsign : ∀ c ∈ u, '%' ≠ c := fun c hc heq => h (heq ▸ hc)
  refine .of_tokens fun token => ?_
  cases token with
  | plain c _ => exact .inl ⟨c, rfl, rfl⟩
  | percent => exact .inr fun c hc => by simp [Token.text, Token.segment, hsign c hc]
  | conversion x =>
    exact .inr fun c hc => by simp [Token.text, ConversionText.text, Token.segment, hsign c hc]

theorem Token.text_ne_nil (token : Token) : token.text ≠ [] := by
  cases token <;> simp [text, ConversionText.text]

theorem Token.mark_infix_iff (h : Identifier name) (token : Token) (s : List Char) :
    percentMark name <:+: token.text ++ s ↔
      token.Fits name ∨ (token.segment = .char '%' ∧ '(' :: (name ++ [')']) <+: s) ∨
        percentMark name <:+: s := by
  have hnot : ∀ c, (c ≠ '_' ∧ c.isAlphanum = false) → c ∉ name := fun c hc =>
    not_mem_identifier (isIdentifier_iff.mpr h) hc
  have hname : Balanced name := balanced_of_not_mem (hnot '(' (by decide)) (hnot ')' (by decide))
  have hgroup : Balanced ('(' :: (name ++ [')'])) := .group hname .nil
  unfold percentMark
  cases token with
  | plain c hc =>
    rw [text, List.singleton_append, infix_cons_of_ne (Ne.symm hc)]
    simp [Fits, segment, hc]
  | percent =>
    -- The mark does not begin with the first sign, as no group opens behind it.
    rw [text, List.cons_append, List.singleton_append, List.infix_cons_iff, List.infix_cons_iff,
      List.cons_prefix_cons, List.cons_prefix_cons, List.cons_prefix_cons]
    simp [Fits, segment]
  | conversion x =>
    rw [text, ConversionText.text, List.cons_append, List.infix_cons_iff, List.cons_prefix_cons]
    simp only [segment, reduceCtorEq, false_and, false_or, true_and, Fits]
    cases hx : x.key? with
    | none =>
      have hbody : x.body = x.spec.text := by rw [ConversionText.body, hx]
      rw [hbody, infix_append_of_not_mem x.spec.percent_not_mem]
      simp only [Option.mem_def, reduceCtorEq, false_and, exists_false, false_or]
      refine or_iff_right fun hbegins => ?_
      cases hs : x.spec.text with
      | nil => simp [SpecText.text, SpecText.tail] at hs
      | cons c rest =>
        rw [hs, List.cons_append, List.cons_prefix_cons] at hbegins
        exact x.spec.text_ne_cons (hbegins.1 ▸ hs)
    | some k =>
      -- The parenthesis behind the name is the one that closes the key, or a mark lies in it.
      have hk : Balanced k := x.key_balanced k hx
      have hbody : x.body ++ s = '(' :: (k ++ ')' :: (x.spec.text ++ s)) := by
        simp [ConversionText.body, hx]
      have hkey := keyBody_eq_some_iff.mpr ⟨hk, (rfl : k ++ ')' :: (x.spec.text ++ s) = _)⟩
      rw [hbody, List.cons_prefix_cons, infix_cons_of_ne (by decide), mark_in_key hgroup hkey,
        infix_append_of_not_mem x.spec.percent_not_mem, hname.prefix_iff hk]
      simp [percentMark, or_assoc]

/-- **Where the mark of a name occurs in a percent template**: at a conversion under the name,
    in another key, or in a text. -/
theorem percentMark_infix_iff (h : Identifier name) (tokens : List Token) :
    percentMark name <:+: tokens.flatMap Token.text ↔
      (∃ token ∈ tokens, token.Fits name) ∨
        (percentMark name).map .char <:+: tokens.map Token.segment := by
  have hnot : '%' ∉ name := not_mem_identifier (isIdentifier_iff.mpr h) (by decide)
  exact mark_infix_iff (plain_percent (by simpa using hnot)) Token.text_ne_nil
    fun token rest _ => token.mark_infix_iff h _

/-! ## Brace templates -/

/-- The mark of a name in a brace template. -/
def braceMark (name : List Char) : List Char := '\x7b' :: name

/-- A field whose name begins with the name. -/
def BraceToken.Fits (name : List Char) : BraceToken → Prop
  | field x => name <+: x.name
  | _ => False

theorem BraceToken.fits_iff {token : BraceToken} :
    token.Fits name ↔ ∃ x, token = .field x ∧ name <+: x.name := by
  cases token <;> simp [Fits]

theorem BraceToken.segment_eq_field_iff {token : BraceToken} {a : BraceField} :
    token.segment = .field a ↔ ∃ x, token = .field x ∧ x.decode = a := by
  cases token <;> simp [segment]

theorem plain_brace (hopen : '\x7b' ∉ u) (hclose : '\x7d' ∉ u) :
    Plain BraceToken.text BraceToken.segment u := by
  have hsign : ∀ c ∈ u, '\x7b' ≠ c := fun c hc heq => hopen (heq ▸ hc)
  have hsign' : ∀ c ∈ u, '\x7d' ≠ c := fun c hc heq => hclose (heq ▸ hc)
  refine .of_tokens fun token => ?_
  cases token with
  | plain c _ => exact .inl ⟨c, rfl, rfl⟩
  | opening => exact .inr fun c hc => by simp [BraceToken.text, BraceToken.segment, hsign c hc]
  | closing => exact .inr fun c hc => by simp [BraceToken.text, BraceToken.segment, hsign' c hc]
  | field x =>
    exact .inr fun c hc => by
      simp [BraceToken.text, BraceFieldText.text, BraceToken.segment, hsign c hc]

theorem BraceToken.text_ne_nil (token : BraceToken) : token.text ≠ [] := by
  cases token <;> simp [text, BraceFieldText.text]

/-- What follows the name of a field is no letter of a name. -/
theorem BraceFieldText.body_append (x : BraceFieldText) (s : List Char) :
    ∃ rest, x.body ++ '\x7d' :: s = x.name ++ rest ∧
      ∀ c ∈ rest.head?, c ≠ '_' ∧ c.isAlphanum = false := by
  refine ⟨(x.shown?.elim [] fun m => ['!', m.letter]) ++
    ((x.spec?.elim [] fun y => ':' :: y.text) ++ '\x7d' :: s), by simp [body, head], ?_⟩
  cases x.shown? <;> cases x.spec? <;> simp

theorem BraceToken.mark_infix_iff (h : Identifier name) (token : BraceToken) (s : List Char) :
    braceMark name <:+: token.text ++ s ↔
      token.Fits name ∨ (token.segment = .char '\x7b' ∧ name <+: s) ∨ braceMark name <:+: s := by
  unfold braceMark
  cases token with
  | plain c hc =>
    rw [text, List.singleton_append, infix_cons_of_ne (Ne.symm hc.1)]
    simp [Fits, segment, hc.1]
  | opening =>
    have hnot : ¬ name <+: '\x7b' :: s := h.not_begins (by decide)
    rw [text, List.cons_append, List.singleton_append, List.infix_cons_iff, List.infix_cons_iff,
      List.cons_prefix_cons, List.cons_prefix_cons]
    simp [Fits, segment, hnot]
  | closing =>
    rw [text, List.cons_append, List.singleton_append, infix_cons_of_ne (by decide),
      infix_cons_of_ne (by decide)]
    simp [Fits, segment]
  | field x =>
    -- A sign follows the name of the field, and no further field begins within it.
    obtain ⟨rest, hrest, hhead⟩ := x.body_append s
    have hopen : '\x7b' ∉ x.body ++ ['\x7d'] := by
      simpa using fun hin => (x.ne_brace hin).1 rfl
    have hname : name <+: x.body ++ '\x7d' :: s ↔ name <+: x.name := by
      rw [hrest]
      refine prefix_append_iff fun c hc => ?_
      exact not_mem_identifier (isIdentifier_iff.mpr h) (hhead c hc)
    have hafter : '\x7b' :: name <:+: x.body ++ '\x7d' :: s ↔ '\x7b' :: name <:+: s := by
      rw [← infix_append_of_not_mem (v := s) hopen, List.append_assoc, List.singleton_append]
    have htext : x.text ++ s = '\x7b' :: (x.body ++ '\x7d' :: s) := by simp [BraceFieldText.text]
    rw [text, htext, List.infix_cons_iff, List.cons_prefix_cons, hname, hafter]
    simp [Fits, segment]

/-- **Where the mark of a name occurs in a brace template**: at a field whose name begins with
    the name, or in a text. -/
theorem braceMark_infix_iff (h : Identifier name) (tokens : List BraceToken) :
    braceMark name <:+: tokens.flatMap BraceToken.text ↔
      (∃ token ∈ tokens, token.Fits name) ∨
        (braceMark name).map .char <:+: tokens.map BraceToken.segment := by
  have hnot := fun c hc => not_mem_identifier (c := c) (isIdentifier_iff.mpr h) hc
  exact mark_infix_iff (plain_brace (hnot _ (by decide)) (hnot _ (by decide)))
    BraceToken.text_ne_nil fun token rest _ => token.mark_infix_iff h _

/-! ## Dollar templates -/

/-- The mark of a name in a dollar template, without braces. -/
def bareMark (name : List Char) : List Char := '$' :: name

/-- The mark of a name in a dollar template, with braces. -/
def bracedMark (name : List Char) : List Char := '$' :: '\x7b' :: (name ++ ['\x7d'])

namespace DollarToken

/-- A placeholder without braces whose name begins with the name. -/
def FitsBare (name : List Char) : DollarToken → Prop
  | bare name' _ => name <+: name'
  | _ => False

/-- A placeholder with braces under the name. -/
def FitsBraced (name : List Char) : DollarToken → Prop
  | braced name' _ => name = name'
  | _ => False

theorem fits_iff {token : DollarToken} :
    token.FitsBare name ∨ token.FitsBraced name ↔
      (∃ name' h, token = .bare name' h ∧ name <+: name') ∨ ∃ h, token = .braced name h := by
  cases token with
  | bare name' h => simpa [FitsBare, FitsBraced] using fun _ => h
  | braced name' h => simpa [FitsBare, FitsBraced, eq_comm] using fun heq => heq ▸ h
  | _ => simp [FitsBare, FitsBraced]

theorem segment_eq_field_iff {token : DollarToken} :
    token.segment = .field (String.ofList name) ↔
      ∃ h, token = .bare name h ∨ token = .braced name h := by
  cases token with
  | bare name' h => simpa [segment, String.ofList_inj] using fun heq => heq ▸ h
  | braced name' h => simpa [segment, String.ofList_inj] using fun heq => heq ▸ h
  | _ => simp [segment]

theorem plain_dollar (h : '$' ∉ u) : Plain text segment u := by
  have hsign : ∀ c ∈ u, '$' ≠ c := fun c hc heq => h (heq ▸ hc)
  refine .of_tokens fun token => ?_
  cases token with
  | plain c _ => exact .inl ⟨c, rfl, rfl⟩
  | mark => exact .inr fun c hc => by simp [text, segment, hsign c hc]
  | bare name _ => exact .inr fun c hc => by simp [text, segment, hsign c hc]
  | braced name _ => exact .inr fun c hc => by simp [text, segment, hsign c hc]

theorem text_ne_nil (token : DollarToken) : token.text ≠ [] := by
  cases token <;> simp [text]

theorem bareMark_infix_iff (h : Identifier name) (token : DollarToken) (s : List Char)
    (hend : ∀ name hname, token = .bare name hname → ∀ c ∈ s.head?, isNameChar c = false) :
    bareMark name <:+: token.text ++ s ↔
      token.FitsBare name ∨ (token.segment = .char '$' ∧ name <+: s) ∨ bareMark name <:+: s := by
  unfold bareMark
  cases token with
  | plain c hc =>
    rw [text, List.singleton_append, infix_cons_of_ne (Ne.symm hc)]
    simp [FitsBare, segment, hc]
  | mark =>
    have hnot : ¬ name <+: '$' :: s := h.not_begins (by decide)
    rw [text, List.cons_append, List.singleton_append, List.infix_cons_iff, List.infix_cons_iff,
      List.cons_prefix_cons, List.cons_prefix_cons]
    simp [FitsBare, segment, hnot]
  | bare name' hname' =>
    have hdollar : '$' ∉ name' := not_mem_identifier (isIdentifier_iff.mpr hname') (by decide)
    -- No letter of a name follows the placeholder, so the name of the mark ends within it.
    have hbegins : name <+: name' ++ s ↔ name <+: name' := by
      refine prefix_append_iff fun c hc => ?_
      have hnot := hend name' hname' rfl c hc
      simp only [isNameChar, Bool.or_eq_false_iff, decide_eq_false_iff_not] at hnot
      exact not_mem_identifier (isIdentifier_iff.mpr h) hnot
    rw [text, List.cons_append, List.infix_cons_iff, List.cons_prefix_cons, hbegins,
      infix_append_of_not_mem hdollar]
    simp [FitsBare, segment]
  | braced name' hname' =>
    have hnot : ¬ name <+: '\x7b' :: (name' ++ '\x7d' :: s) := h.not_begins (by decide)
    have hdollar : '$' ∉ '\x7b' :: (name' ++ ['\x7d']) := by
      simpa using not_mem_identifier (isIdentifier_iff.mpr hname') (by decide)
    have hafter : '$' :: name <:+: '\x7b' :: (name' ++ '\x7d' :: s) ↔ '$' :: name <:+: s := by
      rw [← infix_append_of_not_mem (v := s) hdollar]
      simp
    have htext : (braced name' hname').text ++ s = '$' :: '\x7b' :: (name' ++ '\x7d' :: s) := by
      simp [text]
    rw [htext, List.infix_cons_iff, List.cons_prefix_cons, hafter]
    simp [FitsBare, segment, hnot]

theorem bracedMark_infix_iff (h : Identifier name) (token : DollarToken) (s : List Char) :
    bracedMark name <:+: token.text ++ s ↔
      token.FitsBraced name ∨ (token.segment = .char '$' ∧ '\x7b' :: (name ++ ['\x7d']) <+: s) ∨
        bracedMark name <:+: s := by
  have hbrace : '\x7d' ∉ name := not_mem_identifier (isIdentifier_iff.mpr h) (by decide)
  unfold bracedMark
  cases token with
  | plain c hc =>
    rw [text, List.singleton_append, infix_cons_of_ne (Ne.symm hc)]
    simp [FitsBraced, segment, hc]
  | mark =>
    rw [text, List.cons_append, List.singleton_append, List.infix_cons_iff, List.infix_cons_iff,
      List.cons_prefix_cons, List.cons_prefix_cons, List.cons_prefix_cons]
    simp [FitsBraced, segment]
  | bare name' hname' =>
    have hdollar : '$' ∉ name' := not_mem_identifier (isIdentifier_iff.mpr hname') (by decide)
    have hnot : ¬ '\x7b' :: (name ++ ['\x7d']) <+: name' ++ s := by
      obtain ⟨c, rest, rfl, hc, -⟩ := hname'
      rw [List.cons_append, List.cons_prefix_cons]
      rintro ⟨rfl, -⟩
      revert hc
      decide
    rw [text, List.cons_append, List.infix_cons_iff, List.cons_prefix_cons,
      infix_append_of_not_mem hdollar]
    simp [FitsBraced, segment, hnot]
  | braced name' hname' =>
    have hbrace' : '\x7d' ∉ name' := not_mem_identifier (isIdentifier_iff.mpr hname') (by decide)
    have hdollar : '$' ∉ '\x7b' :: (name' ++ ['\x7d']) := by
      simpa using not_mem_identifier (isIdentifier_iff.mpr hname') (by decide)
    have htext : (braced name' hname').text ++ s =
        '$' :: ('\x7b' :: (name' ++ ['\x7d']) ++ s) := by
      simp [text]
    rw [htext, List.infix_cons_iff, List.cons_prefix_cons, infix_append_of_not_mem hdollar,
      List.cons_append, List.cons_prefix_cons, List.append_assoc, List.singleton_append,
      concat_prefix_iff hbrace hbrace']
    simp [FitsBraced, segment]

end DollarToken

/-- **Where the marks of a name occur in a dollar template**: at a placeholder without braces
    whose name begins with the name, at one with braces under the name, or in a text. -/
theorem dollarMarks_infix_iff (h : Identifier name) {tokens : List DollarToken}
    (hlongest : LongestNames tokens) :
    (bareMark name <:+: tokens.flatMap DollarToken.text ∨
        bracedMark name <:+: tokens.flatMap DollarToken.text) ↔
      (∃ token ∈ tokens, token.FitsBare name ∨ token.FitsBraced name) ∨
        (bareMark name).map .char <:+: tokens.map DollarToken.segment ∨
          (bracedMark name).map .char <:+: tokens.map DollarToken.segment := by
  have hdollar : '$' ∉ name := not_mem_identifier (isIdentifier_iff.mpr h) (by decide)
  have hbare : bareMark name <:+: tokens.flatMap DollarToken.text ↔
      (∃ token ∈ tokens, token.FitsBare name) ∨
        (bareMark name).map .char <:+: tokens.map DollarToken.segment :=
    mark_infix_iff (DollarToken.plain_dollar hdollar) DollarToken.text_ne_nil
      fun token rest hsuffix => token.bareMark_infix_iff h _
        fun name' hname' heq => hlongest name' hname' rest (heq ▸ hsuffix)
  have hbraced : bracedMark name <:+: tokens.flatMap DollarToken.text ↔
      (∃ token ∈ tokens, token.FitsBraced name) ∨
        (bracedMark name).map .char <:+: tokens.map DollarToken.segment :=
    mark_infix_iff (DollarToken.plain_dollar (by simpa using hdollar)) DollarToken.text_ne_nil
      fun token rest _ => token.bracedMark_infix_iff h _
  rw [hbare, hbraced]
  simp only [and_or_left, exists_or]
  exact or_or_or_comm

end Template

end Logbook
