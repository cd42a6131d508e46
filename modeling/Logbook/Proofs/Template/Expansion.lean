import Logbook.Arguments
import Logbook.Proofs.Template.Tokens

/-! # Messages put together

    A message expands to what its parts expand to.  Reading a template that ends well stops
    between two tokens, so what is read of a longer template begins anew behind it; and a
    template that expands takes exactly the values it is given, so the values of the rest
    are left to the rest.  Values are written and not read: a percent sign in one of them
    means nothing.
-/

namespace Logbook

namespace Template

/-! ## Reading a longer template -/

/-- Behind a template that can be read, reading begins anew. -/
theorem percentSegments_append {total : Nat} {s : List Char} {segs : List (Segment Conversion)}
    (h : percentSegments total s = .ok segs) (total' : Nat) (t : List Char) :
    percentSegments total' (s ++ t) = (percentSegments total' t).map (segs ++ ·) := by
  obtain ⟨tokens, rfl, hruns, rfl⟩ := percentSegments_eq_ok_iff.mp h
  exact hruns.percentSegments_append total' t

/-- Whether a template can be read does not depend on its length as a whole. -/
theorem percentSegments_eq_ok_of {total total' : Nat} {s : List Char}
    {segs : List (Segment Conversion)} (h : percentSegments total s = .ok segs) :
    percentSegments total' s = .ok segs :=
  percentSegments_eq_ok_iff.mpr (percentSegments_eq_ok_iff.mp h)

end Template

namespace Message

open Template

/-! ## Writing a longer row -/

/-- A character in front of the pieces is written in front of them. -/
theorem expandRow_consChar (c : Char) (ps : List (Piece Conversion)) (vs : List Value) :
    expandRow (consChar c ps) vs = (expandRow ps vs).map (c :: ·) := by
  fun_cases consChar c ps with
  | case1 text ps =>
    simp only [expandRow]
    cases expandRow ps vs <;> rfl
  | case2 ps hne =>
    rw [expandRow]
    rfl

/-- A conversion that is written has no key and takes the first of the values. -/
theorem expandRow_field {c : Conversion} {ps : List (Piece Conversion)} {vs : List Value}
    {text : List Char} (h : expandRow (.field c :: ps) vs = .ok text) :
    ∃ v vs' shown rest, c.key?.isSome = false ∧ vs = v :: vs' ∧ c.render v = .ok shown ∧
      expandRow ps vs' = .ok rest ∧ text = shown ++ rest := by
  cases vs with
  | nil =>
    rw [expandRow] at h
    split at h <;> cases h
  | cons v vs' =>
    rw [expandRow] at h
    split at h
    · cases h
    · next hkey =>
      cases hshown : c.render v with
      | error e => simp [hshown, bind, Except.bind] at h
      | ok shown =>
        cases hrest : expandRow ps vs' with
        | error e => simp [hshown, hrest, bind, Except.bind] at h
        | ok rest =>
          simp only [hshown, hrest, bind, Except.bind, pure, Except.pure, Except.ok.injEq] at h
          exact ⟨v, vs', shown, rest, by simpa using hkey, rfl, hshown, hrest, h.symm⟩

/-- A conversion without a key writes the first of the values in front of the rest. -/
theorem expandRow_field_cons {c : Conversion} {v : Value} {shown : List Char}
    (hkey : c.key?.isSome = false) (hshown : c.render v = .ok shown) (ps : List (Piece Conversion))
    (vs : List Value) : expandRow (.field c :: ps) (v :: vs) = (expandRow ps vs).map (shown ++ ·) := by
  rw [expandRow, if_neg (by simp [hkey]), hshown]
  cases expandRow ps vs <;> rfl

/-- **A row that can be written** takes its own values, and leaves the others to what
    follows. -/
theorem expandRow_append {segs : List (Segment Conversion)} {vs : List Value} {text : List Char}
    (h : expandRow (merge segs) vs = .ok text) (segs' : List (Segment Conversion))
    (vs' : List Value) :
    expandRow (merge (segs ++ segs')) (vs ++ vs') =
      (expandRow (merge segs') vs').map (text ++ ·) := by
  induction segs generalizing vs text with
  | nil =>
    cases vs with
    | nil =>
      obtain rfl : [] = text := Except.ok.inj h
      rw [List.nil_append, List.nil_append]
      cases expandRow (merge segs') vs' <;> rfl
    | cons v vs => cases h
  | cons seg segs ih =>
    rw [List.cons_append]
    cases seg with
    | char c =>
      rw [merge, expandRow_consChar] at h
      obtain ⟨rest, hrest, rfl⟩ := map_eq_ok_iff.mp h
      rw [merge, expandRow_consChar, ih hrest]
      cases expandRow (merge segs') vs' <;> rfl
    | field c =>
      rw [merge] at h
      obtain ⟨v, vs'', shown, rest, hkey, rfl, hshown, hrest, rfl⟩ := expandRow_field h
      rw [merge, List.cons_append, expandRow_field_cons hkey hshown, ih hrest]
      cases expandRow (merge segs') vs' with
      | error e => rfl
      | ok text => exact congrArg Except.ok (List.append_assoc ..).symm

/-! ## Expanding a longer message -/

/-- A message with values is read and then written. -/
theorem expand_positional {vs : List Value} (hvs : vs ≠ []) (t : String) :
    expand t (.positional vs) =
      ((percentSegments (Text.byteLength t.toList) t.toList).mapError ofFault).bind fun segs =>
        (expandRow (merge segs) vs).map String.ofList := by
  have hempty : (Arguments.positional vs).isEmpty = false := by
    simpa [Arguments.isEmpty] using hvs
  rw [expand, hempty, percentPieces]
  cases percentSegments (Text.byteLength t.toList) t.toList with
  | error f => rfl
  | ok segs =>
    show (expandRow (merge segs) vs >>= fun text => pure (String.ofList text)) =
      (expandRow (merge segs) vs).map String.ofList
    cases expandRow (merge segs) vs <;> rfl

/-- What a message that expands is made of. -/
theorem expand_eq_ok_iff {vs : List Value} (hvs : vs ≠ []) {t s : String} :
    expand t (.positional vs) = .ok s ↔
      ∃ segs, percentSegments (Text.byteLength t.toList) t.toList = .ok segs ∧
        expandRow (merge segs) vs = .ok s.toList := by
  rw [expand_positional hvs]
  cases percentSegments (Text.byteLength t.toList) t.toList with
  | error f => simp [Except.mapError, Except.bind]
  | ok segs =>
    simp only [Except.mapError, Except.bind, Except.ok.injEq, exists_eq_left']
    rw [map_eq_ok_iff]
    constructor
    · rintro ⟨text, htext, rfl⟩
      rw [htext, String.toList_ofList]
    · intro htext
      exact ⟨s.toList, htext, String.ofList_toList.symm⟩

/-- **A longer message**: behind one that expands, another is expanded with its own values, and
    it fails with them if it fails by itself. -/
theorem expand_append {t t' s : String} {vs vs' : List Value} (hvs : vs ≠ []) (hvs' : vs' ≠ [])
    (h : expand t (.positional vs) = .ok s) :
    (∀ s', expand t' (.positional vs') = .ok s' →
        expand (t ++ t') (.positional (vs ++ vs')) = .ok (s ++ s')) ∧
      ∀ e, expand t' (.positional vs') = .error e →
        ∃ e', expand (t ++ t') (.positional (vs ++ vs')) = .error e' := by
  have hboth : vs ++ vs' ≠ [] := by simp [hvs]
  obtain ⟨segs, hsegs, htext⟩ := (expand_eq_ok_iff hvs).mp h
  have hread := percentSegments_append hsegs (Text.byteLength (t ++ t').toList) t'.toList
  rw [← String.toList_append] at hread
  constructor
  · intro s' h'
    obtain ⟨segs', hsegs', htext'⟩ := (expand_eq_ok_iff hvs').mp h'
    rw [percentSegments_eq_ok_of hsegs'] at hread
    refine (expand_eq_ok_iff hboth).mpr ⟨segs ++ segs', hread, ?_⟩
    rw [expandRow_append htext, htext', String.toList_append]
    rfl
  · intro e h'
    cases hwhole : expand (t ++ t') (.positional (vs ++ vs')) with
    | error e' => exact ⟨e', rfl⟩
    | ok s'' =>
      -- If both together expand, so does the second by itself.
      obtain ⟨both, hboth', htext''⟩ := (expand_eq_ok_iff hboth).mp hwhole
      rw [hread] at hboth'
      obtain ⟨segs', hsegs', rfl⟩ := map_eq_ok_iff.mp hboth'
      rw [expandRow_append htext] at htext''
      obtain ⟨rest, hrest, -⟩ := map_eq_ok_iff.mp htext''
      have hok : expand t' (.positional vs') = .ok (String.ofList rest) :=
        (expand_eq_ok_iff hvs').mpr
          ⟨segs', percentSegments_eq_ok_of hsegs', by rw [hrest, String.toList_ofList]⟩
      rw [h'] at hok
      cases hok

/-! ## Percent signs that mean nothing -/

/-- A text with every percent sign written twice. -/
def doubled (s : String) : String :=
  String.ofList (s.toList.flatMap fun c => if c = '%' then ['%', '%'] else [c])

/-- Characters alone are written as they are, without a value. -/
theorem expandRow_chars (text : List Char) :
    expandRow (merge (text.map .char)) [] = .ok text := by
  induction text with
  | nil => rfl
  | cons c text ih =>
    rw [List.map_cons, merge, expandRow_consChar, ih]
    rfl

/-- A text with doubled percent signs is shown as it is, and behind it the value as it is. -/
theorem expand_doubled (s : String) (v : Value) :
    expand (doubled s ++ "%s") (.positional [v]) = .ok (s ++ v.text) := by
  have hplain : Tokenizes ['%', 's'] [.field { kind := .s }] :=
    Tokenizes.nil.conversion
      (x := { spec := { kind := .s, flags_mem := by simp, width_digit := by simp,
                        precision_digit := by simp, sizes_mem := by simp },
              key_balanced := by simp })
      (ConversionText.longestFlags_iff.mpr (by simp))
  have hread : percentSegments (Text.byteLength (doubled s ++ "%s").toList)
      (doubled s ++ "%s").toList = .ok (s.toList.map .char ++ [.field { kind := .s }]) := by
    rw [percentSegments_eq_ok_iff, String.toList_append, doubled, String.toList_ofList]
    exact hplain.literal s.toList
  have hshown : ({ kind := .s } : Conversion).render v = .ok v.text.toList := by
    simp [Conversion.render, Conversion.write, Written.pad, cut, Except.map]
  refine (expand_eq_ok_iff (by simp)).mpr ⟨_, hread, ?_⟩
  rw [← List.nil_append [v], expandRow_append (expandRow_chars s.toList), String.toList_append]
  show (expandRow [.field { kind := .s }] [v]).map (s.toList ++ ·) = _
  rw [expandRow_field_cons rfl hshown, expandRow]
  simp [Except.map]

/-- **Expansion composes.**  If two messages expand with values of their own, then one behind
    the other expands with the values of both to both texts, and if only the first expands,
    both together fail.  A text whose percent signs are doubled stands for itself, and a value
    behind it for its own text, whatever percent signs there are in either. -/
theorem expansion_composes :
    (∀ (t₁ t₂ s₁ : String) (a₁ a₂ : List Value), a₁ ≠ [] → a₂ ≠ [] →
      expand t₁ (.positional a₁) = .ok s₁ →
        (∀ s₂, expand t₂ (.positional a₂) = .ok s₂ →
          expand (t₁ ++ t₂) (.positional (a₁ ++ a₂)) = .ok (s₁ ++ s₂)) ∧
        ∀ e, expand t₂ (.positional a₂) = .error e →
          ∃ e', expand (t₁ ++ t₂) (.positional (a₁ ++ a₂)) = .error e') ∧
    ∀ (s : String) (v : Value),
      expand (doubled s ++ "%s") (.positional [v]) = .ok (s ++ v.text) :=
  ⟨fun _ _ _ _ _ h₁ h₂ h => expand_append h₁ h₂ h, expand_doubled⟩

/-- A percent sign on either side of the seam and one in a value, and a second message that
    cannot be read. -/
theorem expansion_composes_at_percent_signs :
    expand ("100%% of %s%%" ++ "%%%s") (.positional ([.str "%d"] ++ [.bool true])) =
        .ok ("100% of %d%" ++ "%true") ∧
      ∃ e, expand ("100%% of %s%%" ++ "%q") (.positional ([.str "%d"] ++ [.bool true])) =
        .error e := by
  have hfirst : expand "100%% of %s%%" (.positional [.str "%d"]) = .ok "100% of %d%" :=
    eq_ok_of_toOption (by decide +kernel)
  have hsecond : expand "%%%s" (.positional [.bool true]) = .ok "%true" :=
    eq_ok_of_toOption (by decide +kernel)
  have hfails : ∃ e, expand "%q" (.positional [.bool true]) = .error e := by
    have hnone : (expand "%q" (.positional [.bool true])).toOption = none := by decide +kernel
    cases h : expand "%q" (.positional [.bool true]) with
    | error e => exact ⟨e, rfl⟩
    | ok s =>
      rw [h] at hnone
      cases hnone
  have hnil : ([.str "%d"] : List Value) ≠ [] ∧ ([.bool true] : List Value) ≠ [] := by decide
  obtain ⟨e, he⟩ := hfails
  exact ⟨(expansion_composes.1 _ _ _ _ _ hnil.1 hnil.2 hfirst).1 _ hsecond,
    (expansion_composes.1 _ _ _ _ _ hnil.1 hnil.2 hfirst).2 e he⟩

end Message

end Logbook
