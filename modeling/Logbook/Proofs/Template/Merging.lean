import Logbook.Proofs.Results
import Logbook.Template.Piece
import Mathlib.Data.List.Chain

/-! # Merged literals

    Reading returns the characters of a template merged into literals.  There is one way to
    do so: the pieces are known from their segments, once no literal is empty and no two
    literals are neighbours.
-/

namespace Logbook.Template

variable {α : Type}

/-- The segments of a piece. -/
def Piece.segments : Piece α → List (Segment α)
  | literal text => text.map .char
  | field a => [.field a]

/-- A piece that is a literal text. -/
def Piece.isLiteral : Piece α → Bool
  | literal _ => true
  | field _ => false

/-- No literal is empty, and no two literals are neighbours. -/
structure Merged (ps : List (Piece α)) : Prop where
  nonempty : .literal [] ∉ ps
  apart : ps.IsChain fun p q => ¬ (p.isLiteral ∧ q.isLiteral)

theorem merged_consChar (c : Char) {ps : List (Piece α)} (h : Merged ps) :
    Merged (consChar c ps) := by
  fun_cases consChar c ps with
  | case1 text ps =>
    have hnonempty := h.nonempty
    have hapart := h.apart
    rw [List.isChain_cons] at hapart
    refine ⟨?_, List.isChain_cons.mpr hapart⟩
    simp only [List.mem_cons, not_or] at hnonempty ⊢
    exact ⟨by simp, hnonempty.2⟩
  | case2 ps hne =>
    refine ⟨by simpa using h.nonempty, List.isChain_cons.mpr ⟨?_, h.apart⟩⟩
    rintro q hq ⟨-, hliteral⟩
    cases q with
    | literal text =>
      obtain ⟨ps', rfl⟩ := List.head?_eq_some_iff.mp hq
      exact hne text ps' rfl
    | field a => cases hliteral

theorem segments_consChar (c : Char) (ps : List (Piece α)) :
    (consChar c ps).flatMap Piece.segments = .char c :: ps.flatMap Piece.segments := by
  fun_cases consChar c ps with
  | case1 text ps => simp [Piece.segments]
  | case2 => simp [Piece.segments]

theorem merged_merge (segs : List (Segment α)) : Merged (merge segs) := by
  fun_induction merge segs with
  | case1 => exact ⟨by simp, .nil⟩
  | case2 c rest ih => exact merged_consChar c ih
  | case3 a rest ih =>
    refine ⟨by simpa using ih.nonempty, ?_⟩
    rw [List.isChain_cons]
    exact ⟨by simp [Piece.isLiteral], ih.apart⟩

theorem segments_merge (segs : List (Segment α)) : (merge segs).flatMap Piece.segments = segs := by
  fun_induction merge segs with
  | case1 => rfl
  | case2 c rest ih => rw [segments_consChar, ih]
  | case3 a rest ih => rw [List.flatMap_cons, ih, Piece.segments, List.singleton_append]

/-- A text is merged into one literal, if no literal follows. -/
theorem merge_text {text : List Char} (hne : text ≠ []) {segs : List (Segment α)}
    (hnext : ∀ p ∈ (merge segs).head?, p.isLiteral = false) :
    merge (text.map .char ++ segs) = .literal text :: merge segs := by
  induction text with
  | nil => exact absurd rfl hne
  | cons c text ih =>
    rw [List.map_cons, List.cons_append, merge]
    by_cases htext : text = []
    · subst htext
      rw [List.map_nil, List.nil_append, consChar]
      intro text' ps heq
      have hliteral := hnext (.literal text') (by rw [heq]; rfl)
      cases hliteral
    · rw [ih htext, consChar]

/-- **Merging** is determined by its result: there is one list of pieces for given segments
    in which the literals are merged. -/
theorem merge_segments {ps : List (Piece α)} (h : Merged ps) :
    merge (ps.flatMap Piece.segments) = ps := by
  induction ps with
  | nil => rfl
  | cons p ps ih =>
    obtain ⟨happart, hchain⟩ := List.isChain_cons.mp h.apart
    have hps := ih ⟨fun hin => h.nonempty (List.mem_cons_of_mem _ hin), hchain⟩
    rw [List.flatMap_cons]
    cases p with
    | literal text =>
      have hne : text ≠ [] := by
        rintro rfl
        exact h.nonempty List.mem_cons_self
      rw [Piece.segments, merge_text hne, hps]
      rw [hps]
      intro q hq
      simpa [Piece.isLiteral] using happart q hq
    | field a => rw [Piece.segments, List.singleton_append, merge, hps]

theorem eq_merge_iff {ps : List (Piece α)} {segs : List (Segment α)} :
    ps = merge segs ↔ Merged ps ∧ ps.flatMap Piece.segments = segs := by
  constructor
  · rintro rfl
    exact ⟨merged_merge segs, segments_merge segs⟩
  · rintro ⟨hmerged, rfl⟩
    exact (merge_segments hmerged).symm

/-! ## Reading templates -/

/-- Pieces are read exactly if they are merged and their segments are read. -/
theorem map_merge_eq_ok_iff {read : Except Fault (List (Segment α))} {ps : List (Piece α)} :
    read.map merge = .ok ps ↔ Merged ps ∧ read = .ok (ps.flatMap Piece.segments) := by
  rw [map_eq_ok_iff]
  constructor
  · rintro ⟨segs, hsegs, hps⟩
    obtain ⟨hmerged, rfl⟩ := eq_merge_iff.mp hps
    exact ⟨hmerged, hsegs⟩
  · rintro ⟨hmerged, hsegs⟩
    exact ⟨_, hsegs, (merge_segments hmerged).symm⟩

/-- Where each token is read as its segment, whatever follows, so is a sequence of tokens. -/
theorem read_flatMap {τ : Type} {read : List Char → Except Fault (List (Segment α))}
    {text : τ → List Char} {segment : τ → Segment α} {tokens : List τ}
    (hstep : ∀ token ∈ tokens, ∀ s,
      read (text token ++ s) = (read s).map (segment token :: ·)) (s : List Char) :
    read (tokens.flatMap text ++ s) = (read s).map (tokens.map segment ++ ·) := by
  induction tokens with
  | nil =>
    rw [List.flatMap_nil, List.nil_append, List.map_nil]
    cases read s <;> rfl
  | cons token tokens ih =>
    have hrest := ih fun token' htoken' => hstep token' (List.mem_cons_of_mem _ htoken')
    rw [List.flatMap_cons, List.append_assoc, hstep token List.mem_cons_self, hrest]
    cases read s <;> rfl

end Logbook.Template
