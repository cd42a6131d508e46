import Logbook.Files.Walk
import Mathlib.Data.List.Basic
import Mathlib.Data.List.TakeWhile

/-! # Paths as they are written

    The text of a path to a file is a front, which is empty or ends in a slash, and a
    name.  A suffix changes the name alone; the parent is the front without what says
    nothing at its end; a name joined to a path is one turn more.
-/

namespace Logbook

/-- The start of a text has no more bytes than the text. -/
theorem Text.byteLength_le_of_prefix {s t : List Char} (h : s <+: t) :
    byteLength s ≤ byteLength t := by
  have hfold : ∀ (r : List Char) (n : Nat), n ≤ r.foldl (fun n c => n + c.utf8Size) n := by
    intro r
    induction r with
    | nil => exact Nat.le_refl
    | cons c r ih => exact fun n => Nat.le_trans (Nat.le_add_right _ _) (ih _)
  obtain ⟨r, rfl⟩ := h
  rw [byteLength, byteLength, List.foldl_append]
  exact hfold r _

namespace Path

variable {front cs ds : List Char} {ps qs : List (List Char)} {p : Path} {x : String}

/-! ## Pieces -/

theorem pieces_ne_nil (cs : List Char) : pieces cs ≠ [] := by
  cases cs with
  | nil => simp [pieces]
  | cons c cs =>
    rw [pieces]
    split
    · simp
    · split <;> simp

/-- A character that is no slash belongs to the first piece. -/
theorem pieces_cons {c : Char} (hc : c ≠ '/') (cs : List Char) :
    ∃ q qs, pieces cs = q :: qs ∧ pieces (c :: cs) = (c :: q) :: qs := by
  obtain ⟨q, qs, hqs⟩ := List.exists_cons_of_ne_nil (pieces_ne_nil cs)
  exact ⟨q, qs, hqs, by rw [pieces, if_neg hc, hqs]⟩

/-- A text without slashes is one piece. -/
theorem pieces_of_not_mem (h : '/' ∉ cs) : pieces cs = [cs] := by
  induction cs with
  | nil => rfl
  | cons c cs ih =>
    have hc : c ≠ '/' := fun heq => h (heq ▸ List.mem_cons_self)
    rw [pieces, if_neg hc, ih fun hmem => h (List.mem_cons_of_mem _ hmem)]

/-- The pieces on both sides of a slash. -/
theorem pieces_append (cs ds : List Char) : pieces (cs ++ '/' :: ds) = pieces cs ++ pieces ds := by
  induction cs with
  | nil => simp [pieces]
  | cons c cs ih =>
    by_cases hc : c = '/'
    · rw [hc, List.cons_append, pieces_slash, pieces_slash, ih, List.cons_append]
    · obtain ⟨q, qs, hqs, hcons⟩ := pieces_cons hc cs
      rw [hcons, List.cons_append, pieces, if_neg hc, ih, hqs]
      rfl

/-- No piece holds a slash. -/
theorem not_mem_of_mem_pieces {q : List Char} (h : q ∈ pieces cs) : '/' ∉ q := by
  induction cs generalizing q with
  | nil =>
    rw [pieces, List.mem_singleton] at h
    simp [h]
  | cons c cs ih =>
    by_cases hc : c = '/'
    · rw [hc, pieces_slash] at h
      rcases List.mem_cons.mp h with rfl | h
      · simp
      · exact ih h
    · -- Any other character joins the first piece, which the hypothesis has no slash in.
      obtain ⟨r, rs, hrs, hcons⟩ := pieces_cons hc cs
      rw [hcons] at h
      rw [hrs] at ih
      rcases List.mem_cons.mp h with rfl | h
      · simpa using ⟨Ne.symm hc, ih List.mem_cons_self⟩
      · exact ih (List.mem_cons_of_mem _ h)

/-- Pieces with slashes between them are those pieces again. -/
theorem pieces_intercalate (hps : ps ≠ []) (h : ∀ q ∈ ps, '/' ∉ q) :
    pieces (List.intercalate ['/'] ps) = ps := by
  induction ps with
  | nil => exact absurd rfl hps
  | cons q ps ih =>
    have hq := pieces_of_not_mem (h q List.mem_cons_self)
    cases ps with
    | nil => rwa [List.intercalate_singleton]
    | cons r ps =>
      have hrest := ih (by simp) fun q hq => h q (List.mem_cons_of_mem _ hq)
      rw [List.intercalate_cons_cons, List.append_assoc, List.singleton_append, pieces_append,
        hq, hrest, List.singleton_append]

/-- The pieces of a text with slashes between them are the text. -/
theorem intercalate_pieces (cs : List Char) : List.intercalate ['/'] (pieces cs) = cs := by
  induction cs with
  | nil => rfl
  | cons c cs ih =>
    by_cases hc : c = '/'
    · obtain ⟨q, qs, hqs⟩ := List.exists_cons_of_ne_nil (pieces_ne_nil cs)
      rw [hqs] at ih
      rw [hc, pieces_slash, hqs, List.intercalate_cons_cons, ih]
      rfl
    · obtain ⟨q, qs, hqs, hcons⟩ := pieces_cons hc cs
      rw [hqs] at ih
      rw [hcons]
      -- The character goes in front of the first piece, whether or not a slash follows that.
      cases qs with
      | nil =>
        rw [List.intercalate_singleton] at ih ⊢
        rw [ih]
      | cons r rs =>
        rw [List.intercalate_cons_cons] at ih ⊢
        rw [← ih, List.cons_append, List.cons_append]

/-- The text of pieces in two parts. -/
theorem intercalate_append (hps : ps ≠ []) (hqs : qs ≠ []) :
    List.intercalate ['/'] (ps ++ qs) =
      List.intercalate ['/'] ps ++ '/' :: List.intercalate ['/'] qs := by
  obtain ⟨r, rs, rfl⟩ := List.exists_cons_of_ne_nil hqs
  induction ps with
  | nil => exact absurd rfl hps
  | cons q ps ih =>
    cases ps with
    | nil =>
      rw [List.singleton_append, List.intercalate_cons_cons, List.intercalate_singleton,
        List.append_assoc, List.singleton_append]
    | cons p ps =>
      rw [List.cons_append, List.cons_append, List.intercalate_cons_cons,
        List.intercalate_cons_cons, ← List.cons_append, ih (by simp), List.append_assoc,
        List.append_assoc, List.append_assoc]

/-- A text is cut behind its last slash. -/
theorem exists_cut (cs : List Char) :
    ∃ front ds, cs = front ++ ds ∧ (front = [] ∨ front.getLast? = some '/') ∧ '/' ∉ ds := by
  rcases List.eq_nil_or_concat (pieces cs) with hnil | ⟨qs, ds, hqs⟩
  · exact absurd hnil (pieces_ne_nil cs)
  · rw [List.concat_eq_append] at hqs
    have hds : '/' ∉ ds := not_mem_of_mem_pieces (by rw [hqs]; simp)
    have htext := intercalate_pieces cs
    rw [hqs] at htext
    -- With one piece there is no slash at all, and nothing in front of it.
    by_cases hnil : qs = []
    · subst hnil
      exact ⟨[], ds, by simpa using htext.symm, .inl rfl, hds⟩
    · refine ⟨List.intercalate ['/'] qs ++ ['/'], ds, ?_, .inr (by simp), hds⟩
      rw [← htext, intercalate_append hnil (by simp), List.intercalate_singleton,
        List.append_assoc, List.singleton_append]

/-! ## Turns -/

/-- The turns of a text. -/
def turnsOf (cs : List Char) : List Part :=
  (if cs.head? == some '/' then [.root] else []) ++ (pieces cs).filterMap turn?

theorem turns_eq (p : Path) : p.turns = turnsOf p.text.toList := rfl

/-- A piece behind a front is one turn at most. -/
theorem turnsOf_append (hfront : front = [] ∨ front.getLast? = some '/') (h : '/' ∉ cs) :
    turnsOf (front ++ cs) = turnsOf front ++ (turn? cs).toList := by
  have hpiece : [cs].filterMap turn? = (turn? cs).toList := by
    cases hturn : turn? cs <;> simp [List.filterMap, hturn]
  rcases hfront with rfl | hslash
  · -- Without a front the piece begins the path, and it must not make that absolute.
    have hhead : cs.head? ≠ some '/' := fun heq => h (List.mem_of_mem_head? heq)
    rw [turnsOf, List.nil_append, pieces_of_not_mem h, hpiece]
    simp [hhead]
    rfl
  · obtain ⟨g, rfl⟩ := List.getLast?_eq_some_iff.mp hslash
    have hhead : (g ++ ['/'] ++ cs).head? = (g ++ ['/']).head? := by
      cases g <;> rfl
    have hnone : [([] : List Char)].filterMap turn? = [] := rfl
    rw [turnsOf, turnsOf, hhead, pieces_append g [], pieces, List.append_assoc g,
      List.singleton_append, pieces_append, pieces_of_not_mem h, List.filterMap_append,
      List.filterMap_append, hpiece, hnone, List.append_nil, List.append_assoc]

/-- The text of a path is a front and a name behind it. -/
structure Splits (p : Path) (front : List Char) (x : String) : Prop where
  text : p.text.toList = front ++ x.toList
  slash : front = [] ∨ front.getLast? = some '/'
  single : '/' ∉ x.toList
  name : turn? x.toList = some (.name x)

/-- What is a name between slashes. -/
theorem turn?_eq_name_iff : turn? cs = some (.name x) ↔
    cs = x.toList ∧ cs ≠ [] ∧ cs ≠ ['.'] ∧ cs ≠ ['.', '.'] := by
  unfold turn? part?
  constructor
  · -- The texts that are not names have turns of their own, or none.
    intro h
    split at h
    · cases h
    · split at h
      · cases h
      · split at h
        · cases h
        · simp_all
          rw [← h, String.toList_ofList]
  · rintro ⟨rfl, hnil, hdot, hdots⟩
    simp [hnil, hdot, hdots]

/-- A name is not empty. -/
theorem Splits.ne_nil (h : p.Splits front x) : x.toList ≠ [] := (turn?_eq_name_iff.mp h.name).2.1

/-- The name is the last turn. -/
theorem Splits.turns (h : p.Splits front x) : p.turns = turnsOf front ++ [.name x] := by
  rw [turns_eq, h.text, turnsOf_append h.slash h.single, h.name]
  rfl

/-- No slash comes after the name. -/
theorem Splits.endsInSlash (h : p.Splits front x) : p.endsInSlash = false := by
  have hlast : (front ++ x.toList).getLast? ≠ some '/' := by
    rw [List.getLast?_append_of_ne_nil _ h.ne_nil]
    exact fun heq => h.single (List.mem_of_getLast? heq)
  simpa [Path.endsInSlash, h.text] using hlast

/-- The name is that of the file. -/
theorem Splits.fileName? (h : p.Splits front x) : p.fileName? = some x := by
  obtain ⟨-, hnil, hdot, hup⟩ := turn?_eq_name_iff.mp h.name
  have hpart : part? x.toList = some (.name x) := by
    simp [part?, hnil, hdot, hup]
  -- The name is the last piece.
  obtain ⟨qs, hqs⟩ : ∃ qs, pieces p.text.toList = qs ++ [x.toList] := by
    rw [h.text]
    rcases h.slash with rfl | hslash
    · exact ⟨[], by rw [List.nil_append, pieces_of_not_mem h.single, List.nil_append]⟩
    · obtain ⟨cs, rfl⟩ := List.getLast?_eq_some_iff.mp hslash
      refine ⟨pieces cs, ?_⟩
      rw [List.append_assoc, List.singleton_append, pieces_append, pieces_of_not_mem h.single]
  have hlast : p.parts.getLast? = some (.name x) := by
    simp [parts, hqs, List.filterMap_append, hpart]
  rw [Path.fileName?, hlast]

/-- A path whose last turn is a name, with no slash after it, is a front and that name. -/
theorem splits_of_turns {as : List Part} (h : p.turns = as ++ [.name x])
    (hslash : p.endsInSlash = false) : ∃ front, p.Splits front x ∧ turnsOf front = as := by
  obtain ⟨front, cs, htext, hfront, hcs⟩ := exists_cut p.text.toList
  have hturns : turnsOf front ++ (turn? cs).toList = as ++ [.name x] := by
    rw [← h, turns_eq, htext, turnsOf_append hfront hcs]
  -- Without a name behind the front the text would end in a slash or be empty.
  cases hturn : turn? cs with
  | none =>
    have hnil : cs = [] := by
      unfold turn? part? at hturn
      split at hturn
      · cases hturn
      · split at hturn
        · simp_all
        · split at hturn <;> cases hturn
    subst hnil
    rcases hfront with rfl | hlast
    · rw [hturn] at hturns
      simp [turnsOf, pieces, turn?, part?] at hturns
    · simp [Path.endsInSlash, htext, hlast] at hslash
  | some a =>
    rw [hturn] at hturns
    obtain ⟨hfirst, hname⟩ := List.append_inj' hturns rfl
    obtain rfl : a = .name x := by simpa using hname
    obtain ⟨rfl, -⟩ := turn?_eq_name_iff.mp hturn
    exact ⟨front, ⟨htext, hfront, hcs, hturn⟩, hfirst⟩

/-! ## Other names in the same directory -/

/-- A suffix changes the name alone. -/
theorem Splits.suffix (h : p.Splits front x) {k : String} (hk : '/' ∉ k.toList) :
    Splits ⟨p.text ++ "." ++ k⟩ front (x ++ "." ++ k) := by
  obtain ⟨-, hnil, hdot, -⟩ := turn?_eq_name_iff.mp h.name
  have hname : (x ++ "." ++ k).toList = x.toList ++ '.' :: k.toList := by simp
  refine ⟨by simp [h.text], h.slash, ?_, turn?_eq_name_iff.mpr ⟨rfl, ?_, ?_, ?_⟩⟩
  · rw [hname, List.mem_append, List.mem_cons]
    simp [h.single, hk]
  · simp [hname]
  · rw [hname]
    intro heq
    rcases List.append_eq_cons_iff.mp heq with ⟨hx, -⟩ | ⟨_, -, hrest⟩
    · exact hnil hx
    · simp at hrest
  · rw [hname]
    intro heq
    -- A name in front of the dot would have to be a dot itself.
    have hlen := congrArg List.length heq
    simp only [List.length_append, List.length_cons, List.length_nil] at hlen
    match hx : x.toList with
    | [] => exact hnil hx
    | [c] =>
      rw [hx] at heq hdot
      simp_all
    | _ :: _ :: _ =>
      rw [hx, List.length_cons, List.length_cons] at hlen
      omega

/-! ## The parent -/

/-- What is trimmed off says nothing. -/
theorem exists_trimmed (ps : List (List Char)) :
    ∃ idle, ps = trimPieces ps ++ idle ∧ ∀ q ∈ idle, isIdle q = true := by
  cases ps with
  | nil => exact ⟨[], rfl, by simp⟩
  | cons q ps =>
    refine ⟨(ps.reverse.takeWhile isIdle).reverse, ?_, fun r hr => ?_⟩
    · rw [trimPieces, List.cons_append, ← List.reverse_append, List.takeWhile_append_dropWhile,
        List.reverse_reverse]
    · exact List.all_eq_true.mp List.all_takeWhile r (List.mem_reverse.mp hr)

theorem trimPieces_ne_nil (h : ps ≠ []) : trimPieces ps ≠ [] := by
  cases ps with
  | nil => exact absurd rfl h
  | cons q ps => simp [trimPieces]

/-- What says nothing is trimmed off behind something that says something. -/
theorem trimPieces_concat {q : List Char} {idle : List (List Char)} (hq : isIdle q = false)
    (hidle : ∀ r ∈ idle, isIdle r = true) : trimPieces (ps ++ q :: idle) = ps ++ [q] := by
  have hnone : idle.reverse.dropWhile isIdle = [] :=
    List.dropWhile_eq_nil_iff.mpr fun r hr => hidle r (List.mem_reverse.mp hr)
  cases ps with
  | nil => simp [trimPieces, hnone]
  | cons p ps => simp [trimPieces, List.dropWhile_append, hnone, hq]

/-- What says something is a turn. -/
theorem turn?_of_not_idle {q : List Char} (h : isIdle q = false) : ∃ a, turn? q = some a := by
  simp only [isIdle, Bool.or_eq_false_iff, decide_eq_false_iff_not] at h
  unfold turn? part?
  rw [if_neg h.2, if_neg (by simp [h.1, h.2])]
  split
  · exact ⟨_, rfl⟩
  · exact ⟨_, rfl⟩

/-- What is left after trimming ends in something that says something, unless it is one
    piece. -/
theorem trimPieces_last {q : List Char} (h : trimPieces ps = qs ++ [q]) (hqs : qs ≠ []) :
    isIdle q = false := by
  cases ps with
  | nil => simp [trimPieces] at h
  | cons p ps =>
    obtain ⟨r, rs, rfl⟩ := List.exists_cons_of_ne_nil hqs
    obtain ⟨-, hrest⟩ := List.cons.inj h
    have hfirst : ps.reverse.dropWhile isIdle = q :: rs.reverse := by
      rw [← List.reverse_reverse (ps.reverse.dropWhile isIdle), hrest]
      simp
    have hnot := List.head_dropWhile_not isIdle (by rw [hfirst]; simp)
    simpa [hfirst] using hnot

/-- What says nothing is no turn, or leaves the way where it is. -/
theorem filterMap_turn?_of_idle (h : ∀ q ∈ ps, isIdle q = true) :
    ∀ a ∈ ps.filterMap turn?, a = .here := by
  intro a ha
  obtain ⟨q, hq, hturn⟩ := List.mem_filterMap.mp ha
  have hidle := h q hq
  simp only [isIdle, Bool.or_eq_true, decide_eq_true_eq] at hidle
  rcases hidle with rfl | rfl <;> simp_all [turn?, part?]

/-- The parent is what the pieces before the last one say. -/
theorem parent?_eq {q : List Char} {idle : List (List Char)}
    (hp : pieces p.text.toList = ps ++ q :: idle) (hq : isIdle q = false)
    (hidle : ∀ r ∈ idle, isIdle r = true) :
    p.parent? = some ⟨if trimPieces ps = [[]] then "/"
      else String.ofList (List.intercalate ['/'] (trimPieces ps))⟩ := by
  -- The last piece says something, so this is not the path that is only a root.
  have hne : ps ++ [q] ≠ [[]] := by
    intro heq
    have hlast : q = [] := by simpa using congrArg List.getLast? heq
    simp [hlast, isIdle] at hq
  unfold Path.parent?
  rw [hp, trimPieces_concat hq hidle]
  split
  · next heq => simp at heq
  · next heq => exact absurd heq hne
  · rw [List.dropLast_concat]
    split
    · next heq => rw [if_pos heq]
    · next hslash => rw [if_neg hslash]

/-- A text begins with the text of its first pieces. -/
theorem prefixOf_pieces {g : List Char} {trimmed : List (List Char)}
    (h : pieces g = ps ++ trimmed) (hps : ps ≠ []) : List.intercalate ['/'] ps <+: g := by
  have hg := intercalate_pieces g
  rw [h] at hg
  rw [← hg]
  by_cases htrimmed : trimmed = []
  · exact ⟨[], by rw [htrimmed, List.append_nil, List.append_nil]⟩
  · rw [intercalate_append hps htrimmed]
    exact List.prefix_append _ _

/-- The way of a front is that of its pieces: the slash at its end adds an empty one, which
    is no turn. -/
theorem turnsOf_slash {g : List Char} {trimmed : List (List Char)}
    (h : pieces g = ps ++ trimmed) :
    turnsOf (g ++ ['/']) = (if (g ++ ['/']).head? == some '/' then [.root] else []) ++
      ps.filterMap turn? ++ trimmed.filterMap turn? := by
  rw [turnsOf, pieces_append g [], List.filterMap_append, h, List.filterMap_append,
    List.append_assoc, List.append_assoc]
  simp [pieces, turn?, part?]

/-- The parent behind a front that is not empty is that front without what says nothing at
    its end. -/
theorem parent?_of_front {g q : List Char} {idle : List (List Char)}
    (hp : pieces p.text.toList = pieces g ++ q :: idle) (hq : isIdle q = false)
    (hidle : ∀ r ∈ idle, isIdle r = true) :
    ∃ dir here, p.parent? = some dir ∧ dir.text.toList ≠ [] ∧
      dir.text.toList <+: g ++ ['/'] ∧ turnsOf (g ++ ['/']) = dir.turns ++ here ∧
      ∀ a ∈ here, a = .here := by
  have hparent := parent?_eq hp hq hidle
  -- The front is what the parent spells, then pieces that say nothing.
  obtain ⟨trimmed, htrimmed, hall⟩ := exists_trimmed (pieces g)
  have hne := trimPieces_ne_nil (pieces_ne_nil g)
  have hmem : ∀ q ∈ trimPieces (pieces g), '/' ∉ q := by
    intro q hq
    have hpiece : q ∈ pieces g := by
      rw [htrimmed]
      exact List.mem_append_left _ hq
    exact not_mem_of_mem_pieces hpiece
  have hfront := turnsOf_slash htrimmed
  by_cases hroot : trimPieces (pieces g) = [[]]
  · -- Nothing but the root is left of the front.
    have hhead : (g ++ ['/']).head? = some '/' := by
      rw [← intercalate_pieces g, htrimmed, hroot]
      cases trimmed <;> rfl
    rw [if_pos hroot] at hparent
    refine ⟨⟨"/"⟩, trimmed.filterMap turn?, hparent, by simp, ?_, ?_,
      filterMap_turn?_of_idle hall⟩
    · obtain ⟨rest, hrest⟩ := List.head?_eq_some_iff.mp hhead
      exact ⟨rest, hrest.symm⟩
    · rw [hfront, hhead, hroot]
      rfl
  · rw [if_neg hroot] at hparent
    have hpieces' := pieces_intercalate hne hmem
    -- If what is left spelled nothing it would be the one empty piece of the root.
    obtain ⟨c, cs, hcs⟩ : ∃ c cs, List.intercalate ['/'] (trimPieces (pieces g)) = c :: cs := by
      refine List.exists_cons_of_ne_nil fun hnil => hroot ?_
      rw [← hpieces', hnil]
      rfl
    have hinit : c :: cs <+: g ++ ['/'] := by
      rw [← hcs]
      exact (prefixOf_pieces htrimmed hne).trans (List.prefix_append g ['/'])
    -- Parent and front begin with the same character, so both are absolute or neither is.
    have hhead : (g ++ ['/']).head? = some c := by
      obtain ⟨rest, hrest⟩ := hinit
      rw [← hrest]
      rfl
    refine ⟨_, trimmed.filterMap turn?, hparent, ?_, ?_, ?_, filterMap_turn?_of_idle hall⟩
    · simp [hcs]
    · rwa [String.toList_ofList, hcs]
    · rw [hfront, turns_eq, String.toList_ofList, turnsOf, hpieces', hhead, hcs]
      rfl

/-- The parent of a path to a file: nothing without a front, else the front without
    what says nothing at its end. -/
theorem Splits.parent? (h : p.Splits front x) :
    (front = [] ∧ p.parent? = some ⟨""⟩) ∨
      ∃ dir idle, p.parent? = some dir ∧ dir.text.toList ≠ [] ∧ dir.text.toList <+: front ∧
        turnsOf front = dir.turns ++ idle ∧ ∀ a ∈ idle, a = .here := by
  obtain ⟨-, hnil, hdot, -⟩ := turn?_eq_name_iff.mp h.name
  have hbusy : isIdle x.toList = false := by simp [isIdle, hnil, hdot]
  rcases h.slash with rfl | hslash
  · refine .inl ⟨rfl, ?_⟩
    have hpieces : pieces p.text.toList = [] ++ x.toList :: [] := by
      rw [h.text, List.nil_append, pieces_of_not_mem h.single, List.nil_append]
    rw [parent?_eq hpieces hbusy nofun]
    rfl
  · obtain ⟨g, rfl⟩ := List.getLast?_eq_some_iff.mp hslash
    have hpieces : pieces p.text.toList = pieces g ++ x.toList :: [] := by
      rw [h.text, List.append_assoc, List.singleton_append, pieces_append,
        pieces_of_not_mem h.single]
    exact .inr (parent?_of_front hpieces hbusy nofun)

/-- The way of a path begins with the way of its parent, and goes on from there. -/
theorem turns_of_parent? {dir : Path} (h : p.parent? = some dir) :
    dir.text.toList = [] ∨ ∃ here rest, p.turns = dir.turns ++ here ++ rest ∧
      (∀ a ∈ here, a = .here) ∧ rest ≠ [] ∧ dir.text.toList ≠ [] ∧
      dir.text.toList <+: p.text.toList := by
  obtain ⟨idle, htrimmed, hidle⟩ := exists_trimmed (pieces p.text.toList)
  rcases List.eq_nil_or_concat (trimPieces (pieces p.text.toList)) with hnil | ⟨qs, q, hqs⟩
  · exact absurd hnil (trimPieces_ne_nil (pieces_ne_nil _))
  rw [List.concat_eq_append] at hqs
  by_cases hfirst : qs = []
  · -- A single piece has nothing in front of it.
    left
    subst hfirst
    unfold Path.parent? at h
    rw [hqs, List.nil_append] at h
    split at h
    · cases h
    · cases h
    · obtain rfl := Option.some.inj h
      simp [trimPieces]
  · right
    have hbusy := trimPieces_last hqs hfirst
    have hslash : ∀ r ∈ qs, '/' ∉ r := by
      intro r hr
      have hpiece : r ∈ pieces p.text.toList := by
        rw [htrimmed, hqs]
        simp [hr]
      exact not_mem_of_mem_pieces hpiece
    -- Cut in front of its last piece that says something, the path has the shape of a front.
    have hall : pieces p.text.toList = pieces (List.intercalate ['/'] qs) ++ q :: idle := by
      rw [pieces_intercalate hfirst hslash]
      conv => lhs; rw [htrimmed, hqs]
      simp
    obtain ⟨dir', here, hparent, hne, hinit, hturns, hhere⟩ := parent?_of_front hall hbusy hidle
    obtain rfl : dir = dir' := Option.some.inj (h.symm.trans hparent)
    have htext : p.text.toList =
        List.intercalate ['/'] qs ++ ['/'] ++ List.intercalate ['/'] (q :: idle) := by
      rw [← intercalate_pieces p.text.toList, hall, pieces_intercalate hfirst hslash,
        intercalate_append hfirst (List.cons_ne_nil q idle), List.append_assoc,
        List.singleton_append]
    generalize List.intercalate ['/'] qs = g at hall hinit hturns htext
    have hhead : p.text.toList.head? = (g ++ ['/']).head? := by
      rw [htext]
      cases g <;> rfl
    have hnone : (pieces []).filterMap turn? = [] := rfl
    refine ⟨here, (q :: idle).filterMap turn?, ?_, hhere, ?_, hne,
      htext ▸ hinit.trans (List.prefix_append _ _)⟩
    · rw [← hturns, turns_eq, turnsOf, turnsOf, hhead, hall, pieces_append g [],
        List.filterMap_append, List.filterMap_append, hnone, List.append_nil, List.append_assoc]
    · -- The last piece is a turn that the parent does not take.
      obtain ⟨a, ha⟩ := turn?_of_not_idle hbusy
      rw [List.filterMap_cons_some ha]
      exact List.cons_ne_nil _ _

/-! ## Names below a path -/

/-- A name joined to a path is one turn more. -/
theorem splits_join {dir : Path} (hdir : dir.text.toList ≠ []) (hx : '/' ∉ x.toList)
    (hname : turn? x.toList = some (.name x)) :
    ∃ front, Splits (dir.join ⟨x⟩) front x ∧ turnsOf front = dir.turns := by
  have habs : (⟨x⟩ : Path).isAbsolute = false := by
    have hhead : x.toList.head? ≠ some '/' := fun heq => hx (List.mem_of_mem_head? heq)
    simpa [isAbsolute] using hhead
  have hempty : dir.text.isEmpty = false := by
    rw [Bool.eq_false_iff]
    intro heq
    exact hdir (by simpa using heq)
  unfold join
  rw [habs, hempty]
  simp only [Bool.or_self, Bool.false_eq_true, if_false]
  by_cases hslash : dir.text.toList.getLast? = some '/'
  · refine ⟨dir.text.toList, ?_, rfl⟩
    rw [if_pos (by simpa using hslash)]
    exact ⟨by simp, .inr hslash, hx, hname⟩
  · -- A slash is put between, and the empty piece behind it is no turn.
    refine ⟨dir.text.toList ++ ['/'], ?_, ?_⟩
    · rw [if_neg (by simpa using hslash)]
      exact ⟨by simp, .inr (by simp), hx, hname⟩
    · have hhead : (dir.text.toList ++ ['/']).head? = dir.text.toList.head? := by
        obtain ⟨c, cs, hcs⟩ := List.exists_cons_of_ne_nil hdir
        rw [hcs]
        rfl
      rw [turns_eq, turnsOf, turnsOf, hhead, pieces_append _ [], List.filterMap_append]
      simp [pieces, turn?, part?]

end Path

end Logbook
