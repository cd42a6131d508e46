import Logbook.Files.Operations
import Logbook.Proofs.Files.Entries

/-! # Ways through a tree

    The way of a path is a chain of turns, names of directories and links.  Ways can
    be cut and put together, every walk follows one, and a tree that keeps the
    directories and the links that a way uses keeps the way.
-/

namespace Logbook

namespace Path.Part

/-- The part is a name. -/
def isName : Part → Bool
  | .name _ => true
  | _ => false

/-- Where a part that is no name leads. -/
def turnFrom (here : Location) : Part → Location
  | .root => []
  | .up => here.dropLast
  | _ => here

end Path.Part

namespace FileSystem

/-- **Way**: the parts `ps`, followed from one location, lead to another, and of `n`
    links that may be used `m` are left. -/
inductive Way (fs : FileSystem) : Nat → Location → List Path.Part → Location → Nat → Prop where
  | nil {n here} : Way fs n here [] here n
  | turn {n here part ps d m} (hpart : part.isName = false) (hhere : fs.isDirectoryAt here = true)
      (rest : Way fs n (part.turnFrom here) ps d m) : Way fs n here (part :: ps) d m
  | name {n here s ps d m} (hhere : fs.isDirectoryAt here = true) (hs : isTooLong s = false)
      (hnext : fs.isDirectoryAt (here ++ [s]) = true) (rest : Way fs n (here ++ [s]) ps d m) :
      Way fs n here (.name s :: ps) d m
  | link {n here s t ps d m} (hhere : fs.isDirectoryAt here = true) (hs : isTooLong s = false)
      (hlink : fs.entryAt? (here ++ [s]) = some (.link t)) (rest : Way fs n here (t.turns ++ ps) d m) :
      Way fs (n + 1) here (.name s :: ps) d m

variable {fs fs' : FileSystem} {follow : Bool → Bool} {n m k : Nat} {here d l : Location}
  {part a : Path.Part} {ps qs : List Path.Part} {slash : Bool} {s : String} {t : Path}

/-- A location holds a directory if some directory is there. -/
theorem isDirectoryAt_iff : fs.isDirectoryAt l = true ↔ ∃ id, fs.entryAt? l = some (.directory id) := by
  unfold isDirectoryAt
  split <;> simp_all

theorem isDirectoryAt_root (fs : FileSystem) : fs.isDirectoryAt [] = true := rfl

namespace Way

/-- Ways can be cut. -/
theorem split (h : fs.Way n here (ps ++ qs) d m) :
    ∃ l k, fs.Way n here ps l k ∧ fs.Way k l qs d m := by
  generalize hall : ps ++ qs = all at h
  induction h generalizing ps with
  | nil =>
    obtain ⟨rfl, rfl⟩ := List.append_eq_nil_iff.mp hall
    exact ⟨_, _, nil, nil⟩
  | turn hpart hhere rest ih =>
    rcases List.append_eq_cons_iff.mp hall with ⟨rfl, rfl⟩ | ⟨ps, rfl, hrest⟩
    · exact ⟨_, _, nil, turn hpart hhere rest⟩
    · obtain ⟨l, k, hfirst, hsecond⟩ := ih hrest.symm
      exact ⟨l, k, turn hpart hhere hfirst, hsecond⟩
  | name hhere hs hnext rest ih =>
    rcases List.append_eq_cons_iff.mp hall with ⟨rfl, rfl⟩ | ⟨ps, rfl, hrest⟩
    · exact ⟨_, _, nil, name hhere hs hnext rest⟩
    · obtain ⟨l, k, hfirst, hsecond⟩ := ih hrest.symm
      exact ⟨l, k, name hhere hs hnext hfirst, hsecond⟩
  | @link n here s t ps' d m hhere hs hlink rest ih =>
    rcases List.append_eq_cons_iff.mp hall with ⟨rfl, rfl⟩ | ⟨ps, rfl, hrest⟩
    · exact ⟨_, _, nil, link hhere hs hlink rest⟩
    · have hall : (t.turns ++ ps) ++ qs = t.turns ++ ps' := by rw [hrest, List.append_assoc]
      obtain ⟨l, k, hfirst, hsecond⟩ := ih hall
      exact ⟨l, k, link hhere hs hlink hfirst, hsecond⟩

/-- No links come back. -/
theorem le (h : fs.Way n here ps d m) : m ≤ n := by
  induction h with
  | nil => exact Nat.le_refl _
  | turn _ _ _ ih | name _ _ _ _ ih => exact ih
  | link _ _ _ _ ih => exact Nat.le_succ_of_le ih

end Way

/-! ## Trees that keep a way -/

/-- **Covers**: a tree has the directories and the links of another. -/
structure Covers (fs' fs : FileSystem) : Prop where
  directory : ∀ {l}, fs.isDirectoryAt l = true → fs'.isDirectoryAt l = true
  link : ∀ {l t}, fs.entryAt? l = some (.link t) → fs'.entryAt? l = some (.link t)

/-- What leads somewhere in a tree leads there in every tree that covers it. -/
theorem Way.mono (h : fs.Way n here ps d m) (hc : fs'.Covers fs) : fs'.Way n here ps d m := by
  induction h with
  | nil => exact nil
  | turn hpart hhere _ ih => exact turn hpart (hc.directory hhere) ih
  | name hhere hs hnext _ ih => exact name (hc.directory hhere) hs (hc.directory hnext) ih
  | link hhere hs hlink _ ih => exact link (hc.directory hhere) hs (hc.link hlink) ih

/-- A tree covers what another holds outside the names in which they differ. -/
theorem SameOutside.covers {own : String → Bool} (h : SameOutside d own fs fs') :
    fs'.Covers (fs.without d own) := by
  have hentry : ∀ {l e}, (fs.without d own).entryAt? l = some e → fs'.entryAt? l = some e := by
    intro l e he
    rw [entryAt?_without] at he
    split at he
    · cases he
    · next hl => rw [h l (by simpa using hl), he]
  refine ⟨fun hdir => ?_, hentry⟩
  obtain ⟨id, hid⟩ := isDirectoryAt_iff.mp hdir
  exact isDirectoryAt_iff.mpr ⟨id, hentry hid⟩

/-- Trees that differ in own names alone are the same without them. -/
theorem SameOutside.covers_without {own : String → Bool} (h : SameOutside d own fs fs') :
    (fs'.without d own).Covers (fs.without d own) := by
  have hentry : ∀ l, (fs'.without d own).entryAt? l = (fs.without d own).entryAt? l := by
    intro l
    rw [entryAt?_without, entryAt?_without]
    cases hl : owned d own l with
    | true => rfl
    | false => exact h l hl
  refine ⟨fun {l} hdir => ?_, fun {l t} ht => (hentry l).trans ht⟩
  obtain ⟨id, hid⟩ := isDirectoryAt_iff.mp hdir
  exact isDirectoryAt_iff.mpr ⟨id, (hentry l).trans hid⟩

/-! ## Walks -/

theorem advance_turn (hpart : part.isName = false) (hhere : fs.isDirectoryAt here = true)
    (hps : ps ≠ []) : fs.advance here (part :: ps) = fs.advance (part.turnFrom here) ps := by
  obtain ⟨id, hid⟩ := isDirectoryAt_iff.mp hhere
  have hne : ps.isEmpty = false := by simpa using hps
  cases part <;> simp_all [advance, Path.Part.isName, Path.Part.turnFrom]

theorem advance_name (hhere : fs.isDirectoryAt here = true) (hs : isTooLong s = false)
    (hnext : fs.isDirectoryAt (here ++ [s]) = true) (hps : ps ≠ []) :
    fs.advance here (.name s :: ps) = fs.advance (here ++ [s]) ps := by
  obtain ⟨id, hid⟩ := isDirectoryAt_iff.mp hhere
  obtain ⟨id', hid'⟩ := isDirectoryAt_iff.mp hnext
  have hne : ps.isEmpty = false := by simpa using hps
  simp [advance, hid, hid', hne, hs]

theorem advance_link (hhere : fs.isDirectoryAt here = true) (hs : isTooLong s = false)
    (hlink : fs.entryAt? (here ++ [s]) = some (.link t)) (hps : ps ≠ []) :
    fs.advance here (.name s :: ps) = .ok (.link here t ps) := by
  obtain ⟨id, hid⟩ := isDirectoryAt_iff.mp hhere
  have hne : ps.isEmpty = false := by simpa using hps
  simp [advance, hid, hne, hs, hlink]

theorem advance_last (hhere : fs.isDirectoryAt here = true) :
    fs.advance here [a] = .ok (.last here a) := by
  obtain ⟨id, hid⟩ := isDirectoryAt_iff.mp hhere
  exact advance_singleton hid a

/-- Stretches that come out the same are walked the same. -/
theorem walk_congr {here' : Location} (h : fs.advance here ps = fs.advance here' qs) :
    fs.walk follow n here ps slash = fs.walk follow n here' qs slash := by
  unfold walk
  rw [h]

/-- A link on the way takes up one of those that may be used. -/
theorem walk_succ_of_link (h : fs.advance here ps = .ok (.link l t qs)) :
    fs.walk follow (n + 1) here ps slash = fs.walk follow n l (t.turns ++ qs) slash := by
  rw [walk.eq_1, h]

/-- With none left a link is the end. -/
theorem walk_zero_of_link (h : fs.advance here ps = .ok (.link l t qs)) :
    fs.walk follow 0 here ps slash = .error .tooManyLinks := by
  rw [walk.eq_1, h]

/-- Without links at the end the walk ends before the last part. -/
theorem walk_of_last (h : fs.advance here ps = .ok (.last d part))
    (hlink : ∀ t, fs.look ⟨d, part, slash⟩ = .ok (some (.link t)) → follow slash = false) :
    fs.walk follow n here ps slash = .ok ⟨d, part, slash⟩ := by
  rw [walk.eq_1, h]
  dsimp only
  split
  · next t ht => simp [hlink t ht]
  · rfl

/-- A link at the end is walked on from the directory that it is in. -/
theorem walk_succ_of_last_link (h : fs.advance here ps = .ok (.last d part))
    (hlink : fs.look ⟨d, part, slash⟩ = .ok (some (.link t))) (hfollow : follow slash = true) :
    fs.walk follow (n + 1) here ps slash =
      fs.walk follow n d t.turns (slash || t.endsInSlash) := by
  rw [walk.eq_1, h]
  simp only [hlink, hfollow, if_true]

/-- A walk may start behind a way. -/
theorem Way.walk_append (h : fs.Way n here ps l k) (hqs : qs ≠ []) :
    fs.walk follow n here (ps ++ qs) slash = fs.walk follow k l qs slash := by
  have hne : ∀ rs : List Path.Part, rs ++ qs ≠ [] := fun rs => by simp [hqs]
  induction h with
  | nil => rfl
  | turn hpart hhere _ ih =>
    rw [← ih]
    exact walk_congr (advance_turn hpart hhere (hne _))
  | name hhere hs hnext _ ih =>
    rw [← ih]
    exact walk_congr (advance_name hhere hs hnext (hne _))
  | link hhere hs hlink _ ih =>
    rw [← ih, List.append_assoc]
    exact walk_succ_of_link (advance_link hhere hs hlink (hne _))

/-- What has to be followed starts in a directory. -/
theorem isDirectoryAt_of_advance {stop : Stop} (h : fs.advance here ps = .ok stop) (hps : ps ≠ []) :
    fs.isDirectoryAt here = true := by
  cases ps with
  | nil => exact absurd rfl hps
  | cons part rest =>
    rw [isDirectoryAt_iff]
    rw [advance.eq_def] at h
    dsimp only at h
    split at h
    · cases h
    · cases h
    · cases h
    · next id hid => exact ⟨id, hid⟩

/-- The first step of a stretch that does not end with it. -/
theorem advance_cases {stop : Stop} (h : fs.advance here (part :: ps) = .ok stop) (hps : ps ≠ []) :
    (part.isName = false ∧ fs.advance (part.turnFrom here) ps = .ok stop) ∨
      ∃ s, part = .name s ∧ isTooLong s = false ∧
        ((∃ t, fs.entryAt? (here ++ [s]) = some (.link t) ∧ stop = .link here t ps) ∨
          fs.advance (here ++ [s]) ps = .ok stop) := by
  have hhere := isDirectoryAt_of_advance h (List.cons_ne_nil _ _)
  cases hpart : part.isName with
  | false => exact .inl ⟨rfl, advance_turn hpart hhere hps ▸ h⟩
  | true =>
    obtain ⟨s, rfl⟩ : ∃ s, part = .name s := by
      cases part <;> simp_all [Path.Part.isName]
    obtain ⟨id, hid⟩ := isDirectoryAt_iff.mp hhere
    have hne : ps.isEmpty = false := by simpa using hps
    refine .inr ⟨s, rfl, ?_⟩
    rw [advance] at h
    simp only [hid, hne, Bool.false_eq_true, if_false] at h
    split at h
    · cases h
    · next hs =>
      refine ⟨by simpa using hs, ?_⟩
      split at h
      · next t ht => exact .inl ⟨t, ht, by simpa using h.symm⟩
      · exact .inr h

/-- A stretch that ends before the last part is a way without links; one that ends at
    a link is the start of a way through that link. -/
theorem advance_spec {stop : Stop} (h : fs.advance here (ps ++ [a]) = .ok stop) :
    (∃ d, stop = .last d a ∧ fs.isDirectoryAt d = true ∧ ∀ n, fs.Way n here ps d n) ∨
      ∃ l t rest, stop = .link l t (rest ++ [a]) ∧
        ∀ n d m, fs.Way n l (t.turns ++ rest) d m → fs.Way (n + 1) here ps d m := by
  induction ps generalizing here with
  | nil =>
    have hhere := isDirectoryAt_of_advance h (by simp)
    rw [List.nil_append, advance_last hhere] at h
    exact .inl ⟨here, by simpa using h.symm, hhere, fun _ => .nil⟩
  | cons part ps ih =>
    have hhere := isDirectoryAt_of_advance h (by simp)
    rcases advance_cases h (by simp) with ⟨hpart, hrest⟩ | ⟨s, rfl, hs, ⟨t, ht, rfl⟩ | hrest⟩
    · rcases ih hrest with ⟨d, rfl, hd, hway⟩ | ⟨l, t, rest, rfl, hway⟩
      · exact .inl ⟨d, rfl, hd, fun n => .turn hpart hhere (hway n)⟩
      · exact .inr ⟨l, t, rest, rfl, fun n d m hw => .turn hpart hhere (hway n d m hw)⟩
    · exact .inr ⟨here, t, ps, rfl, fun n d m hw => .link hhere hs ht hw⟩
    · have hnext := isDirectoryAt_of_advance hrest (by simp)
      rcases ih hrest with ⟨d, rfl, hd, hway⟩ | ⟨l, t, rest, rfl, hway⟩
      · exact .inl ⟨d, rfl, hd, fun n => .name hhere hs hnext (hway n)⟩
      · exact .inr ⟨l, t, rest, rfl, fun n d m hw => .name hhere hs hnext (hway n d m hw)⟩

/-- The way that a walk has gone when it does not follow a link at its end. -/
theorem way_of_walk {e : Ending} (hfollow : follow slash = false)
    (h : fs.walk follow n here (ps ++ [a]) slash = .ok e) :
    ∃ d m, e = ⟨d, a, slash⟩ ∧ fs.isDirectoryAt d = true ∧ fs.Way n here ps d m := by
  -- On the number of links that may still be followed: each uses one up.
  induction n generalizing here ps with
  | zero =>
    cases hadv : fs.advance here (ps ++ [a]) with
    | error e =>
      rw [walk_of_error hadv] at h
      cases h
    | ok stop =>
      rcases advance_spec hadv with ⟨d, rfl, hd, hway⟩ | ⟨l, t, rest, rfl, -⟩
      · rw [walk_of_last hadv fun _ _ => hfollow] at h
        exact ⟨d, 0, by simpa using h.symm, hd, hway 0⟩
      · rw [walk_zero_of_link hadv] at h
        cases h
  | succ n ih =>
    cases hadv : fs.advance here (ps ++ [a]) with
    | error e =>
      rw [walk_of_error hadv] at h
      cases h
    | ok stop =>
      rcases advance_spec hadv with ⟨d, rfl, hd, hway⟩ | ⟨l, t, rest, rfl, hway⟩
      · rw [walk_of_last hadv fun _ _ => hfollow] at h
        exact ⟨d, n + 1, by simpa using h.symm, hd, hway (n + 1)⟩
      · rw [walk_succ_of_link hadv, ← List.append_assoc] at h
        obtain ⟨d, m, rfl, hd, hrest⟩ := ih h
        exact ⟨d, m, rfl, hd, hway n d m hrest⟩

/-- The walk of a way whose last part is not replaced ends before that part. -/
theorem Way.walk_last (h : fs.Way n here ps d m) (hd : fs.isDirectoryAt d = true)
    (hlink : ∀ t, fs.look ⟨d, a, slash⟩ = .ok (some (.link t)) → follow slash = false) :
    fs.walk follow n here (ps ++ [a]) slash = .ok ⟨d, a, slash⟩ := by
  rw [h.walk_append (List.cons_ne_nil a [])]
  exact walk_of_last (advance_last hd) hlink

/-- A way to a directory is walked to something that is there: to the directory itself,
    if links at the end are followed, else perhaps to a link to it. -/
theorem Way.walk_directory (h : fs.Way n here ps d m) (hhere : fs.isDirectoryAt here = true)
    (hd : fs.isDirectoryAt d = true) (slash c : Bool) :
    ∃ e, fs.walk (fun _ => c) n here ps slash = .ok e ∧
      ((∃ id, fs.look e = .ok (some (.directory id)) ∧ e.location = d) ∨
        c = false ∧ ∃ t, fs.look e = .ok (some (.link t))) := by
  obtain ⟨id, hid⟩ := isDirectoryAt_iff.mp hd
  induction n using Nat.strongRecOn generalizing here ps slash with
  | ind n ih =>
    rcases List.eq_nil_or_concat ps with rfl | ⟨qs, a, rfl⟩
    · cases h with
      | nil =>
        have hlook : fs.look ⟨d, .here, slash⟩ = .ok (some (.directory id)) := by
          simpa [look, Ending.location] using hid
        refine ⟨⟨d, .here, slash⟩, walk_of_last rfl fun t ht => ?_, .inl ⟨id, hlook, rfl⟩⟩
        rw [hlook] at ht
        cases ht
    · rw [List.concat_eq_append] at h ⊢
      obtain ⟨l, k, hfirst, hlast⟩ := h.split
      cases hlast with
      | turn hpart hl hrest =>
        cases hrest with
        | nil =>
          have hloc : (⟨l, a, slash⟩ : Ending).location = a.turnFrom l := by
            cases a <;> simp_all [Ending.location, Path.Part.turnFrom, Path.Part.isName]
          have hlook : fs.look ⟨l, a, slash⟩ = .ok (some (.directory id)) := by
            rw [← hid, ← hloc]
            cases a <;> simp_all [look, Path.Part.isName]
          refine ⟨⟨l, a, slash⟩, hfirst.walk_last hl fun t ht => ?_, .inl ⟨id, hlook, hloc⟩⟩
          rw [hlook] at ht
          cases ht
      | @name _ _ s _ _ _ hl hs hnext hrest =>
        cases hrest with
        | nil =>
          have hlook : fs.look ⟨l, .name s, slash⟩ = .ok (some (.directory id)) := by
            simpa [look, hs, Ending.location] using hid
          refine ⟨⟨l, .name s, slash⟩, hfirst.walk_last hl fun t ht => ?_, .inl ⟨id, hlook, rfl⟩⟩
          rw [hlook] at ht
          cases ht
      | @link k _ s t _ _ _ hl hs hlink hrest =>
        have hlook : fs.look ⟨l, .name s, slash⟩ = .ok (some (.link t)) := by
          simpa [look, hs, Ending.location] using hlink
        cases c with
        | false =>
          exact ⟨⟨l, .name s, slash⟩, hfirst.walk_last hl fun _ _ => rfl, .inr ⟨rfl, t, hlook⟩⟩
        | true =>
          -- The link is replaced by its target, with one link less to go.
          rw [hfirst.walk_append (List.cons_ne_nil _ []),
            walk_succ_of_last_link (advance_last hl) hlook rfl]
          rw [List.append_nil] at hrest
          exact ih k hfirst.le hrest hl _

end FileSystem

end Logbook
