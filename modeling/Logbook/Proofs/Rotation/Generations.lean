import Logbook.Proofs.Rotation.Mirrored

/-! # Generations of full lines

    Every line that is as long as the limit of a live file comes into a file of its own:
    the live file is put aside before it, however little it holds.  So the live file and
    its numbered backups are the generations of the live file, the youngest first.

    The oldest of them is the empty file that was there before the first line.
-/

namespace Logbook.Rotation

open FileSystem LogFile

/-! ## Shifts -/

namespace Holdings

variable {h : Holdings} {n i : Nat} {k : String}

/-- The archive with a number. -/
def numbered? (h : Holdings) (i : Nat) : Option (List UInt8) := h.archives.lookup (toString i)

theorem live?_moved (h : Holdings) (k k' : String) : (h.moved k k').live? = h.live? := by
  unfold moved
  cases h.archives.lookup k <;> rfl

theorem live?_shifted (h : Holdings) (n : Nat) : (h.shifted n).live? = h.live? := by
  induction n generalizing h with
  | zero => rfl
  | succ n ih => rw [shifted, ih, live?_moved]

/-- An archive that is moved is where it was moved to, and no longer where it was. -/
theorem lookup_moved (h : Holdings) (k₁ k₂ k : String) : (h.moved k₁ k₂).archives.lookup k =
    if h.archives.lookup k₁ = none then h.archives.lookup k
    else if k = k₂ then h.archives.lookup k₁
    else if k = k₁ then none else h.archives.lookup k := by
  unfold moved
  cases hheld : h.archives.lookup k₁ with
  | none => rw [if_pos rfl]
  | some bytes =>
    rw [if_neg (by simp)]
    dsimp only
    by_cases hk : k = k₂
    · rw [if_pos hk, hk, Finmap.lookup_insert]
    · rw [if_neg hk, Finmap.lookup_insert_of_ne _ hk]
      by_cases hk' : k = k₁
      · rw [if_pos hk', hk', Finmap.lookup_erase]
      · rw [if_neg hk', Finmap.lookup_erase_ne hk']

/-- Suffixes that take no part in a shift. -/
theorem lookup_shifted_of_other (hk : ∀ i, 1 ≤ i → i ≤ n + 1 → k ≠ toString i) :
    (h.shifted n).archives.lookup k = h.archives.lookup k := by
  induction n generalizing h with
  | zero => rfl
  | succ n ih =>
    have hsource := hk (n + 1) (by omega) (by omega)
    have htarget := hk (n + 1 + 1) (by omega) (by omega)
    rw [shifted, ih fun i hi hin => hk i hi (by omega), lookup_moved, if_neg htarget,
      if_neg hsource, ite_self]

/-- **A shift** gives each backup the next number, if no number that is free comes before
    one that is taken. -/
theorem numbered?_shifted
    (hgap : ∀ i, 1 ≤ i → i ≤ n → h.numbered? i = none → h.numbered? (i + 1) = none)
    (hi : 1 ≤ i) (hin : i ≤ n) : (h.shifted n).numbered? (i + 1) = h.numbered? i := by
  induction n generalizing h with
  | zero => omega
  | succ n ih =>
    have hmoved : ∀ j, (h.moved (toString (n + 1)) (toString (n + 1 + 1))).numbered? j =
        if h.numbered? (n + 1) = none then h.numbered? j
        else if j = n + 1 + 1 then h.numbered? (n + 1)
        else if j = n + 1 then none else h.numbered? j := by
      intro j
      rw [numbered?, lookup_moved]
      simp only [toString_inj]
      rfl
    rw [shifted]
    by_cases hlast : i = n + 1
    · -- The last one has been moved; the others are shifted below it.
      subst hlast
      rw [numbered?, lookup_shifted_of_other]
      · show (h.moved _ _).numbered? (n + 1 + 1) = _
        rw [hmoved, if_pos rfl]
        split
        · next hnone => rw [hnone, hgap (n + 1) hi hin hnone]
        · rfl
      · intro j _ hj heq
        have := toString_inj.mp heq
        omega
    · have hbelow : ∀ j, j < n + 1 →
          (h.moved (toString (n + 1)) (toString (n + 1 + 1))).numbered? j = h.numbered? j := by
        intro j hj
        have hsource : j ≠ n + 1 := by omega
        have htarget : j ≠ n + 1 + 1 := by omega
        rw [hmoved, if_neg htarget, if_neg hsource, ite_self]
      rw [ih _ (by omega), hbelow i (by omega)]
      intro j hj hjn hnone
      rw [hbelow j (by omega)] at hnone
      have hnext := hgap j hj (by omega) hnone
      have htarget : j + 1 ≠ n + 1 + 1 := by omega
      rw [hmoved, if_neg htarget, hnext, ite_self, ite_self]

/-- Opening a new live file changes no archive. -/
theorem archives_reopened (h : Holdings) (delay : Bool) :
    (h.reopened delay).archives = h.archives := by
  cases delay <;> rfl

/-- A rollover by size that keeps backups puts the live file aside under the first number. -/
theorem rolledBySize_eq {p : SizeRotation} {live : List UInt8} (hlive : h.live? = some live)
    (hb : 1 ≤ p.backups) (delay : Bool) :
    h.rolledBySize p delay = ({ archives :=
      (h.shifted (p.backups - 1)).archives.insert (toString 1) live } : Holdings).reopened delay := by
  have hshifted : (h.shifted (p.backups - 1)).live? = some live := by
    rw [live?_shifted, hlive]
  rw [rolledBySize, if_neg (by omega), stowed, hshifted]

/-- What is held under numbers then comes from the shift and the live file. -/
theorem lookup_rolledBySize {p : SizeRotation} {live : List UInt8} (hlive : h.live? = some live)
    (hb : 1 ≤ p.backups) (delay : Bool) (k : String) :
    (h.rolledBySize p delay).archives.lookup k =
      if k = toString 1 then some live
      else (h.shifted (p.backups - 1)).archives.lookup k := by
  rw [rolledBySize_eq hlive hb, archives_reopened]
  by_cases hk : k = toString 1
  · rw [if_pos hk, hk, Finmap.lookup_insert]
  · rw [if_neg hk, Finmap.lookup_insert_of_ne _ hk]

end Holdings

/-! ## Generations -/

/-- **Generations**: the live file and its backups up to a number, the youngest first.  The
    live file may be missing as long as there is one generation. -/
structure Generations (b : Nat) (gens : List (List UInt8)) (h : Holdings) : Prop where
  live : h.opened.live? = gens[0]?
  there : 1 < gens.length → h.live? ≠ none
  archive : ∀ i, 1 ≤ i → i ≤ b → h.numbered? i = gens[i]?
  only : ∀ k ∈ h.archives, ∃ i, 1 ≤ i ∧ i ≤ b ∧ k = toString i

variable {p : SizeRotation} {b : Nat} {gens : List (List UInt8)} {h : Holdings}
  {bytes : List UInt8}

namespace Generations

/-- Nothing is held but the file that the first line finds. -/
theorem start (b : Nat) (delay : Bool) : Generations b [[]] (({} : Holdings).reopened delay) where
  live := by cases delay <;> rfl
  there := fun hlt => absurd hlt (Nat.lt_irrefl 1)
  archive := by
    intro i hi _
    obtain ⟨j, rfl⟩ := Nat.exists_eq_add_of_le' hi
    cases delay <;> rfl
  only := by
    intro k hk
    cases delay <;> exact absurd hk Finmap.notMem_empty

/-- A shift gives each backup the next number, as generations follow one another without a
    gap. -/
theorem shifted {n i : Nat} (hgens : Generations b gens h) (hn : n < b) (hi : 1 ≤ i)
    (hin : i ≤ n) : (h.opened.shifted n).numbered? (i + 1) = gens[i]? := by
  have hnumber : ∀ i, h.opened.numbered? i = h.numbered? i := fun _ => rfl
  rw [Holdings.numbered?_shifted _ hi hin, hnumber, hgens.archive i hi (by omega)]
  intro m hm hmn hnone
  rw [hnumber, hgens.archive m hm (by omega), List.getElem?_eq_none_iff] at hnone
  rw [hnumber, hgens.archive (m + 1) (by omega) (by omega), List.getElem?_eq_none_iff]
  omega

/-- A rollover puts every generation in the place of the next one. -/
theorem rolledBySize (hgens : Generations p.backups gens h) (hb : 1 ≤ p.backups) (delay : Bool)
    (bytes : List UInt8) :
    Generations p.backups (bytes :: gens) ((h.opened.rolledBySize p delay).written bytes) := by
  obtain ⟨live, hlive⟩ : ∃ live, h.opened.live? = some live := ⟨_, rfl⟩
  have hafter := Holdings.lookup_rolledBySize hlive hb delay
  refine ⟨?_, fun _ => Option.some_ne_none _, ?_, ?_⟩
  · rw [Holdings.rolledBySize_eq hlive hb]
    cases delay <;> rfl
  · intro i hi hib
    rw [Holdings.numbered?, Holdings.written, hafter]
    by_cases hone : i = 1
    · subst hone
      rw [if_pos rfl, ← hlive, hgens.live]
      rfl
    · obtain ⟨j, rfl⟩ : ∃ j, i = j + 1 := ⟨i - 1, by omega⟩
      rw [if_neg fun heq => hone (toString_inj.mp heq)]
      have hshift := hgens.shifted (n := p.backups - 1) (i := j) (by omega) (by omega) (by omega)
      rw [Holdings.numbered?] at hshift
      rw [hshift, List.getElem?_cons_succ]
  · intro k hk
    by_contra hnot
    have hother : ∀ i, 1 ≤ i → i ≤ p.backups → k ≠ toString i := fun i hi hib heq =>
      hnot ⟨i, hi, hib, heq⟩
    obtain ⟨bytes', hbytes'⟩ := Finmap.mem_iff.mp hk
    rw [Holdings.written, hafter, if_neg (hother 1 (by omega) hb),
      Holdings.lookup_shifted_of_other] at hbytes'
    · exact hnot (hgens.only k (Finmap.mem_iff.mpr ⟨_, hbytes'⟩))
    · intro i hi hib
      exact hother i hi (by omega)

/-- **A full line** comes into a file of its own. -/
theorem emitted {text terminator : String} (hgens : Generations p.backups gens h)
    (hmax : 1 ≤ p.maxBytes) (hb : 1 ≤ p.backups)
    (hfull : p.maxBytes ≤ (lineBytes text terminator).length) (delay : Bool) (now : Clock → Int) :
    ∃ h', Holdings.emitted delay text terminator now (.size p, h) = (.size p, h') ∧
      Generations p.backups (lineBytes text terminator :: gens) h' := by
  refine ⟨_, ?_, hgens.rolledBySize hb delay _⟩
  unfold Holdings.emitted Holdings.prepared
  dsimp only
  rw [if_neg (by omega), if_pos (by omega)]

/-- A backup is held as long as there are so many generations. -/
theorem mem_archives_iff {i : Nat} (hgens : Generations b gens h) (hi : 1 ≤ i) (hib : i ≤ b) :
    toString i ∈ h.archives ↔ i < gens.length := by
  have harchive := hgens.archive i hi hib
  rw [Finmap.mem_iff]
  constructor
  · rintro ⟨bytes, hbytes⟩
    rw [Holdings.numbered?, hbytes] at harchive
    exact (List.getElem?_eq_some_iff.mp harchive.symm).1
  · intro hlt
    exact ⟨gens[i], harchive.trans (List.getElem?_eq_getElem hlt)⟩

end Generations

end Logbook.Rotation
