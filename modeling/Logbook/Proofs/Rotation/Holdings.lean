import Logbook.Proofs.Rotation.Stamp
import Logbook.Rotation.Policy
import Mathlib.Data.Finmap
import Mathlib.Data.Finset.Sort

/-! # What a sink holds

    A sink that rolls over holds the bytes of its live file, and those of its archives
    under suffixes.  What becomes of them before and with a line, as long as nothing fails,
    is told here without names and without a tree, so it is the same in whatever form the
    archives are kept.
-/

namespace Logbook.Rotation

/-! ## Holdings -/

/-- **Holdings**: the bytes of the live file, if there is one, and those of the archives. -/
structure Holdings where
  live? : Option (List UInt8) := none
  archives : Finmap fun _ : String => List UInt8 := ∅

namespace Holdings

variable {h : Holdings} {k : String}

/-- The live file is there, empty if there was none. -/
def opened (h : Holdings) : Holdings := { h with live? := some (h.live?.getD []) }

/-- Bytes have come behind the live file. -/
def written (bytes : List UInt8) (h : Holdings) : Holdings :=
  { h with live? := some (h.live?.getD [] ++ bytes) }

/-- The archive with a suffix is gone. -/
def without (k : String) (h : Holdings) : Holdings := { h with archives := h.archives.erase k }

/-- The live file has become the archive with a suffix, in place of the one that had it. -/
def stowed (k : String) (h : Holdings) : Holdings :=
  match h.live? with
  | some bytes => { archives := h.archives.insert k bytes }
  | none => h.without k

/-- The archive with one suffix, if there is one, has another suffix. -/
def moved (k k' : String) (h : Holdings) : Holdings :=
  match h.archives.lookup k with
  | some bytes => { h with archives := (h.archives.erase k).insert k' bytes }
  | none => h

/-- The archives up to a number have the next numbers. -/
def shifted : Nat → Holdings → Holdings
  | 0, h => h
  | n + 1, h => shifted n (h.moved (toString (n + 1)) (toString (n + 1 + 1)))

/-- The suffixes of archives that are times, in ascending order. -/
def times (unit : Period) (h : Holdings) : List String :=
  (h.archives.keys.filter fun k => isTime unit k = true).sort

/-- The archives beyond the number to keep are gone. -/
def retained (unit : Period) (keep : Nat) (h : Holdings) : Holdings :=
  if keep = 0 then h else (allButLast keep (h.times unit)).foldl (fun h k => h.without k) h

/-- The new live file is opened at once, or by the next line. -/
def reopened (delay : Bool) (h : Holdings) : Holdings := if delay then h else h.opened

/-- A rollover by size. -/
def rolledBySize (p : SizeRotation) (delay : Bool) (h : Holdings) : Holdings :=
  ((if p.backups = 0 then h else (h.shifted (p.backups - 1)).stowed (toString 1))).reopened delay

/-- A rollover at a set time. -/
def rolledAt (p : TimedRotation) (delay : Bool) (now : Int) (h : Holdings) : Holdings :=
  ((h.stowed (p.schedule.archiveSuffix (p.periodStart now))).retained p.schedule.unit
    p.backups).reopened delay

/-- What is held when a line of a length comes next, and the policy from then on. -/
def prepared (delay : Bool) (length : Nat) (now : Clock → Int) :
    Policy × Holdings → Policy × Holdings
  | (.size p, h) =>
    if p.maxBytes = 0 then (.size p, h)
    else if p.maxBytes ≤ (h.live?.getD []).length + length then
      (.size p, h.opened.rolledBySize p delay)
    else (.size p, h.opened)
  | (.timed p, h) =>
    if now p.clock < p.dueAt then (.timed p, h)
    else
      (.timed { p with dueAt := p.schedule.next (now p.clock) }, h.rolledAt p delay (now p.clock))
  | (policy, h) => (policy, h)

/-- What is held after a line, and the policy from then on. -/
def emitted (delay : Bool) (text terminator : String) (now : Clock → Int)
    (a : Policy × Holdings) : Policy × Holdings :=
  let bytes := LogFile.lineBytes text terminator
  let b := prepared delay bytes.length now a
  (b.1, b.2.written bytes)

/-! ## Room that is made -/

/-- What is not held need not be removed. -/
theorem without_of_not_mem (hk : k ∉ h.archives) : h.without k = h := by
  have hsame : h.archives.erase k = h.archives := by
    refine Finmap.ext_lookup fun j => ?_
    by_cases hj : j = k
    · rw [hj, Finmap.lookup_erase, Finmap.lookup_eq_none.mpr hk]
    · rw [Finmap.lookup_erase_ne hj]
  rw [without, hsame]

/-- What takes a place need not find it free. -/
theorem insert_erase (archives : Finmap fun _ : String => List UInt8) (k : String)
    (bytes : List UInt8) : (archives.erase k).insert k bytes = archives.insert k bytes := by
  refine Finmap.ext_lookup fun j => ?_
  by_cases hj : j = k
  · rw [hj, Finmap.lookup_insert, Finmap.lookup_insert]
  · rw [Finmap.lookup_insert_of_ne _ hj, Finmap.lookup_insert_of_ne _ hj, Finmap.lookup_erase_ne hj]

/-- What is not there is not put aside; an archive that would have made room has. -/
theorem stowed_of_none (hlive : h.live? = none) (hk : k ∉ h.archives) : h.stowed k = h := by
  rw [stowed, hlive]
  exact without_of_not_mem hk

/-- To make room for the live file makes no difference. -/
theorem stowed_without (h : Holdings) (k : String) : (h.without k).stowed k = h.stowed k := by
  cases hlive : h.live? with
  | none =>
    have hgone : k ∉ (h.without k).archives := Finmap.notMem_erase_self
    rw [stowed_of_none (h := h.without k) hlive hgone, stowed, hlive]
  | some bytes =>
    unfold stowed without
    dsimp only
    rw [hlive]
    dsimp only
    rw [insert_erase]

/-- What is not held is not moved. -/
theorem moved_of_not_mem {k' : String} (hk : k ∉ h.archives) : h.moved k k' = h := by
  rw [moved, Finmap.lookup_eq_none.mpr hk]

/-- To make room for an archive that is moved makes no difference either. -/
theorem moved_without {k' : String} {bytes : List UInt8} (hne : k ≠ k')
    (hheld : h.archives.lookup k = some bytes) : (h.without k').moved k k' = h.moved k k' := by
  have hstill : (h.without k').archives.lookup k = some bytes := by
    rw [without, Finmap.lookup_erase_ne hne, hheld]
  unfold moved
  rw [hstill, hheld]
  dsimp only [without]
  rw [Finmap.erase_erase, insert_erase]

/-- To open the live file is to write nothing. -/
theorem written_nil (h : Holdings) : h.written [] = h.opened := by
  rw [written, opened, List.append_nil]

/-! ## Suffixes that stay stamped -/

/-- The archives of a schedule have the times of rollovers for suffixes. -/
def AllStamped (unit : Period) (h : Holdings) : Prop := ∀ k ∈ h.archives, Stamped unit k

variable {unit : Period}

theorem AllStamped.without (hall : AllStamped unit h) (k : String) :
    AllStamped unit (h.without k) :=
  fun k' hk' => hall k' (Finmap.mem_erase.mp hk').2

theorem AllStamped.stowed (hall : AllStamped unit h) (hk : Stamped unit k) :
    AllStamped unit (h.stowed k) := by
  unfold Holdings.stowed
  split
  · intro k' hk'
    cases Finmap.mem_insert.mp hk' with
    | inl heq => exact heq ▸ hk
    | inr hold => exact hall k' hold
  · exact hall.without k

theorem AllStamped.retained (hall : AllStamped unit h) (keep : Nat) :
    AllStamped unit (h.retained unit keep) := by
  have hfold : ∀ ks : List String, ∀ h : Holdings, AllStamped unit h →
      AllStamped unit (ks.foldl (fun h k => h.without k) h) := by
    intro ks
    induction ks with
    | nil => exact fun _ hall => hall
    | cons k ks ih => exact fun h hall => ih _ (hall.without k)
  unfold Holdings.retained
  split
  · exact hall
  · exact hfold _ h hall

theorem AllStamped.reopened (hall : AllStamped unit h) (delay : Bool) :
    AllStamped unit (h.reopened delay) := by
  unfold Holdings.reopened
  split <;> exact hall

/-- **A rollover at a set time** leaves every suffix stamped. -/
theorem AllStamped.rolledAt {p : TimedRotation} (hall : AllStamped p.schedule.unit h)
    (delay : Bool) (now : Int) : AllStamped p.schedule.unit (h.rolledAt p delay now) :=
  ((hall.stowed (stamped_archiveSuffix _ _)).retained p.backups).reopened delay

/-! ## Times in order -/

theorem mem_times : k ∈ h.times unit ↔ k ∈ h.archives ∧ isTime unit k = true := by
  rw [times, Finset.mem_sort, Finset.mem_filter, Finmap.mem_keys]

theorem times_sorted (unit : Period) (h : Holdings) : (h.times unit).Pairwise (· < ·) :=
  (Finset.sortedLT_sort _).pairwise

end Holdings

end Logbook.Rotation
