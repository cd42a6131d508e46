import Logbook.Table
import Mathlib.Data.String.Basic

/-! # Sorted tables

    A table that was made by insertions has its names in strictly ascending
    order.  Of such a table, a name has a value exactly when the pair is in it,
    and the entries of a kind come out sorted and without repetition.
-/

namespace Logbook.Table

variable {α β : Type}

/-- **Sorted**: the names ascend strictly. -/
def Sorted (t : Table α) : Prop := t.Pairwise fun p q => p.1 < q.1

/-- An empty table is sorted. -/
theorem sorted_nil : Sorted ([] : Table α) := List.Pairwise.nil

/-- The entries after an insertion are the new one and entries from before. -/
theorem mem_insert {t : Table α} {key : String} {a : α} {p : String × α}
    (h : p ∈ insert key a t) : p = (key, a) ∨ p ∈ t := by
  induction t with
  | nil =>
    left
    simpa [insert] using h
  | cons q rest ih =>
    obtain ⟨k, b⟩ := q
    unfold insert at h
    split at h
    · rcases List.mem_cons.mp h with rfl | hold
      · exact .inl rfl
      · exact .inr hold
    · split at h
      · rcases List.mem_cons.mp h with rfl | hrest
        · exact .inl rfl
        · exact .inr (List.mem_cons_of_mem _ hrest)
      · rcases List.mem_cons.mp h with rfl | hrest
        · exact .inr List.mem_cons_self
        · rcases ih hrest with heq | hin
          · exact .inl heq
          · exact .inr (List.mem_cons_of_mem _ hin)

/-- An insertion keeps a table sorted. -/
theorem Sorted.insert {t : Table α} (h : Sorted t) (key : String) (a : α) :
    Sorted (Table.insert key a t) := by
  induction t with
  | nil => exact List.pairwise_singleton _ _
  | cons q rest ih =>
    obtain ⟨k, b⟩ := q
    obtain ⟨hhead, hrest⟩ := List.pairwise_cons.mp h
    unfold Table.insert
    split
    · next hlt =>
      refine List.pairwise_cons.mpr ⟨?_, h⟩
      intro p hp
      rcases List.mem_cons.mp hp with rfl | hp
      · exact hlt
      · exact lt_trans hlt (hhead p hp)
    · split
      · next heq =>
        subst heq
        exact List.pairwise_cons.mpr ⟨hhead, hrest⟩
      · next hnlt hne =>
        have hgt : k < key := lt_of_le_of_ne (not_lt.mp hnlt) (Ne.symm hne)
        refine List.pairwise_cons.mpr ⟨?_, ih hrest⟩
        intro p hp
        rcases mem_insert hp with rfl | hp
        · exact hgt
        · exact hhead p hp

/-- What a look-up finds is in the table. -/
theorem mem_of_get? {t : Table α} {key : String} {a : α} (h : t.get? key = some a) :
    (key, a) ∈ t := by
  induction t with
  | nil => cases h
  | cons q rest ih =>
    obtain ⟨k, b⟩ := q
    by_cases hk : key = k
    · subst hk
      have hab : b = a := by simpa [get?] using h
      rw [hab]
      exact List.mem_cons_self
    · have hbeq : (key == k) = false := by simpa using hk
      have hrest : get? rest key = some a := by simpa [get?, List.lookup_cons, hbeq] using h
      exact List.mem_cons_of_mem _ (ih hrest)

/-- A look-up finds something under the names of the table, and under no other. -/
theorem isSome_get?_iff {t : Table α} {key : String} : (t.get? key).isSome ↔ key ∈ t.keys := by
  induction t with
  | nil => simp [get?, keys]
  | cons q rest ih =>
    obtain ⟨k, b⟩ := q
    by_cases hk : key = k
    · simp [get?, keys, hk]
    · have hbeq : (key == k) = false := by simpa using hk
      have hstep : get? ((k, b) :: rest) key = get? rest key := by simp [get?, List.lookup_cons, hbeq]
      have hkeys : key ∈ keys ((k, b) :: rest) ↔ key ∈ keys rest := by simp [keys, hk]
      rw [hstep, hkeys, ih]

/-- In a sorted table a look-up finds exactly what is there. -/
theorem Sorted.get?_eq_some_iff {t : Table α} (h : Sorted t) {key : String} {a : α} :
    t.get? key = some a ↔ (key, a) ∈ t := by
  refine ⟨mem_of_get?, fun hmem => ?_⟩
  induction t with
  | nil => cases hmem
  | cons q rest ih =>
    obtain ⟨k, b⟩ := q
    obtain ⟨hhead, hrest⟩ := List.pairwise_cons.mp h
    rcases List.mem_cons.mp hmem with heq | hin
    · injection heq with hk ha
      subst hk ha
      simp [get?]
    · have hne : key ≠ k := ne_of_gt (hhead _ hin)
      have hbeq : (key == k) = false := by simpa using hne
      simpa [get?, List.lookup_cons, hbeq] using ih hrest hin

/-- A look-up after an insertion. -/
theorem get?_insert (t : Table α) (key other : String) (a : α) :
    get? (insert key a t) other = if other = key then some a else get? t other := by
  split
  · next h =>
    subst h
    exact get?_insert_self t other a
  · next h => exact get?_insert_of_ne t a h

/-- The names of the entries that a choice keeps ascend as well. -/
theorem Sorted.filterMap_keys {t : Table α} (h : Sorted t)
    (choose : String × α → Option (String × β))
    (hkey : ∀ p q, choose p = some q → q.1 = p.1) :
    ((t.filterMap choose).map Prod.fst).Pairwise (· < ·) := by
  rw [List.pairwise_map, List.pairwise_filterMap]
  refine h.imp ?_
  intro p q hpq b hb c hc
  rw [hkey p b hb, hkey q c hc]
  exact hpq

end Logbook.Table
