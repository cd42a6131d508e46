/-! # Tables with sorted names

    A table is a list of names with values in ascending order of the names, each
    name once.
-/

namespace Logbook

/-- Named values in ascending order of their names. -/
abbrev Table (α : Type) := List (String × α)

namespace Table

/-- Puts a value under a name, replacing the one that was there. -/
def insert {α : Type} (key : String) (a : α) : Table α → Table α
  | [] => [(key, a)]
  | (k, b) :: rest =>
    if key < k then (key, a) :: (k, b) :: rest
    else if key = k then (key, a) :: rest
    else (k, b) :: insert key a rest

/-- A table from pairs in any order; a later pair replaces an earlier one. -/
def ofPairs {α : Type} (pairs : List (String × α)) : Table α :=
  pairs.foldl (fun t p => t.insert p.1 p.2) []

/-- Takes the value under a name away. -/
def erase {α : Type} (t : Table α) (key : String) : Table α := t.filter fun p => p.1 ≠ key

/-- The names of a table. -/
def keys {α : Type} (t : Table α) : List String := t.map Prod.fst

/-- The value under a name. -/
def get? {α : Type} (t : Table α) (key : String) : Option α := List.lookup key t

/-- What was inserted last is found. -/
theorem get?_insert_self {α : Type} (t : Table α) (key : String) (a : α) :
    get? (insert key a t) key = some a := by
  induction t with
  | nil => simp [insert, get?]
  | cons p rest ih =>
    obtain ⟨k, b⟩ := p
    by_cases h₁ : key < k
    · simp [insert, get?, h₁]
    · by_cases h₂ : key = k
      · simp [insert, get?, h₂]
      · have hne : (key == k) = false := by simpa using h₂
        simpa [insert, get?, h₁, h₂, List.lookup_cons, hne] using ih

/-- An insertion does not touch the other keys. -/
theorem get?_insert_of_ne {α : Type} (t : Table α) {key other : String} (a : α)
    (h : other ≠ key) : get? (insert key a t) other = get? t other := by
  induction t with
  | nil =>
    have hne : (other == key) = false := by simpa using h
    simp [insert, get?, List.lookup_cons, hne]
  | cons p rest ih =>
    obtain ⟨k, b⟩ := p
    have hne : (other == key) = false := by simpa using h
    by_cases h₁ : key < k
    · simp [insert, get?, h₁, List.lookup_cons, hne]
    · by_cases h₂ : key = k
      · subst h₂
        simp [insert, get?, List.lookup_cons, hne]
      · simp only [get?] at ih
        simp [insert, get?, h₁, h₂, List.lookup_cons, ih]

end Table

end Logbook
