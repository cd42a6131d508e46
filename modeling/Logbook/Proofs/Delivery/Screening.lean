import Logbook.Store

/-! # Records that are screened

    Filters are asked one after the other, up to the first that rejects the record.
    Asking changes nothing but how often a filter was asked, the record tells of the same
    event afterwards, and the answer depends on what the filters test alone.
-/

namespace Logbook.Store

variable {s s' : Store}

/-- A filter changes nothing but its counter, and the record tells of the same
    event. -/
theorem ask_frame (s : Store) (f : FilterId) (r : Record) :
    r.SameEvent (s.ask f r).2.1 ∧ { (s.ask f r).2.2 with filters := s.filters } = s := by
  unfold ask
  split
  · exact ⟨Record.SameEvent.refl r, rfl⟩
  · next filter _ => exact ⟨filter.sameEvent r, rfl⟩

/-- Filters change nothing but their counters, and the record tells of the same
    event. -/
theorem screen_frame (filters : List FilterId) (r : Record) (s : Store) :
    r.SameEvent (screen filters r s).2.1 ∧
      { (screen filters r s).2.2 with filters := s.filters } = s := by
  induction filters generalizing r s with
  | nil => exact ⟨Record.SameEvent.refl r, rfl⟩
  | cons f fs ih =>
    obtain ⟨hevent, hstore⟩ := s.ask_frame f r
    unfold screen
    split
    · next r' s' heq =>
      rw [heq] at hevent hstore
      obtain ⟨hevent', hstore'⟩ := ih r' s'
      refine ⟨hevent.trans hevent', ?_⟩
      calc { (screen fs r' s').2.2 with filters := s.filters }
        _ = { { (screen fs r' s').2.2 with filters := s'.filters } with filters := s.filters } :=
          rfl
        _ = { s' with filters := s.filters } := by rw [hstore']
        _ = s := hstore
    · next r' s' heq =>
      rw [heq] at hevent hstore
      exact ⟨hevent, hstore⟩

/-- What does not hang on the filters of a store is the same after filters were asked. -/
theorem view_screen {α : Type} (view : Store → α)
    (hview : ∀ s filters, view { s with filters } = view s) (filters : List FilterId) (r : Record)
    (s : Store) : view (screen filters r s).2.2 = view s := by
  have hstore := (screen_frame filters r s).2
  calc view (screen filters r s).2.2
    _ = view { (screen filters r s).2.2 with filters := s.filters } := (hview _ _).symm
    _ = view s := by rw [hstore]

/-- Filters change no handler. -/
theorem handlers_screen (filters : List FilterId) (r : Record) (s : Store) :
    (screen filters r s).2.2.handlers = s.handlers := view_screen handlers (fun _ _ => rfl) filters r s

theorem queues_screen (filters : List FilterId) (r : Record) (s : Store) :
    (screen filters r s).2.2.queues = s.queues := view_screen queues (fun _ _ => rfl) filters r s

theorem world_screen (filters : List FilterId) (r : Record) (s : Store) :
    (screen filters r s).2.2.world = s.world := view_screen world (fun _ _ => rfl) filters r s

/-- What the filters of a store test. -/
def tests (s : Store) : Array (Record → Bool × Record) := s.filters.map Filter.test

/-- A filter that is asked tests what it tested. -/
theorem tests_ask (s : Store) (f : FilterId) (r : Record) : (s.ask f r).2.2.tests = s.tests := by
  unfold ask
  split
  · rfl
  · refine Array.ext (by simp [tests]) ?_
    intro i _ _
    simp only [tests, Array.getElem_map, Array.getElem_modify]
    split <;> rfl

theorem tests_screen (filters : List FilterId) (r : Record) (s : Store) :
    (screen filters r s).2.2.tests = s.tests := by
  induction filters generalizing r s with
  | nil => rfl
  | cons f fs ih =>
    have hone := s.tests_ask f r
    unfold screen
    split <;> next r' s' heq =>
      rw [heq] at hone
      first
        | exact (ih r' s').trans hone
        | exact hone

/-- The answer of a filter depends on what it tests alone. -/
theorem ask_eq (s : Store) (f : FilterId) (r : Record) :
    ((s.ask f r).1, (s.ask f r).2.1) = (s.tests[f]?.map fun test => test r).getD (true, r) := by
  unfold ask
  rw [tests, Array.getElem?_map]
  cases s.filters[f]? <;> rfl

/-- The answer of several filters depends on what they test alone. -/
theorem screen_congr (htests : s'.tests = s.tests) (filters : List FilterId) (r : Record) :
    (screen filters r s').1 = (screen filters r s).1 ∧
      (screen filters r s').2.1 = (screen filters r s).2.1 := by
  induction filters generalizing r s s' with
  | nil => exact ⟨rfl, rfl⟩
  | cons f fs ih =>
    have hanswer : ((s'.ask f r).1, (s'.ask f r).2.1) = ((s.ask f r).1, (s.ask f r).2.1) := by
      rw [ask_eq, ask_eq, htests]
    have hlater : (s'.ask f r).2.2.tests = (s.ask f r).2.2.tests := by
      rw [tests_ask, tests_ask, htests]
    unfold screen
    rcases hs : s.ask f r with ⟨a, r₁, s₁⟩
    rcases hs' : s'.ask f r with ⟨a', r₁', s₁'⟩
    rw [hs, hs'] at hanswer hlater
    obtain ⟨rfl, rfl⟩ := Prod.mk.inj hanswer
    cases a' with
    | true => exact ih hlater r₁'
    | false => exact ⟨rfl, rfl⟩

end Logbook.Store
