import Logbook.Proofs.Delivery.Persistence

/-! # Which records filters accept

    Filters are asked one after the other, and each gets the record as the one before it
    left it.  Which records they accept is a matter of what they test.  A filter that
    looks at the name of a record alone can come at any place, because no filter changes
    the name, and to add it a second time rejects nothing more.
-/

namespace Logbook.Store

variable {s s' : Store} {f : FilterId} {fs : List FilterId} {r r' : Record}
  {test : Record → Bool × Record} {p : String → Bool}

/-- All filters of a list accept a record. -/
def accepts (s : Store) (filters : List FilterId) (r : Record) : Bool := (screen filters r s).1

@[simp] theorem accepts_nil (s : Store) (r : Record) : s.accepts [] r = true := rfl

/-- The first filter is asked, and then the others, unless it rejects the record. -/
theorem accepts_cons (s : Store) (f : FilterId) (fs : List FilterId) (r : Record) :
    s.accepts (f :: fs) r = ((s.ask f r).1 && s.accepts fs (s.ask f r).2.1) := by
  -- The others are asked in a store that has only counted a question.
  have hlater := (screen_congr (s.tests_ask f r) fs (s.ask f r).2.1).1
  rw [accepts, screen]
  rcases hask : s.ask f r with ⟨_ | _, r', s'⟩
  · rfl
  · rw [hask] at hlater
    rw [Bool.true_and]
    exact hlater

/-- A filter that stands tests the record. -/
theorem ask_of_test (h : s.tests[f]? = some test) (r : Record) :
    (s.ask f r).1 = (test r).1 ∧ (s.ask f r).2.1 = (test r).2 := by
  have hask := s.ask_eq f r
  rw [h] at hask
  exact Prod.mk.inj hask

/-- No filter changes the name of a record. -/
theorem name_ask (s : Store) (f : FilterId) (r : Record) : (s.ask f r).2.1.name = r.name := by
  unfold ask
  split
  · rfl
  · next filter _ =>
    show (filter.test r).2.name = r.name
    rw [filter.sameEvent r]

/-- Filters that test the same accept the same records. -/
theorem accepts_congr (h : ∀ f ∈ fs, s'.tests[f]? = s.tests[f]?) (r : Record) :
    s'.accepts fs r = s.accepts fs r := by
  induction fs generalizing r with
  | nil => rfl
  | cons f fs ih =>
    have hask : ((s'.ask f r).1, (s'.ask f r).2.1) = ((s.ask f r).1, (s.ask f r).2.1) := by
      rw [ask_eq, ask_eq, h f List.mem_cons_self]
    obtain ⟨hanswer, hrecord⟩ := Prod.mk.inj hask
    rw [accepts_cons, accepts_cons, hanswer, hrecord,
      ih fun f' hf' => h f' (List.mem_cons_of_mem _ hf')]

/-- Filters accept what they accepted as long as the store persists. -/
theorem Persists.accepts_eq (h : s.Persists s') (hfs : ∀ f ∈ fs, f < s.filters.size) (r : Record) :
    s'.accepts fs r = s.accepts fs r := by
  refine accepts_congr (fun f hf => ?_) r
  have hlt : f < s.tests.size := by
    rw [tests, Array.size_map]
    exact hfs f hf
  rw [Array.getElem?_eq_getElem hlt]
  exact h.test f _ (Array.getElem?_eq_getElem hlt)

/-! ## Filters by name -/

/-- **By name**: a test looks at the name of the record alone. -/
def ByName (test : Record → Bool × Record) (p : String → Bool) : Prop := ∀ r, (test r).1 = p r.name

/-- A filter by name accepts what it is accepted with. -/
theorem accepts_of_mem (hf : f ∈ fs) (h : s.tests[f]? = some test) (hp : ByName test p)
    (hr : s.accepts fs r = true) : p r.name = true := by
  induction fs generalizing r with
  | nil => cases hf
  | cons f' fs ih =>
    rw [accepts_cons, Bool.and_eq_true] at hr
    rcases List.mem_cons.mp hf with rfl | hin
    · rw [← hp, ← (ask_of_test h r).1]
      exact hr.1
    · rw [← s.name_ask f' r]
      exact ih hin hr.2

/-- A filter by name that comes last. -/
theorem accepts_concat (fs : List FilterId) (h : s.tests[f]? = some test) (hp : ByName test p)
    (r : Record) : s.accepts (fs ++ [f]) r = (s.accepts fs r && p r.name) := by
  induction fs generalizing r with
  | nil =>
    rw [List.nil_append, accepts_cons, accepts_nil, accepts_nil, Bool.and_true, Bool.true_and,
      (ask_of_test h r).1, hp]
  | cons f' fs ih =>
    rw [List.cons_append, accepts_cons, accepts_cons, ih, s.name_ask, Bool.and_assoc]

/-- A filter by name that is added unless it is there. -/
theorem accepts_adjoin (fs : List FilterId) (h : s.tests[f]? = some test) (hp : ByName test p)
    (r : Record) : s.accepts (Handler.adjoin fs f) r = (s.accepts fs r && p r.name) := by
  unfold Handler.adjoin
  split
  · next hin =>
    -- It is asked at its old place, and what passes there passes it again.
    cases hr : s.accepts fs r with
    | false => rfl
    | true => rw [accepts_of_mem hin h hp hr]; rfl
  · exact accepts_concat fs h hp r

end Logbook.Store
