import Logbook.Listener
import Logbook.Proofs.Delivery.Reach

/-! # What outlasts the work of handlers

    Handlers come, take records, are closed and let go.  Whatever they do, those that
    were there keep their names, levels, formatters and filters, and one that is closed
    stays closed; a filter goes on to test what it tests.  New handlers and filters get
    places of their own.
-/

namespace Logbook

/-! ## Persistence -/

/-- Handlers of the same identity have the same name. -/
theorem Handler.name_of_identity {x y : Handler} (h : y.identity = x.identity) : y.name = x.name := by
  have hname : y.name? = x.name? := congrArg (fun p => p.1.name?) h
  have hsink : y.sink.name = x.sink.name := congrArg Prod.snd h
  rw [name, name, hname, hsink]

namespace Store

variable {s s' s'' : Store} {h k : HandlerId} {handler : Handler} {r : Record}

/-- **Persists**: every handler keeps its identity, one that is closed stays so, and every
    filter tests what it tested. -/
structure Persists (s s' : Store) : Prop where
  handler : ∀ (h : HandlerId) (x : Handler), s.handlers[h]? = some x →
    ∃ y, s'.handlers[h]? = some y ∧ y.identity = x.identity ∧ (x.closed = true → y.closed = true)
  test : ∀ (f : FilterId) test, s.tests[f]? = some test → s'.tests[f]? = some test

namespace Persists

theorem refl (s : Store) : Persists s s := ⟨fun _ x hx => ⟨x, hx, rfl, id⟩, fun _ _ => id⟩

theorem trans (h : Persists s s') (h' : Persists s' s'') : Persists s s'' where
  handler k x hx := by
    obtain ⟨y, hy, hid, hclosed⟩ := h.handler k x hx
    obtain ⟨z, hz, hid', hclosed'⟩ := h'.handler k y hy
    exact ⟨z, hz, hid'.trans hid, hclosed' ∘ hclosed⟩
  test f t ht := h'.test f t (h.test f t ht)

/-- Handlers and tests are all that matters. -/
theorem of_eq (hh : s'.handlers = s.handlers) (ht : s'.tests = s.tests) : Persists s s' := by
  refine ⟨fun k x hx => ⟨x, ?_, rfl, id⟩, fun f t hf => ?_⟩
  · rw [hh, hx]
  · rw [ht, hf]

/-- A handler that is there stays in its place. -/
theorem size_handlers (h : Persists s s') : s.handlers.size ≤ s'.handlers.size := by
  refine Nat.le_of_not_lt fun hlast => ?_
  obtain ⟨y, hy, -⟩ := h.handler _ _ (Array.getElem?_eq_getElem hlast)
  rw [Array.getElem?_eq_none (Nat.le_refl _)] at hy
  cases hy

theorem size_filters (h : Persists s s') : s.filters.size ≤ s'.filters.size := by
  refine Nat.le_of_not_lt fun hlt => ?_
  have hlast : s'.filters.size < s.tests.size := by rwa [tests, Array.size_map]
  have hfound := h.test _ _ (Array.getElem?_eq_getElem hlast)
  have hbeyond : s'.tests.size ≤ s'.filters.size := Nat.le_of_eq (by rw [tests, Array.size_map])
  rw [Array.getElem?_eq_none hbeyond] at hfound
  cases hfound

/-- A handler keeps its name. -/
theorem nameOf_eq (h : Persists s s') (hk : k < s.handlers.size) : s'.nameOf k = s.nameOf k := by
  obtain ⟨y, hy, hid, -⟩ := h.handler k _ (Array.getElem?_eq_getElem hk)
  rw [nameOf, nameOf, hy, Array.getElem?_eq_getElem hk]
  exact Handler.name_of_identity hid

/-- Filters that are asked. -/
theorem screen (filters : List FilterId) (r : Record) (s : Store) :
    Persists s (Store.screen filters r s).2.2 :=
  of_eq (handlers_screen filters r s) (tests_screen filters r s)

/-- Steps of handlers. -/
theorem of_steps {P : HandlerId → Prop} (hs : Steps Handler.Lasts P s s') : Persists s s' where
  handler k x hx := by
    obtain ⟨y, hy, hlasts⟩ := hs.handler .refl .trans hx
    exact ⟨y, hy, hlasts.identity, hlasts.closed⟩
  test f test ht := by rwa [hs.tests]

/-- New handlers and filters get new places. -/
theorem addHandler (s : Store) (x : Handler) : Persists s (s.addHandler x).2 := by
  refine ⟨fun h y hy => ⟨y, ?_, rfl, id⟩, fun _ _ => id⟩
  have hlt : h < s.handlers.size := (Array.getElem?_eq_some_iff.mp hy).1
  rw [Store.addHandler, Array.getElem?_push_lt hlt, ← hy, Array.getElem?_eq_getElem hlt]

theorem addFilter (s : Store) (x : Filter) : Persists s (s.addFilter x).2 := by
  refine ⟨fun h y hy => ⟨y, hy, rfl, id⟩, fun f t ht => ?_⟩
  have hlt : f < s.tests.size := (Array.getElem?_eq_some_iff.mp ht).1
  have htests : (s.addFilter x).2.tests = s.tests.push x.test := by
    simp [Store.addFilter, tests]
  rw [htests, Array.getElem?_push_lt hlt, ← ht, Array.getElem?_eq_getElem hlt]

end Persists

/-! ## Records, closing and letting go -/

/-- Everything encloses. -/
theorem encloses_true (s : Store) : s.Encloses fun _ => True := fun _ _ _ _ => trivial

theorem persists_handle (idle : List HandlerId) (s : Store) (h : HandlerId) (r : Record) :
    Persists s (s.handle idle h r).2.2 :=
  .of_steps ((steps_handle idle s r trivial s.encloses_true).mono fun _ _ hr => hr.lasts)

theorem persists_letGoAmong (idle : List HandlerId) (s : Store) (h : HandlerId) :
    Persists s (s.letGoAmong idle h) :=
  .of_steps (steps_letGoAmong idle s trivial s.encloses_true)

theorem persists_close (s : Store) (h : HandlerId) : Persists s (s.close h).2 :=
  .of_steps (steps_closeAmong s.everyone s trivial s.encloses_true)

/-- A handler that was closed is closed. -/
theorem isClosed_close (hh : s.handlers[h]? = some handler) :
    ∃ y, (s.close h).2.handlers[h]? = some y ∧ y.closed = true := by
  cases hclosed : handler.closed with
  | true =>
    obtain ⟨y, hy, -, hkept⟩ := (persists_close s h).handler h handler hh
    exact ⟨y, hy, hkept hclosed⟩
  | false =>
    have hmem : h ∈ s.everyone := mem_everyone hh
    have hrest := steps_of_mark (P := fun _ => True) hh hclosed hmem trivial s.encloses_true
      fun s _ hP henc => steps_letGoAmong _ s hP henc
    obtain ⟨y, hy, hlasts⟩ := hrest.handler .refl .trans (handlers_modify hh _)
    exact ⟨y, hy, hlasts.closed rfl⟩

theorem persists_giveUp (s : Store) (h : HandlerId) : Persists s (s.giveUp h) := by
  have hheld : Persists s { s with held := s.held.erase h } := .of_eq rfl rfl
  exact hheld.trans (persists_letGoAmong _ _ h)

theorem persists_hold (s : Store) (h : HandlerId) : Persists s (s.hold h) := .of_eq rfl rfl

/-- What every step of a walk through a list keeps, the walk keeps. -/
theorem persists_foldl {α : Type} {f : Store → α → Store} (hf : ∀ s a, Persists s (f s a))
    (as : List α) (s : Store) : Persists s (as.foldl f s) := by
  induction as generalizing s with
  | nil => exact .refl s
  | cons a as ih => exact (hf s a).trans (ih _)

end Store

namespace Listener

open Store

variable (l : Listener) (s : Store)

/-! ## Listeners -/

theorem persists_dispatch (hs : List HandlerId) (r : Record) : Persists s (l.dispatch hs r s) := by
  induction hs generalizing r s with
  | nil => exact .refl s
  | cons h hs ih =>
    unfold dispatch
    split
    · exact ih s r
    · exact (persists_handle s.everyone s h r).trans (ih _ _)

theorem persists_step (p : Listener × Store) : Persists p.2 (step p).2 := by
  unfold step
  dsimp only
  split
  · exact .refl _
  · split
    · exact .refl _
    · exact .of_eq rfl rfl
    · next r queue _ =>
      have hqueue : Persists p.2 (p.2.setQueue p.1.queue queue) := .of_eq rfl rfl
      exact hqueue.trans (persists_dispatch p.1 _ p.1.handlers r)

theorem persists_run : Persists s (l.run s).2 := by
  have hrepeat : ∀ n p, Persists p.2 (Nat.repeat step n p).2 := by
    intro n p
    induction n with
    | zero => exact .refl _
    | succ n ih => exact ih.trans (persists_step _)
  exact hrepeat _ (l, s)

/-- A listener that is stopped. -/
theorem persists_stop : Persists s (l.stop s).2 := by
  unfold stop
  split
  · have hsignal : Persists s (l.signal s) := .of_eq rfl rfl
    exact hsignal.trans (l.persists_run _)
  · exact .refl s

end Listener

end Logbook
