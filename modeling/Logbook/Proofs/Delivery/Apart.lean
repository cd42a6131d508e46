import Logbook.Proofs.Delivery.Reach

/-! # One handler aside

    A record that goes to a handler finds the same handlers, filters, queues and world on
    its way in two stores that differ in a handler it does not reach.  So it does the same
    in both, and they differ in no more than that handler afterwards.
-/

namespace Logbook.Store

variable {s s' s'' t t' : Store} {h k : HandlerId} {r : Record} {handler : Handler}
  {idle idle' : List HandlerId}

/-- **Apart**: two stores are the same, apart from one handler and from how often the
    filters were asked. -/
structure Apart (h : HandlerId) (s s' : Store) : Prop where
  rest : { s' with handlers := s.handlers, filters := s.filters } = s
  size : s'.handlers.size = s.handlers.size
  handlers : ∀ k, k ≠ h → s'.handlers[k]? = s.handlers[k]?
  tests : s'.tests = s.tests

namespace Apart

theorem refl (h : HandlerId) (s : Store) : Apart h s s := ⟨rfl, rfl, fun _ _ => rfl, rfl⟩

theorem symm (hs : Apart h s s') : Apart h s' s := by
  refine ⟨?_, hs.size.symm, fun k hk => (hs.handlers k hk).symm, hs.tests.symm⟩
  rw [← hs.rest]

theorem trans (hs : Apart h s s') (hs' : Apart h s' s'') : Apart h s s'' := by
  refine ⟨?_, hs'.size.trans hs.size, fun k hk => (hs'.handlers k hk).trans (hs.handlers k hk),
    hs'.tests.trans hs.tests⟩
  calc { s'' with handlers := s.handlers, filters := s.filters }
    _ = { { s'' with handlers := s'.handlers, filters := s'.filters } with
          handlers := s.handlers, filters := s.filters } := rfl
    _ = { s' with handlers := s.handlers, filters := s.filters } := by rw [hs'.rest]
    _ = s := hs.rest

theorem world (hs : Apart h s s') : s'.world = s.world := by rw [← hs.rest]

theorem queues (hs : Apart h s s') : s'.queues = s.queues := by rw [← hs.rest]

/-- The same change of the world. -/
theorem with_world (hs : Apart h s s') (w : World) :
    Apart h { s with world := w } { s' with world := w } := by
  refine ⟨?_, hs.size, hs.handlers, hs.tests⟩
  calc { { s' with world := w } with handlers := s.handlers, filters := s.filters }
    _ = { { s' with handlers := s.handlers, filters := s.filters } with world := w } := rfl
    _ = { s with world := w } := by rw [hs.rest]

theorem report (hs : Apart h s s') (lines : List String) :
    Apart h (s.report lines) (s'.report lines) := by
  unfold Store.report
  rw [hs.world]
  exact hs.with_world _

theorem setQueue (hs : Apart h s s') (q : QueueId) (queue : LogQueue) :
    Apart h (s.setQueue q queue) (s'.setQueue q queue) := by
  refine ⟨?_, hs.size, hs.handlers, hs.tests⟩
  unfold Store.setQueue
  rw [hs.queues, ← hs.rest]

/-- The same change of a handler. -/
theorem modify (hs : Apart h s s') (k : HandlerId) (f : Handler → Handler) :
    Apart h (s.modify k f) (s'.modify k f) := by
  refine ⟨?_, by simp [Store.modify, hs.size], ?_, hs.tests⟩
  · unfold Store.modify
    rw [← hs.rest]
  · intro j hj
    rw [Store.modify, Store.modify, Array.getElem?_modify, Array.getElem?_modify, hs.handlers j hj]

/-- Any change of the handler that is left aside. -/
theorem modify_self (h : HandlerId) (s : Store) (f : Handler → Handler) :
    Apart h s (s.modify h f) := by
  refine ⟨rfl, by simp [Store.modify], ?_, rfl⟩
  intro k hk
  rw [Store.modify, Array.getElem?_modify, if_neg hk.symm]

theorem setSink (hs : Apart h s s') (k : HandlerId) (sink : Sink) :
    Apart h (s.setSink k sink) (s'.setSink k sink) := hs.modify k _

theorem count (hs : Apart h s s') (k : HandlerId) (f : Fate) :
    Apart h (s.count k f) (s'.count k f) := hs.modify k _

theorem note (hs : Apart h s s') (k : HandlerId) (line : String) :
    Apart h (s.note k line) (s'.note k line) := hs.modify k _

/-- Filters count how often they are asked, and nothing else changes. -/
theorem screen (h : HandlerId) (filters : List FilterId) (r : Record) (s : Store) :
    Apart h s (Store.screen filters r s).2.2 := by
  have hstore := (screen_frame filters r s).2
  have hhandlers := handlers_screen filters r s
  refine ⟨?_, by rw [hhandlers], fun k _ => by rw [hhandlers], tests_screen filters r s⟩
  rw [← hhandlers]
  exact hstore

end Apart

/-! ## One sink -/

/-- Two results are the same, but for what sets two stores apart. -/
structure SameResult {α : Type} (h : HandlerId) (a a' : α × Record × Store) : Prop where
  answer : a'.1 = a.1
  record : a'.2.1 = a.2.1
  store : Apart h a.2.2 a'.2.2

namespace Apart

/-- Filters give the same answers. -/
theorem screen_congr (hs : Apart h s s') (filters : List FilterId) (r : Record) :
    SameResult h (Store.screen filters r s) (Store.screen filters r s') := by
  obtain ⟨hanswer, hrecord⟩ := Store.screen_congr hs.tests filters r
  exact ⟨hanswer, hrecord, (screen h filters r s).symm.trans (hs.trans (screen h filters r s'))⟩

theorem emitText (hs : Apart h s s') (k : HandlerId) (handler : Handler) (r : Record) :
    SameResult h (s.emitText k handler r) (s'.emitText k handler r) := by
  unfold Store.emitText
  rw [hs.world]
  split
  · exact ⟨rfl, rfl, hs⟩
  · exact ⟨rfl, rfl, (hs.with_world _).setSink k _⟩

theorem emitQueued (hs : Apart h s s') (k : HandlerId) (handler : Handler) (sink : QueueSink)
    (r : Record) : SameResult h (s.emitQueued k handler sink r) (s'.emitQueued k handler sink r) := by
  have hqueue : s'.queueAt sink.queue = s.queueAt sink.queue := by rw [queueAt, queueAt, hs.queues]
  unfold Store.emitQueued
  rw [hqueue]
  split
  · exact ⟨rfl, rfl, hs⟩
  · dsimp only
    split
    · exact ⟨rfl, rfl, hs.setQueue _ _⟩
    · exact ⟨rfl, rfl, hs.setSink k _⟩

theorem handleAtWork (hs : Apart h s s') (k : HandlerId) (handler : Handler) (r : Record) :
    SameResult h (s.handleAtWork k handler r) (s'.handleAtWork k handler r) := by
  have hscreen := hs.screen_congr handler.filters r
  unfold Store.handleAtWork
  rcases hone : Store.screen handler.filters r s with ⟨a, r₁, s₁⟩
  rcases hother : Store.screen handler.filters r s' with ⟨a', r₁', s₁'⟩
  rw [hone, hother] at hscreen
  obtain ⟨rfl, rfl, hstore⟩ := hscreen
  cases a' <;> exact ⟨rfl, rfl, hstore.count k _⟩

theorem closeAtWork (hs : Apart h s s') (k : HandlerId) (handler : Handler) :
    (s'.closeAtWork k handler).1 = (s.closeAtWork k handler).1 ∧
      Apart h (s.closeAtWork k handler).2 (s'.closeAtWork k handler).2 := by
  unfold Store.closeAtWork
  split
  · exact ⟨rfl, hs⟩
  · exact ⟨rfl, hs.modify k _⟩

theorem callOwn (hs : Apart h s s') (k : HandlerId) (handler : Handler) (r : Record) (c : OwnCall) :
    (s'.callOwn k handler r c).1 = (s.callOwn k handler r c).1 ∧
      Apart h (s.callOwn k handler r c).2 (s'.callOwn k handler r c).2 := by
  cases c with
  | handle =>
    obtain ⟨hanswer, hrecord, hstore⟩ := hs.handleAtWork k handler r
    unfold Store.callOwn
    dsimp only
    rw [hanswer, hrecord]
    exact ⟨rfl, hstore.note k _⟩
  | close =>
    obtain ⟨hresult, hstore⟩ := hs.closeAtWork k handler
    unfold Store.callOwn
    dsimp only
    rw [hresult]
    exact ⟨rfl, hstore.note k _⟩
  | format | name | flush | reachSink => exact ⟨rfl, hs.note k _⟩

theorem emitProbe (hs : Apart h s s') (k : HandlerId) (handler : Handler) (p : Probe) (r : Record) :
    SameResult h (s.emitProbe k handler p r) (s'.emitProbe k handler p r) := by
  unfold Store.emitProbe
  split
  · dsimp only
    split
    · exact ⟨rfl, rfl, hs⟩
    · exact ⟨rfl, rfl, hs.note k _⟩
  · exact ⟨rfl, rfl, hs⟩
  · exact ⟨rfl, rfl, hs⟩
  · exact ⟨rfl, rfl, hs⟩
  · next c _ =>
    obtain ⟨hrecord, hstore⟩ := hs.callOwn k handler r c
    exact ⟨rfl, hrecord, hstore⟩

/-- A sink does the same with a record. -/
theorem emit (hs : Apart h s s') (k : HandlerId) (handler : Handler) (r : Record) :
    SameResult h (s.emit k handler r) (s'.emit k handler r) := by
  unfold Store.emit
  split
  · exact ⟨rfl, rfl, hs⟩
  · exact ⟨rfl, rfl, hs⟩
  · exact hs.emitText k handler r
  · exact hs.emitText k handler r
  · exact hs.emitText k handler r
  · exact hs.emitQueued k handler _ r
  · exact hs.emitProbe k handler _ r

theorem settle (hs : Apart h s s') (k : HandlerId) (r : Record)
    (result : Except LogError Delivery) : Apart h (s.settle k r result) (s'.settle k r result) := by
  unfold Store.settle
  split
  · exact (hs.count k _).report _
  · exact hs.count k _

end Apart

/-! ## Handling -/

/-- Two lists have the same handlers, one aside. -/
def SameButOne (h : HandlerId) (idle idle' : List HandlerId) : Prop :=
  ∀ k, k ≠ h → (k ∈ idle' ↔ k ∈ idle)

theorem SameButOne.others (hidle : SameButOne h idle idle') (k : HandlerId) :
    SameButOne h (others idle k) (others idle' k) := by
  intro j hj
  simp [Store.others, hidle j hj]

/-- A handler that goes to work is one handler aside. -/
theorem sameButOne_others (h : HandlerId) (idle : List HandlerId) :
    SameButOne h (others idle h) idle := by
  intro k hk
  simp [Store.others, hk]

/-- The same records are handed on, if each of them does the same. -/
theorem Apart.forward {job : Option (HandlerId × List Record)} (hs : Apart h s s')
    (hone : ∀ {a s s' r}, Apart h s s' → ¬ s.Reaches a h →
      Apart h (s.handle idle a r).2.2 (s'.handle idle' a r).2.2)
    (hfar : ∀ a records, job = some (a, records) → ¬ s.Reaches a h) :
    Apart h (s.forward idle job) (s'.forward idle' job) := by
  cases job with
  | none => exact hs
  | some job =>
    obtain ⟨a, records⟩ := job
    have hfar := hfar a records rfl
    unfold Store.forward
    induction records generalizing s s' with
    | nil => exact hs
    | cons r rs ih =>
      have hlater := (spares_handle idle s r hfar).far hfar
      refine ih (hone hs hfar) ?_ hlater
      intro a' records' heq
      obtain ⟨rfl, -⟩ := Prod.mk.inj (Option.some.inj heq)
      exact hlater

/-- **A record does the same wherever it finds the same on its way**: by induction on the
    number of handlers that are not at work. -/
theorem Apart.handle (hs : Apart h s s') (hidle : SameButOne h idle idle') (r : Record)
    (hfar : ¬ s.Reaches k h) : SameResult h (s.handle idle k r) (s'.handle idle' k r) := by
  induction hn : idle.length using Nat.strongRecOn generalizing idle idle' s s' k r with
  | _ n ih =>
    have hne := ne_of_not_reaches hfar
    rw [handle_eq, handle_eq, hs.handlers k hne]
    cases hk : s.handlers[k]? with
    | none => exact ⟨rfl, rfl, hs⟩
    | some handler =>
      have hscreen := hs.screen_congr handler.filters r
      have hspares := Spares.screen h handler.filters r s
      have hhandlers := handlers_screen handler.filters r s
      dsimp only
      rcases hone : Store.screen handler.filters r s with ⟨a, r₁, t⟩
      rcases hother : Store.screen handler.filters r s' with ⟨a', r₁', t'⟩
      rw [hone] at hspares hhandlers
      rw [hone, hother] at hscreen
      obtain ⟨rfl, rfl, ht⟩ := hscreen
      cases a' with
      | false => exact ⟨rfl, rfl, ht.count k _⟩
      | true =>
        dsimp only at ht hspares hhandlers ⊢
        by_cases hmem : k ∈ idle
        · rw [if_pos hmem, if_pos ((hidle k hne).mpr hmem)]
          cases hsink : handler.sink with
          | memory sink =>
            have hless : (others idle k).length < n := hn ▸ length_others_lt hmem
            have hone : ∀ {a s s' r}, Apart h s s' → ¬ s.Reaches a h →
                Apart h (s.handle (others idle k) a r).2.2 (s'.handle (others idle' k) a r).2.2 :=
              fun hs hfar => (ih _ hless hs (hidle.others k) _ hfar rfl).store
            obtain ⟨-, hjob⟩ := spares_receive (hspares.far hfar) (hhandlers ▸ hk) hsink r₁'
            exact ⟨rfl, rfl, ((ht.setSink k _).forward hone hjob).count k _⟩
          | _ =>
            obtain ⟨hanswer, hrecord, hstore⟩ := ht.emit k handler r₁'
            dsimp only
            rw [hanswer, hrecord]
            exact ⟨rfl, rfl, hstore.settle k _ _⟩
        · rw [if_neg hmem, if_neg fun hin => hmem ((hidle k hne).mp hin)]
          exact ⟨rfl, rfl, ht.count k _⟩

end Logbook.Store
