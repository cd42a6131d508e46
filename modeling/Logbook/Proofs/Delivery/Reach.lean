import Logbook.Proofs.Delivery.Frame
import Logbook.Proofs.Delivery.Release
import Mathlib.Logic.Relation

/-! # How far a record goes

    A handler hands records on to its target only, and when nobody holds a handler any
    more, what follows concerns that handler and its target.  So a handler to which no
    chain of targets leads is spared: it stays as it is, and no chain to it comes into
    being.
-/

namespace Logbook

namespace Store

variable {s s' s'' : Store} {h k t : HandlerId} {r : Record} {handler : Handler}

/-! ## Chains of targets -/

/-- **Reaches**: a chain of targets leads from one handler to another. -/
def Reaches (s : Store) (k h : HandlerId) : Prop :=
  Relation.ReflTransGen (fun a b => s.targetOf? a = some b) k h

/-- What the target of a handler reaches, the handler reaches. -/
theorem Reaches.of_target (hk : s.targetOf? k = some t) (ht : s.Reaches t h) : s.Reaches k h :=
  .head hk ht

/-- A handler that does not reach another one is not that one. -/
theorem ne_of_not_reaches (hfar : ¬ s.Reaches k h) : k ≠ h := by
  rintro rfl
  exact hfar .refl

/-- A handler that gets another target is not reached by more than before. -/
theorem Reaches.of_elsewhere (hsame : ∀ a, a ≠ h → s'.targetOf? a = s.targetOf? a)
    (hreach : s'.Reaches k h) : s.Reaches k h := by
  induction hreach using Relation.ReflTransGen.head_induction_on with
  | refl => exact .refl
  | @head a b hab _ ih =>
    by_cases ha : a = h
    · rw [ha]
      exact .refl
    · rw [hsame a ha] at hab
      exact ih.of_target hab

/-! ## Sparing a handler -/

/-- **Spares**: one handler is as it was, no handler has a new target, and the filters test
    what they tested. -/
structure Spares (h : HandlerId) (s s' : Store) : Prop where
  handler : s'.handlers[h]? = s.handlers[h]?
  size : s'.handlers.size = s.handlers.size
  targets : ∀ k t, s'.targetOf? k = some t → s.targetOf? k = some t
  tests : s'.tests = s.tests

namespace Spares

theorem refl (h : HandlerId) (s : Store) : Spares h s s := ⟨rfl, rfl, fun _ _ => id, rfl⟩

theorem trans (hs : Spares h s s') (hs' : Spares h s' s'') : Spares h s s'' :=
  ⟨hs'.handler.trans hs.handler, hs'.size.trans hs.size,
    fun k t ht => hs.targets k t (hs'.targets k t ht), hs'.tests.trans hs.tests⟩

/-- Chains of targets have become fewer. -/
theorem reaches (hs : Spares h s s') {a b : HandlerId} (hreach : s'.Reaches a b) :
    s.Reaches a b := Relation.ReflTransGen.mono (fun k t => hs.targets k t) a b hreach

/-- What was out of reach is so still. -/
theorem far (hs : Spares h s s') {a b : HandlerId} (hfar : ¬ s.Reaches a b) : ¬ s'.Reaches a b :=
  fun hreach => hfar (hs.reaches hreach)

/-- Handlers and filters are all that matters. -/
theorem of_eq (hh : s'.handlers = s.handlers) (hf : s'.filters = s.filters) : Spares h s s' := by
  refine ⟨by rw [hh], by rw [hh], ?_, congrArg (Array.map Filter.test) hf⟩
  intro k t ht
  rw [targetOf?_eq, hh, ← targetOf?_eq] at ht
  exact ht

/-- Filters spare every handler. -/
theorem screen (h : HandlerId) (filters : List FilterId) (r : Record) (s : Store) :
    Spares h s (Store.screen filters r s).2.2 := by
  have hhandlers := handlers_screen filters r s
  refine ⟨by rw [hhandlers], by rw [hhandlers], ?_, tests_screen filters r s⟩
  intro k t ht
  rw [targetOf?_eq, hhandlers, ← targetOf?_eq] at ht
  exact ht

end Spares

/-! ## What a record and a release spare -/

/-- Steps of handlers that do not include one spare that one. -/
theorem Spares.of_steps {P : HandlerId → Prop} (hs : Steps Handler.Lasts P s s') (hne : ¬ P h) :
    Spares h s s' where
  handler := hs.keeps (R := fun s s' => s'.handlers[h]? = s.handlers[h]?) (fun _ => rfl)
    (fun hs hs' => hs'.trans hs) fun hP hstep => hstep.handler_of_ne fun heq => hne (heq ▸ hP)
  size := hs.size
  targets _ _ ht := hs.target ht
  tests := hs.tests

/-- The handlers that are reached enclose themselves. -/
theorem encloses_reaches (s : Store) (k : HandlerId) : s.Encloses (s.Reaches k) :=
  fun _ _ hreach ht => hreach.tail ht

/-- A memory sink that is given a record keeps its target, and what it hands on goes no
    farther than the target does. -/
theorem spares_receive {sink : MemorySink} (hfar : ¬ s.Reaches k h)
    (hk : s.handlers[k]? = some handler) (hsink : handler.sink = .memory sink) (r : Record) :
    Spares h s (s.setSink k (.memory (sink.receive r).2)) ∧
      ∀ t records, (sink.receive r).1 = some (t, records) →
        ¬ (s.setSink k (.memory (sink.receive r).2)).Reaches t h := by
  have hset : Spares h s (s.setSink k (.memory (sink.receive r).2)) :=
    .of_steps ((steps_receive (P := (· = k)) s r rfl hk hsink).mono fun _ _ hr => hr.lasts)
      (ne_of_not_reaches hfar).symm
  refine ⟨hset, ?_⟩
  intro t records hjob
  have ht := (targetOf?_memory hk hsink).trans (sink.target_of_receive hjob)
  exact hset.far fun hreach => hfar (hreach.of_target ht)

/-- **A record spares what its handler does not reach.** -/
theorem spares_handle (idle : List HandlerId) (s : Store) (r : Record) (hfar : ¬ s.Reaches k h) :
    Spares h s (s.handle idle k r).2.2 :=
  .of_steps ((steps_handle idle s r .refl (s.encloses_reaches k)).mono fun _ _ hr => hr.lasts) hfar

/-- To close a handler spares what it does not reach. -/
theorem spares_closeAmong (idle : List HandlerId) (s : Store) (hfar : ¬ s.Reaches k h) :
    Spares h s (s.closeAmong idle k).2 :=
  .of_steps (steps_closeAmong idle s .refl (s.encloses_reaches k)) hfar

/-- **To let go of a handler spares what it does not reach.** -/
theorem spares_letGoAmong (idle : List HandlerId) (s : Store) (hfar : ¬ s.Reaches k h) :
    Spares h s (s.letGoAmong idle k) :=
  .of_steps (steps_letGoAmong idle s .refl (s.encloses_reaches k)) hfar

end Store

end Logbook
