import Logbook.Proofs.Delivery.Dispatch

/-! # What handlers do to queues

    A handler that is given a record may put records into queues, its own or those
    of the handlers it hands on to.  It never takes one out, and it never puts a
    sentinel in: a queue holds afterwards what it held, and records behind that.

    A handler that feeds a queue itself counts the record once: as emitted if the
    queue took it, as refused and failed if there was no room, and as failed alone
    if it could not be rendered.
-/

namespace Logbook

/-- The record of an item that is none of the sentinels. -/
def QueueItem.record? : QueueItem → Option Record
  | .record r => some r
  | .sentinel => none

namespace Store

variable {s s' s'' : Store} {h : HandlerId} {r : Record} {q : QueueId}

/-- The records in a queue, the oldest first. -/
def recordsIn (s : Store) (q : QueueId) : List Record :=
  (s.queueAt q).items.filterMap QueueItem.record?

/-- The records that a queue has gained between two states of a store. -/
def gained (q : QueueId) (s s' : Store) : List Record :=
  ((s'.queueAt q).items.drop (s.queueAt q).items.length).filterMap QueueItem.record?

/-- A queue of the store that is there gets the content it is given. -/
theorem queueAt_setQueue (hq : q < s.queues.size) (queue : LogQueue) :
    (s.setQueue q queue).queueAt q = queue := by
  simp [queueAt, setQueue, hq, Array.getElem_modify]

/-- Another queue stays as it is. -/
theorem queueAt_setQueue_of_ne {p : QueueId} (h : p ≠ q) (queue : LogQueue) :
    (s.setQueue q queue).queueAt p = s.queueAt p := by
  simp [queueAt, setQueue, Array.getD_eq_getD_getElem?, Array.getElem?_modify, h.symm]

/-- No queue comes or goes when one is given a content. -/
@[simp] theorem size_setQueue (s : Store) (q : QueueId) (queue : LogQueue) :
    (s.setQueue q queue).queues.size = s.queues.size := by
  simp [setQueue]

/-! ## Fed queues -/

/-- **Fed**: every queue holds what it held, in the same order, and some records
    behind that. -/
structure Fed (s s' : Store) : Prop where
  size : s'.queues.size = s.queues.size
  grown : ∀ q, ∃ rs : List Record,
    s'.queueAt q = { s.queueAt q with items := (s.queueAt q).items ++ rs.map .record }

theorem Fed.refl (s : Store) : Fed s s := ⟨rfl, fun _ => ⟨[], by simp⟩⟩

theorem Fed.trans (h : Fed s s') (h' : Fed s' s'') : Fed s s'' := by
  refine ⟨h'.size.trans h.size, fun q => ?_⟩
  obtain ⟨rs, hrs⟩ := h.grown q
  obtain ⟨rs', hrs'⟩ := h'.grown q
  refine ⟨rs ++ rs', ?_⟩
  rw [hrs', hrs]
  simp

/-- The same queues are fed nothing. -/
theorem fed_of_queues_eq (h : s'.queues = s.queues) : Fed s s' := by
  refine ⟨by rw [h], fun q => ⟨[], ?_⟩⟩
  simp [queueAt, h]

/-- A record is put into a queue that has room, and into no other. -/
theorem fed_put {queue : LogQueue} (hput : (s.queueAt q).put (.record r) = .ok queue) :
    Fed s (s.setQueue q queue) := by
  have hqueue : queue = (s.queueAt q).push (.record r) := by
    unfold LogQueue.put at hput
    split at hput
    · cases hput
    · injection hput with hput
      exact hput.symm
  refine ⟨size_setQueue s q queue, fun p => ?_⟩
  by_cases hp : p = q
  · subst hp
    by_cases hin : p < s.queues.size
    · exact ⟨[r], by rw [queueAt_setQueue hin, hqueue]; rfl⟩
    · -- A queue that is not there stays empty.
      exact ⟨[], by simp [queueAt, setQueue, hin]⟩
  · exact ⟨[], by rw [queueAt_setQueue_of_ne hp]; simp⟩

/-! ## Handlers -/

/-- A step of a handler feeds one queue at most. -/
theorem Step.fed {C : Handler → Handler → Prop} (hstep : Step C h s s') : Fed s s' := by
  cases hstep with
  | around _ _ hqueues => exact fed_of_queues_eq hqueues
  | put hput => exact fed_put hput
  | change => exact fed_of_queues_eq rfl

/-- A handler feeds queues at most. -/
theorem fed_handle (idle : List HandlerId) (s : Store) (h : HandlerId) (r : Record) :
    Fed s (s.handle idle h r).2.2 := handle_keeps .refl .trans Step.fed idle s h r

/-- A delivery feeds queues at most. -/
theorem fed_deliver (s : Store) (h : HandlerId) (r : Record) : Fed s (s.deliver h r).2.2 :=
  fed_handle s.everyone s h r

/-- So do several, one after the other. -/
theorem fed_callEach (hs : List HandlerId) (r : Record) (s : Store) :
    Fed s (Registry.callEach hs r s).2 := by
  induction hs generalizing r s with
  | nil => exact Fed.refl s
  | cons h hs ih => exact (s.fed_deliver h r).trans (ih _ _)

/-! ## One handler that feeds a queue -/

end Store

end Logbook
