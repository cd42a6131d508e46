import Logbook.Listener
import Logbook.Proofs.Queue.Feed

/-! # Pipelines through a queue

    Handlers feed a queue, and a listener takes records out of it and gives each to
    its own handlers.  Both go on at the same time: what one of them does comes
    between any two things that the other does.  Whoever starts and stops the
    listener makes one call after the other; a stop first puts a sentinel into the
    queue and returns when the listener has met it, and much can happen between.

    What has been given to the handlers, followed by what is in the queue, is always
    what the queue has accepted.  A stop returns when everything accepted before its
    sentinel has been given to the handlers, and nothing accepted after it.
-/

namespace Logbook

/-- A queue between its producers and its listener, and what has come of it so far. -/
structure Pipeline where
  store : Store
  listener : Listener
  /-- The records that the queue has accepted, in order. -/
  accepted : List Record := []
  /-- The records that the listener has given to its handlers, in order. -/
  dispatched : List Record := []
  /-- While a stop is under way, the records accepted before its sentinel. -/
  before? : Option (List Record) := none

namespace Listener

variable {l : Listener} {s s' : Store} {r : Record}

/-- The record that a listener takes next, and the store without it in the queue. -/
def next? (l : Listener) (s : Store) : Option (Record × Store) :=
  if l.worker = .listening then
    match (s.queueAt l.queue).pop? with
    | some (.record r, rest) => some (r, s.setQueue l.queue rest)
    | _ => none
  else none

/-- The handlers that a record is meant for. -/
def audience (l : Listener) (s : Store) (r : Record) : List HandlerId :=
  if l.respectsLevel then Registry.upTo s r.level l.handlers else l.handlers

/-- To dispatch a record is to give it to those it is meant for, one after the
    other: no handler changes the level of another, or that of the record. -/
theorem dispatch_eq (l : Listener) (hs : List HandlerId) (r : Record) (s : Store) :
    l.dispatch hs r s =
      (Registry.callEach (if l.respectsLevel then Registry.upTo s r.level hs else hs) r s).2 := by
  induction hs generalizing r s with
  | nil => cases l.respectsLevel <;> rfl
  | cons h hs ih =>
    -- The first call changes no level, so the others are chosen as they were at the start.
    have hframe := s.frame_deliver h r
    have hrest : Registry.upTo (s.deliver h r).2.2 (s.deliver h r).2.1.level hs =
        Registry.upTo s r.level hs := by
      rw [Registry.upTo_congr hframe.kept]
      exact congrArg (Registry.upTo s · hs) hframe.event.level_eq
    unfold dispatch skips
    cases hrespects : l.respectsLevel with
    | false => simpa [Registry.callEach, hrespects] using ih _ _
    | true =>
      simp only [hrespects, if_true] at ih
      -- Where levels count, the first handler is passed over or called.
      by_cases hlevel : r.level < s.levelOf h
      · have hout : ¬ s.levelOf h ≤ r.level := Level.not_le_iff.mpr hlevel
        have hfirst : Registry.upTo s r.level (h :: hs) = Registry.upTo s r.level hs := by
          simp [Registry.upTo, hout]
        simp only [hlevel, decide_true, Bool.and_self, if_true, hfirst]
        exact ih r s
      · have hin : s.levelOf h ≤ r.level := by
          by_contra hnot
          exact hlevel (Level.not_le_iff.mp hnot)
        have hfirst : Registry.upTo s r.level (h :: hs) = h :: Registry.upTo s r.level hs := by
          simp [Registry.upTo, hin]
        simp only [hlevel, decide_false, Bool.and_false, Bool.false_eq_true, if_false, if_true,
          hfirst, Registry.callEach]
        rw [ih, hrest]

/-- A listener that takes a record gives it to those it is meant for, and goes on. -/
theorem step_of_next? (h : l.next? s = some (r, s')) :
    step (l, s) = (l, (Registry.callEach (l.audience s' r) r s').2) := by
  unfold next? at h
  split at h
  · next hworker =>
    split at h
    · next r' rest hpop =>
      injection h with h
      obtain ⟨rfl, rfl⟩ := Prod.mk.inj h
      simp [step, hworker, hpop, dispatch_eq, audience]
    · cases h
  · cases h

/-- A listener that takes no record leaves the queue as it is, unless it meets a
    sentinel. -/
theorem step_of_next?_eq_none (h : l.next? s = none) :
    step (l, s) = (l, s) ∨ ∃ rest, l.worker = .listening ∧
      (s.queueAt l.queue).pop? = some (.sentinel, rest) ∧
      step (l, s) = ({ l with worker := .ended }, s.setQueue l.queue rest) := by
  unfold next? at h
  split at h
  · next hworker =>
    cases hpop : (s.queueAt l.queue).pop? with
    | none =>
      left
      simp [step, hworker, hpop]
    | some p =>
      obtain ⟨item, rest⟩ := p
      cases item with
      | record r => simp [hpop] at h
      | sentinel =>
        right
        exact ⟨rest, hworker, rfl, by simp [step, hworker, hpop]⟩
  · next hworker =>
    left
    simp [step, hworker]

end Listener

namespace Pipeline

open Store

variable {x y : Pipeline}

/-- The records that wait in the queue, the oldest first. -/
def queued (x : Pipeline) : List Record := x.store.recordsIn x.listener.queue

/-! ## What can happen -/

/-- A handler is given a record. -/
def produce (x : Pipeline) (h : HandlerId) (r : Record) : Pipeline :=
  let s := (x.store.deliver h r).2.2
  { x with store := s, accepted := x.accepted ++ gained x.listener.queue x.store s }

/-- The listener takes what is first in the queue, and gives a record to its
    handlers; these may feed the queue themselves. -/
def receive (x : Pipeline) : Pipeline :=
  let (l, s) := Listener.step (x.listener, x.store)
  match x.listener.next? x.store with
  | none => { x with listener := l, store := s }
  | some (r, popped) =>
    { x with
      listener := l, store := s, dispatched := x.dispatched ++ [r]
      accepted := x.accepted ++ gained x.listener.queue popped s }

/-- A stop puts its sentinel into the queue. -/
def signal (x : Pipeline) : Pipeline :=
  { x with store := x.listener.signal x.store, before? := some x.accepted }

/-- A stop returns. -/
def release (x : Pipeline) : Pipeline :=
  { x with listener := x.listener.release, before? := none }

/-- **Step**: what can happen next.  A stop waits for room before it puts its sentinel;
    that there is room is not asked for here, which only allows more. -/
inductive Step (x : Pipeline) : Pipeline → Prop where
  | produce (h : HandlerId) (r : Record) : Step x (x.produce h r)
  | start (l : Listener) (started : x.listener.start = .ok l) : Step x { x with listener := l }
  | receive : Step x x.receive
  | signal (running : x.listener.isRunning) (idle : x.before? = none) : Step x x.signal
  | release (ended : x.listener.worker = .ended) : Step x x.release

/-- **Reachable**: whatever has happened since a listener that was not running was set
    to a queue, which may have held records then. -/
inductive Reachable : Pipeline → Prop where
  | begin (s : Store) (l : Listener) (rs : List Record) (there : l.queue < s.queues.size)
      (idle : l.worker = .idle) (waiting : (s.queueAt l.queue).items = rs.map .record) :
      Reachable { store := s, listener := l, accepted := rs }
  | step {x y : Pipeline} (before : Reachable x) (next : Step x y) : Reachable y

/-! ## What is kept -/

/-- **Ordered**: what was accepted is what was dispatched and what waits, in this
    order.  There is a sentinel in the queue exactly as long as a stop waits for the
    listener to meet it, and it stands where the stop found the end of the queue. -/
inductive Ordered (x : Pipeline) : Prop where
  | flowing (waiting : List Record) (mark : x.before? = none) (worker : x.listener.worker ≠ .ended)
      (items : (x.store.queueAt x.listener.queue).items = waiting.map .record)
      (all : x.accepted = x.dispatched ++ waiting)
  | stopping (before after : List Record) (mark : x.before? = some (x.dispatched ++ before))
      (worker : x.listener.worker = .listening)
      (items : (x.store.queueAt x.listener.queue).items =
        before.map .record ++ .sentinel :: after.map .record)
      (all : x.accepted = x.dispatched ++ before ++ after)
  | stopped (after : List Record) (mark : x.before? = some x.dispatched)
      (worker : x.listener.worker = .ended)
      (items : (x.store.queueAt x.listener.queue).items = after.map .record)
      (all : x.accepted = x.dispatched ++ after)

/-- Whatever the stage, records that come behind all others in the queue are accepted and
    wait.  Nothing that a sentinel or a stop tells apart is in front of them. -/
theorem Ordered.grow (h : Ordered x) (rs : List Record) (hlistener : y.listener = x.listener)
    (hmark : y.before? = x.before?) (hdispatched : y.dispatched = x.dispatched)
    (haccepted : y.accepted = x.accepted ++ rs)
    (hitems : (y.store.queueAt x.listener.queue).items =
      (x.store.queueAt x.listener.queue).items ++ rs.map .record) : Ordered y := by
  cases h with
  | flowing waiting mark worker items all =>
    refine .flowing (waiting ++ rs) (hmark.trans mark) (by rwa [hlistener]) ?_ ?_
    · rw [hlistener, hitems, items, List.map_append]
    · rw [haccepted, hdispatched, all, List.append_assoc]
  | stopping before after mark worker items all =>
    refine .stopping before (after ++ rs) ?_ (by rwa [hlistener]) ?_ ?_
    · rw [hmark, mark, hdispatched]
    · rw [hlistener, hitems, items, List.map_append, List.append_assoc, List.cons_append]
    · rw [haccepted, hdispatched, all, List.append_assoc]
  | stopped after mark worker items all =>
    refine .stopped (after ++ rs) ?_ (by rwa [hlistener]) ?_ ?_
    · rw [hmark, mark, hdispatched]
    · rw [hlistener, hitems, items, List.map_append]
    · rw [haccepted, hdispatched, all, List.append_assoc]

/-- What taking a record comes to. -/
theorem receive_of_next? {r : Record} {popped : Store}
    (h : x.listener.next? x.store = some (r, popped)) :
    x.receive = { x with
      store := (Registry.callEach (x.listener.audience popped r) r popped).2
      dispatched := x.dispatched ++ [r]
      accepted := x.accepted ++ gained x.listener.queue popped
        (Registry.callEach (x.listener.audience popped r) r popped).2 } := by
  simp only [receive, h, Listener.step_of_next? h]

/-- A listener makes no queue and removes none. -/
theorem size_receive (x : Pipeline) : x.receive.store.queues.size = x.store.queues.size := by
  cases hnext : x.listener.next? x.store with
  | none =>
    rcases Listener.step_of_next?_eq_none hnext with hstep | ⟨rest, -, -, hstep⟩
    · rw [receive, hnext, hstep]
    · rw [receive, hnext, hstep]
      exact size_setQueue _ _ _
  | some p =>
    obtain ⟨r, popped⟩ := p
    -- Neither taking the record nor what its handlers do makes a queue.
    have hpopped : popped.queues.size = x.store.queues.size := by
      unfold Listener.next? at hnext
      split at hnext
      · split at hnext
        · injection hnext with hnext
          obtain ⟨-, rfl⟩ := Prod.mk.inj hnext
          exact size_setQueue _ _ _
        · cases hnext
      · cases hnext
    rw [receive_of_next? hnext]
    exact (fed_callEach _ r popped).size.trans hpopped

/-- A listener stays with its queue. -/
theorem queue_receive (x : Pipeline) : x.receive.listener.queue = x.listener.queue := by
  cases hnext : x.listener.next? x.store with
  | none =>
    rcases Listener.step_of_next?_eq_none hnext with hstep | ⟨rest, -, -, hstep⟩ <;>
      rw [receive, hnext, hstep]
  | some p => rw [receive_of_next? hnext]

theorem there_receive (there : x.listener.queue < x.store.queues.size) :
    x.receive.listener.queue < x.receive.store.queues.size := by
  rwa [queue_receive, size_receive]

/-- The queue of a pipeline is there. -/
theorem Reachable.there (h : Reachable x) : x.listener.queue < x.store.queues.size := by
  induction h with
  | begin s l rs there _ _ => exact there
  | @step x y _ next ih =>
    cases next with
    | produce h r => exact (x.store.fed_deliver h r).size.symm ▸ ih
    | start l started =>
      unfold Listener.start at started
      split at started
      · cases started
      · injection started with started
        subst started
        exact ih
    | receive => exact there_receive ih
    | signal _ _ => exact (size_setQueue _ _ _).symm ▸ ih
    | release _ => exact ih

end Pipeline

end Logbook
