import Logbook.Store

/-! # Queue listeners

    A listener takes the records of a queue, one at a time and in order, and
    gives each to its handlers.  It ends at a sentinel; to stop it is to put one
    into the queue and to wait for the end.
-/

namespace Logbook

/-- What a listener is doing. -/
inductive Worker where
  | idle
  /-- It takes records from the queue. -/
  | listening
  /-- It has met a sentinel, and nobody has waited for its end yet. -/
  | ended
  deriving Repr, DecidableEq

/-- Feeds handlers from a queue. -/
structure Listener where
  queue : QueueId
  handlers : List HandlerId
  /-- Handlers whose level is above that of a record do not get it. -/
  respectsLevel : Bool := false
  worker : Worker := .idle
  deriving Repr, DecidableEq, Inhabited

namespace Listener

/-- The listener has been started and not been stopped. -/
def isRunning (l : Listener) : Bool := l.worker ≠ .idle

/-- The listener leaves a handler out for a record of the given level. -/
def skips (l : Listener) (s : Store) (level : Level) (h : HandlerId) : Bool :=
  l.respectsLevel && decide (level < s.levelOf h)

/-- Gives a record to handlers one after the other. -/
def dispatch (l : Listener) : List HandlerId → Record → Store → Store
  | [], _, s => s
  | h :: hs, r, s =>
    if l.skips s r.level h then l.dispatch hs r s
    else
      let (_, r, s) := s.deliver h r
      l.dispatch hs r s

/-- Takes one item from the queue. -/
def step (p : Listener × Store) : Listener × Store :=
  let (l, s) := p
  if l.worker ≠ .listening then (l, s)
  else
    match (s.queueAt l.queue).pop? with
    | none => (l, s)
    | some (.sentinel, queue) => ({ l with worker := .ended }, s.setQueue l.queue queue)
    | some (.record r, queue) => (l, l.dispatch l.handlers r (s.setQueue l.queue queue))

/-- Takes as many items as there are in the queue. -/
def run (l : Listener) (s : Store) : Listener × Store :=
  Nat.repeat step (s.queueAt l.queue).items.length (l, s)

/-- Starts the listener. -/
def start (l : Listener) : Except LogError Listener :=
  if l.isRunning then .error (.config "queue listener" "Listener already started")
  else .ok { l with worker := .listening }

/-- Puts a sentinel into the queue, behind everything that is in it. -/
def signal (l : Listener) (s : Store) : Store :=
  s.setQueue l.queue ((s.queueAt l.queue).push .sentinel)

/-- Lets go of a worker that has ended. -/
def release (l : Listener) : Listener := { l with worker := .idle }

/-- Stops the listener, after the records that are in the queue. -/
def stop (l : Listener) (s : Store) : Listener × Store :=
  if l.isRunning then
    let (l, s) := l.run (l.signal s)
    (l.release, s)
  else (l, s)

/-- For a developer. -/
def inspect (l : Listener) (s : Store) : String :=
  "QueueListener \x7b queue: " ++ (s.queueAt l.queue).inspect ++
    s!", handlers: {l.handlers.length}, respect_handler_level: {l.respectsLevel}, " ++
    s!"running: {l.isRunning} \x7d"

end Listener

end Logbook
