import Logbook.Record

/-! # Queues of records

    A queue takes records at one end and gives them out at the other, in order
    and each once.  It may have a capacity; a record that finds it full is
    refused.  A sentinel among the records tells a listener to stop.
-/

namespace Logbook

/-- What travels through a queue. -/
inductive QueueItem where
  | record (r : Record)
  | sentinel
  deriving Repr, DecidableEq

/-- A queue, its oldest item first. -/
structure LogQueue where
  capacity? : Option Nat := none
  items : List QueueItem := []
  deriving Repr, DecidableEq, Inhabited

namespace LogQueue

/-- There is no room for another item. -/
def isFull (q : LogQueue) : Bool :=
  match q.capacity? with
  | some n => decide (n ≤ q.items.length)
  | none => false

/-- Puts an item at the end, whether there is room or not. -/
def push (q : LogQueue) (item : QueueItem) : LogQueue := { q with items := q.items ++ [item] }

/-- Puts an item at the end if there is room. -/
def put (q : LogQueue) (item : QueueItem) : Except LogError LogQueue :=
  if q.isFull then .error (.queueFull (q.capacity?.getD 0)) else .ok (q.push item)

/-- Takes the oldest item. -/
def pop? (q : LogQueue) : Option (QueueItem × LogQueue) :=
  match q.items with
  | [] => none
  | item :: rest => some (item, { q with items := rest })

/-- For a developer. -/
def inspect (q : LogQueue) : String :=
  let capacity :=
    match q.capacity? with
    | none => "None"
    | some n => s!"Some({n})"
  "LogQueue \x7b capacity: " ++ s!"{capacity}, len: {q.items.length} \x7d"

/-- A new item comes last. -/
@[simp] theorem items_push (q : LogQueue) (item : QueueItem) :
    (q.push item).items = q.items ++ [item] := rfl

/-- Pushing leaves the capacity as it is. -/
@[simp] theorem capacity_push (q : LogQueue) (item : QueueItem) :
    (q.push item).capacity? = q.capacity? := rfl

end LogQueue

end Logbook
