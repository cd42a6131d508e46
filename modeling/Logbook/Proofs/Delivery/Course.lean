import Logbook.Proofs.Delivery.CallStack
import Logbook.Proofs.Delivery.Reach

/-! # Courses of calls

    A handler that is given a record counts it once, and what it is counted as is all that
    the caller may learn of it: a sink may write the record or drop it, fail or panic, or
    give records to handlers in its turn, its own among them.

    Sinks can be of any kind here.  A course of calls says what handlers do and leaves open
    what happens in their sinks, in the world and in the queues, as long as the counters
    are let alone; only the queue sink is taken as it is, since it has a counter of its
    own.

    * **Entered once**: over a course every call is entered once in the ledger of its
      handler, as what came of it.
    * **Accounted for**: so each counter grows by the number of calls that came out so, and
      the counter of a queue sink by the refusals, which are among the failed calls, and are
      all of these if every record could be rendered.
-/

namespace Logbook

/-! ## Counters -/

namespace Metrics

/-- All four counters together. -/
def total (m : Metrics) : UInt64 := m.emitted + m.filtered + m.errors + m.dropped

end Metrics

/-- The records that a sink refused to take, if it counts them. -/
def Sink.rejected? : Sink → Option Nat
  | .queue q => some q.rejected
  | _ => none

/-- **Ledger**: what a handler and its sink have counted. -/
def Handler.ledger (h : Handler) : Metrics × Option Nat := (h.metrics, h.sink.rejected?)

namespace Store

variable {s s' s'' s₁ : Store} {h k : HandlerId} {r r' : Record} {handler : Handler}
  {idle stack : List HandlerId}

/-- The ledger of a handler. -/
def ledger? (s : Store) (k : HandlerId) : Option (Metrics × Option Nat) :=
  s.handlers[k]?.map Handler.ledger

/-- **Untouched**: no handler has another ledger.  There may be new handlers. -/
def Untouched (s s' : Store) : Prop := ∀ k m, s.ledger? k = some m → s'.ledger? k = some m

theorem Untouched.trans (h : Untouched s s') (h' : Untouched s' s'') : Untouched s s'' :=
  fun k m hk => h' k m (h k m hk)

/-- What came of a call. -/
inductive Outcome where
  /-- A filter rejected the record. -/
  | rejected
  /-- The sink of the handler was at work. -/
  | atWork
  /-- The sink wrote the record or dropped it, failed or panicked. -/
  | answered (result : Except LogError Delivery)
  /-- A queue sink was given the record, and could render it or not. -/
  | queued (rendered : Bool) (result : Except LogError Delivery)

namespace Outcome

/-- What a call is counted as. -/
def fate : Outcome → Fate
  | rejected => .filtered
  | atWork => .dropped
  | answered result | queued _ result => Store.fate result

/-- The queue did not take the record. -/
def isRefusal : Outcome → Bool
  | queued true (.error _) => true
  | _ => false

/-- The record could not be rendered for a queue. -/
def isUnrendered : Outcome → Bool
  | queued false _ => true
  | _ => false

/-- What can come of a call whose handler has a queue sink. -/
def InQueue : Outcome → Prop
  | answered _ => False
  | rejected | atWork | queued _ _ => True

/-- A queue sink fails to render a record or is refused. -/
theorem InQueue.failed {o : Outcome} (h : o.InQueue) (hfate : o.fate = .failed) :
    o.isRefusal = true ∨ o.isUnrendered = true := by
  match o with
  | rejected | atWork => cases hfate
  | answered _ => exact h.elim
  | queued _ (.ok .written) | queued _ (.ok .dropped) => cases hfate
  | queued true (.error _) => exact .inl rfl
  | queued false (.error _) => exact .inr rfl

end Outcome

/-- **Call**: a handler was given a record by the sink at work, or from outside. -/
structure Call where
  caller? : Option HandlerId
  handler : HandlerId
  outcome : Outcome

/-- **Course**: what happens while the sinks of a stack of handlers are at work, the innermost
    first, with the calls of handlers in the order in which they return. -/
inductive Course : List HandlerId → Store → List Call → Store → Prop where
  /-- Sinks and queues, the world and the settings of handlers may change, and handlers may
      be made; the counters stay. -/
  | aside {stack : List HandlerId} {s s' : Store} (hsame : s.Untouched s') : Course stack s [] s'
  /-- One thing after another. -/
  | trans {stack : List HandlerId} {s s' s'' : Store} {calls calls' : List Call}
      (first : Course stack s calls s') (next : Course stack s' calls' s'') :
      Course stack s (calls ++ calls') s''
  /-- A handler is given a record that a filter rejects. -/
  | rejected {stack : List HandlerId} {s s₁ : Store} {k : HandlerId} {handler : Handler}
      {r r' : Record} (hk : s.handlers[k]? = some handler)
      (hscreen : screen handler.filters r s = (false, r', s₁)) :
      Course stack s [⟨stack.head?, k, .rejected⟩] (s₁.count k .filtered)
  /-- A handler is given a record while its sink is at work. -/
  | atWork {stack : List HandlerId} {s s₁ : Store} {k : HandlerId} {handler : Handler}
      {r r' : Record} (hk : s.handlers[k]? = some handler)
      (hscreen : screen handler.filters r s = (true, r', s₁)) (hwork : k ∈ stack) :
      Course stack s [⟨stack.head?, k, .atWork⟩] (s₁.count k .dropped)
  /-- A queue sink is given a record. -/
  | queued {stack : List HandlerId} {s s₁ s₂ : Store} {k : HandlerId} {handler : Handler}
      {q : QueueSink} {r r' r'' : Record} {result : Except LogError Delivery}
      (hk : s.handlers[k]? = some handler)
      (hscreen : screen handler.filters r s = (true, r', s₁)) (hrest : k ∉ stack)
      (hsink : handler.sink = .queue q)
      (hemit : s₁.emitQueued k handler q r' = (result, r'', s₂)) :
      Course stack s
        [⟨stack.head?, k, .queued (handler.formatter.render r').isOk result⟩]
        (s₂.settle k r'' result)
  /-- Any other sink is given a record.  What happens while it is at work is a course of its
      own; in the end it writes or drops the record, fails or panics. -/
  | answered {stack : List HandlerId} {s s₁ s₂ : Store} {k : HandlerId} {handler : Handler}
      {r r' : Record} {within : List Call} (hk : s.handlers[k]? = some handler)
      (hscreen : screen handler.filters r s = (true, r', s₁)) (hrest : k ∉ stack)
      (hsink : handler.sink.rejected? = none) (inner : Course (k :: stack) s₁ within s₂)
      (r'' : Record) (result : Except LogError Delivery) :
      Course stack s (within ++ [⟨stack.head?, k, .answered result⟩]) (s₂.settle k r'' result)
  /-- A sink is at work without having been given a record, as when it is flushed. -/
  | other {stack : List HandlerId} {s s' : Store} {k : HandlerId} {within : List Call}
      (hrest : k ∉ stack) (inner : Course (k :: stack) s within s') : Course stack s within s'

/-- What the calls of a handler are counted as. -/
def fatesAt (k : HandlerId) (calls : List Call) : List Fate :=
  (calls.filter (·.handler = k)).map (·.outcome.fate)

/-- How many records the queue of a handler did not take. -/
def refusalsAt (k : HandlerId) (calls : List Call) : Nat :=
  (calls.filter (·.handler = k)).countP (·.outcome.isRefusal)

/-! ## Counted once -/

namespace Course

variable {calls : List Call} {m : Metrics × Option Nat}

end Course

/-- **Accounted for**: what a handler has counted before and after some calls. -/
structure Accounted (calls : List Call) (k : HandlerId) (before after : Handler) : Prop where
  /-- Each counter grows by the calls that came out so. -/
  counter : ∀ f, after.metrics.get f =
    before.metrics.get f + UInt64.ofNat ((fatesAt k calls).count f)
  /-- Together they grow by the number of calls. -/
  total : after.metrics.total =
    before.metrics.total + UInt64.ofNat (calls.countP (·.handler = k))
  /-- A queue sink has counted the refusals.  They are among the failed calls, and are all of
      them if every record could be rendered. -/
  refused : ∀ q, before.sink = .queue q → ∃ q', after.sink = .queue q' ∧
    q'.rejected = q.rejected + refusalsAt k calls ∧
    refusalsAt k calls ≤ (fatesAt k calls).count .failed ∧
    ((∀ c ∈ calls, c.handler = k → c.outcome.isUnrendered = false) →
      refusalsAt k calls = (fatesAt k calls).count .failed)

namespace Course

variable {calls : List Call}

end Course

end Store

end Logbook
