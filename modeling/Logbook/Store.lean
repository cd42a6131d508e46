import Logbook.Handler

/-! # The store

    All handlers, filters and queues with the world around them, and the way of a
    record through a handler: filters, then the sink, then one counter.

    A handler can be reached again while it is at work, through a memory sink
    whose target leads back to it or through a sink that calls it.  Such a record
    is dropped.  The handlers that are not at work are passed along, and their
    number falls with each handler that a record is handed on to.
-/

namespace Logbook

/-- Handlers, filters and queues, and the world around them. -/
structure Store where
  world : World := {}
  /-- The surroundings in which records are made. -/
  origin : Origin
  handlers : Array Handler := #[]
  filters : Array Filter := #[]
  queues : Array LogQueue := #[]
  /-- The handlers that something outside the store holds, each once for every
      holder. -/
  held : List HandlerId := []

namespace Store

/-! ## Parts -/

/-- Adds a handler. -/
def addHandler (s : Store) (h : Handler) : HandlerId × Store :=
  (s.handlers.size, { s with handlers := s.handlers.push h })

/-- Adds a filter. -/
def addFilter (s : Store) (f : Filter) : FilterId × Store :=
  (s.filters.size, { s with filters := s.filters.push f })

/-- Adds a queue. -/
def addQueue (s : Store) (q : LogQueue) : QueueId × Store :=
  (s.queues.size, { s with queues := s.queues.push q })

/-- Changes a handler. -/
def modify (s : Store) (h : HandlerId) (f : Handler → Handler) : Store :=
  { s with handlers := s.handlers.modify h f }

/-- Gives a handler another sink. -/
def setSink (s : Store) (h : HandlerId) (sink : Sink) : Store := s.modify h ({ · with sink })

/-- Counts a record of a handler. -/
def count (s : Store) (h : HandlerId) (f : Fate) : Store := s.modify h (·.count f)

/-- The level of a handler. -/
def levelOf (s : Store) (h : HandlerId) : Level := (s.handlers[h]?.map Handler.level).getD Level.notset

/-- The name of a handler. -/
def nameOf (s : Store) (h : HandlerId) : String := (s.handlers[h]?.map Handler.name).getD ""

/-- The target of a handler with a memory sink. -/
def targetOf? (s : Store) (h : HandlerId) : Option HandlerId :=
  match s.handlers[h]?.map Handler.sink with
  | some (.memory sink) => sink.target?
  | _ => none

/-- The name of the target of a handler, asked for while the handler is at work. -/
def targetNameOf? (s : Store) (h : HandlerId) : Option String :=
  (s.targetOf? h).map fun target =>
    if target = h then (s.handlers[h]?.map Handler.nameAtWork).getD "" else s.nameOf target

/-- A queue of the store. -/
def queueAt (s : Store) (q : QueueId) : LogQueue := s.queues.getD q {}

/-- Gives a queue of the store another content. -/
def setQueue (s : Store) (q : QueueId) (queue : LogQueue) : Store :=
  { s with queues := s.queues.modify q fun _ => queue }

/-- Writes lines to standard error. -/
def report (s : Store) (lines : List String) : Store :=
  { s with world := lines.foldl World.report s.world }

/-- Reports a failure inside the log that nobody is told of otherwise. -/
def complain (s : Store) (line : String) : Store := { s with world := s.world.complain line }

/-! ## Filters -/

/-- Asks one filter about a record, which it may change. -/
def ask (s : Store) (f : FilterId) (r : Record) : Bool × Record × Store :=
  match s.filters[f]? with
  | none => (true, r, s)
  | some filter =>
    let (accepted, r) := filter.test r
    (accepted, r,
      { s with filters := s.filters.modify f fun x => { x with calls := x.calls + 1 } })

/-- Asks filters one after the other, up to the first that rejects the record. -/
def screen : List FilterId → Record → Store → Bool × Record × Store
  | [], r, s => (true, r, s)
  | f :: fs, r, s =>
    match s.ask f r with
    | (true, r, s) => screen fs r s
    | (false, r, s) => (false, r, s)

/-! ## One sink -/

/-- Notes a record that could not be written. -/
def fail (s : Store) (h : HandlerId) (r : Record) (e : LogError) : Store :=
  (s.count h .failed).report (Handler.failureReport r e)

/-- What a result of a sink counts as. -/
def fate : Except LogError Delivery → Fate
  | .ok .written => .emitted
  | .ok .dropped => .dropped
  | .error (.reentrant _) => .dropped
  | .error _ => .failed

/-- Counts the result of a sink, and reports a failure. -/
def settle (s : Store) (h : HandlerId) (r : Record) (result : Except LogError Delivery) : Store :=
  match fate result, result with
  | .failed, .error e => s.fail h r e
  | f, _ => s.count h f

/-- Renders a record and writes the text to a sink that writes texts. -/
def emitText (s : Store) (h : HandlerId) (handler : Handler) (r : Record) :
    Except LogError Delivery × Record × Store :=
  let kept := handler.formatter.keep r
  match handler.formatter.render r with
  | .error e => (.error e, kept, s)
  | .ok text =>
    let (result, sink, world) := handler.sink.writeText text s.world
    (result, kept, { s with world }.setSink h sink)

/-- Renders a record and puts a copy that carries the text into a queue.  A
    refusal is counted. -/
def emitQueued (s : Store) (h : HandlerId) (handler : Handler) (sink : QueueSink) (r : Record) :
    Except LogError Delivery × Record × Store :=
  let kept := handler.formatter.keep r
  match handler.formatter.render r with
  | .error e => (.error e, kept, s)
  | .ok text =>
    match (s.queueAt sink.queue).put (.record (kept.prepared text)) with
    | .ok queue => (.ok .written, kept, s.setQueue sink.queue queue)
    | .error e =>
      (.error e, kept, s.setSink h (.queue { sink with rejected := sink.rejected + 1 }))

/-- Keeps a line in the probe of a handler. -/
def note (s : Store) (h : HandlerId) (line : String) : Store :=
  s.modify h fun x =>
    match x.sink with
    | .probe p => { x with sink := .probe (p.note line) }
    | _ => x

/-- A handler that is at work is given a record. -/
def handleAtWork (s : Store) (h : HandlerId) (handler : Handler) (r : Record) :
    Bool × Record × Store :=
  match screen handler.filters r s with
  | (false, r, s) => (false, r, s.count h .filtered)
  | (true, r, s) => (true, r, s.count h .dropped)

/-- A handler that is at work is closed: it counts as closed, but its sink is not
    reached. -/
def closeAtWork (s : Store) (h : HandlerId) (handler : Handler) : Except LogError Unit × Store :=
  if handler.closed then (.ok (), s)
  else (.error handler.reentered, s.modify h ({ · with closed := true }))

/-- A probe calls its own handler. -/
def callOwn (s : Store) (h : HandlerId) (handler : Handler) (r : Record) :
    OwnCall → Record × Store
  | .handle =>
    let (accepted, r, s) := s.handleAtWork h handler r
    (r, s.note h s!"handle: {accepted}")
  | .name => (r, s.note h s!"name: {handler.nameAtWork}")
  | .flush => (r, s.note h s!"flush: {Probe.outcomeText (.ok ())}")
  | .close =>
    let (result, s) := s.closeAtWork h handler
    (r, s.note h s!"close: {Probe.outcomeText result}")
  | .format =>
    let text :=
      match handler.formatter.render r with
      | .ok text => text
      | .error e => "error: " ++ e.message
    (handler.formatter.keep r, s.note h s!"format: {text}")
  | .reachSink => (r, s.note h "with_sink: false")

/-- A probe does with a record what its script says. -/
def emitProbe (s : Store) (h : HandlerId) (handler : Handler) (p : Probe) (r : Record) :
    Except LogError Delivery × Record × Store :=
  match p.react r with
  | .keep =>
    let kept := handler.formatter.keep r
    match handler.formatter.render r with
    | .error e => (.error e, kept, s)
    | .ok text => (.ok .written, kept, s.note h text)
  | .drop => (.ok .dropped, r, s)
  | .fail e => (.error e, r, s)
  | .panic message? => (.error (.panicked (Probe.panicText message?)), r, s)
  | .call c =>
    let (r, s) := s.callOwn h handler r c
    (.ok .written, r, s)

/-- Gives a record to a sink that hands nothing on. -/
def emit (s : Store) (h : HandlerId) (handler : Handler) (r : Record) :
    Except LogError Delivery × Record × Store :=
  match handler.sink with
  | .null | .memory _ => (.ok .written, r, s)
  | .stream _ | .file _ | .socket _ => s.emitText h handler r
  | .queue sink => s.emitQueued h handler sink r
  | .probe p => s.emitProbe h handler p r

/-! ## Handling -/

/-- The handlers that are left when one goes to work. -/
def others (idle : List HandlerId) (h : HandlerId) : List HandlerId := idle.filter (· ≠ h)

/-- A handler that is taken out of the idle ones leaves fewer of them. -/
theorem length_others_lt {idle : List HandlerId} {h : HandlerId} (hmem : h ∈ idle) :
    (others idle h).length < idle.length := by
  unfold others
  induction idle with
  | nil => cases hmem
  | cons a rest ih =>
    by_cases ha : a = h
    · subst ha
      simp only [List.length_cons, ne_eq, not_true_eq_false, decide_false, Bool.false_eq_true,
        not_false_eq_true, List.filter_cons_of_neg]
      exact Nat.lt_succ_of_le (List.length_filter_le _ _)
    · have hrest : h ∈ rest := by
        rcases List.mem_cons.mp hmem with heq | hin
        · exact absurd heq.symm ha
        · exact hin
      simpa [ha] using ih hrest

/-- Gives a record to a handler, when the handlers in the list are not at work.
    The answer is false if a filter rejected it; every other outcome is counted
    and kept from the caller. -/
def handle (s : Store) (idle : List HandlerId) (h : HandlerId) (r : Record) :
    Bool × Record × Store :=
  match s.handlers[h]? with
  | none => (true, r, s)
  | some handler =>
    match screen handler.filters r s with
    | (false, r, s) => (false, r, s.count h .filtered)
    | (true, r, s) =>
      if _hidle : h ∈ idle then
        match handler.sink with
        | .memory sink =>
          let sink := sink.push r
          if sink.isDue r.level then
            match sink.drain with
            | (none, sink) => (true, r, (s.setSink h (.memory sink)).count h .emitted)
            | (some (target, records), sink) =>
              let s := records.foldl
                (fun s r => (handle s (others idle h) target r).2.2) (s.setSink h (.memory sink))
              (true, r, s.count h .emitted)
          else (true, r, (s.setSink h (.memory sink)).count h .emitted)
        | _ =>
          let (result, r, s) := s.emit h handler r
          (true, r, s.settle h r result)
      else (true, r, s.count h .dropped)
termination_by idle.length
decreasing_by exact length_others_lt (by assumption)

/-- All handlers of the store. -/
def everyone (s : Store) : List HandlerId := List.range s.handlers.size

/-- Gives a record to a handler while none is at work. -/
def deliver (s : Store) (h : HandlerId) (r : Record) : Bool × Record × Store :=
  s.handle s.everyone h r

/-- Gives a record to a handler so many times, each time as it came back. -/
def deliverTimes (h : HandlerId) : Nat → Record → Store → List Bool × Store
  | 0, _, s => ([], s)
  | times + 1, r, s =>
    let (accepted, r, s) := s.deliver h r
    let (rest, s) := deliverTimes h times r s
    (accepted :: rest, s)

/-- Hands records on to a target, one by one. -/
def forward (s : Store) (idle : List HandlerId) (job : Option (HandlerId × List Record)) : Store :=
  match job with
  | none => s
  | some (target, records) => records.foldl (fun s r => (s.handle idle target r).2.2) s

/-- Flushes a handler while none is at work. -/
def flush (s : Store) (h : HandlerId) : Except LogError Unit × Store :=
  match s.handlers[h]? with
  | none => (.ok (), s)
  | some handler =>
    match handler.sink with
    | .memory sink =>
      let (job, sink) := sink.drain
      (.ok (), (s.setSink h (.memory sink)).forward (others s.everyone h) job)
    | sink => (sink.flush s.world, s)

end Store

end Logbook
