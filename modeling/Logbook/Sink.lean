import Logbook.Queue
import Logbook.Sink.File
import Logbook.Sink.Memory
import Logbook.Sink.Probe
import Logbook.Sink.Socket
import Logbook.Sink.Stream

/-! # Sinks

    The output side of a handler.  A sink that writes texts needs nothing but the
    world; one that keeps records for others works through the store.
-/

namespace Logbook

/-- A queue, by its place in the store. -/
abbrev QueueId := Nat

/-- Feeds a queue with records that carry their finished text. -/
structure QueueSink where
  queue : QueueId
  /-- The number of records that the queue refused. -/
  rejected : Nat := 0
  deriving Repr, DecidableEq

/-- A queue sink with its queue, for a developer. -/
def QueueSink.inspect (s : QueueSink) (q : LogQueue) : String :=
  "QueueSink \x7b queue: " ++ q.inspect ++ s!", rejected: {s.rejected} \x7d"

/-- What a handler writes to. -/
inductive Sink where
  | null
  | stream (s : StreamSink)
  | file (s : FileSink)
  | socket (s : SocketSink)
  | memory (s : MemorySink)
  | queue (s : QueueSink)
  | probe (p : Probe)

/-- What became of a record on which a sink did not fail. -/
inductive Delivery where
  | written
  | dropped
  deriving Repr, DecidableEq

namespace Sink

instance : Inhabited Sink := ⟨null⟩

/-- The name of a sink, for handlers without one of their own. -/
def name : Sink → String
  | null => "null"
  | stream s => s.name
  | file s => s.name
  | socket _ => "socket"
  | memory _ => "memory"
  | queue _ => "queue"
  | probe p => p.name

/-- The sink writes texts, and so needs each record rendered. -/
def writesText : Sink → Bool
  | stream _ | file _ | socket _ => true
  | _ => false

/-- Writes a text to a sink that writes texts. -/
def writeText (text : String) (w : World) : Sink → Except LogError Delivery × Sink × World
  | stream s =>
    let (r, w) := s.emit text w
    (r.map fun _ => .written, stream s, w)
  | file s =>
    let (r, s, w) := s.emit text w
    (r.map fun _ => .written, file s, w)
  | socket s =>
    let (r, s, w) := s.emit text w
    (r.map fun sent => if sent then .written else .dropped, socket s, w)
  | s => (.ok .written, s, w)

/-- Flushes a sink; a memory sink hands its records on through the store
    instead. -/
def flush (w : World) : Sink → Except LogError Unit
  | stream s => s.flush w
  | probe p => p.onFlush
  | _ => .ok ()

/-- Closes a sink, after what is to be handed on has been handed on. -/
def close (w : World) : Sink → Except LogError Unit × Sink
  | stream s => (s.flush w, stream s)
  | file s => (.ok (), file s.close)
  | socket s => (.ok (), socket s.close)
  | memory s => (.ok (), memory s.closed)
  | probe p => (p.onClose, probe (if p.notesClose then p.note "closed" else p))
  | s => (.ok (), s)

end Sink

end Logbook
