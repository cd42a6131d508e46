import Logbook.Text.Quoted
import Logbook.World

/-! # Stream sinks

    A stream sink writes each text with a line end to standard error, standard
    output or another writer, and flushes after each.
-/

namespace Logbook

/-- Where a stream sink writes to. -/
inductive StreamTarget where
  | err
  | out
  | writer (id : WriterId)
  deriving Repr, DecidableEq

/-- Writes to a stream. -/
structure StreamSink where
  target : StreamTarget
  terminator : String := "\n"
  deriving Repr, DecidableEq

namespace Writer

/-- Takes a text.  To take nothing cannot fail. -/
def write (w : Writer) (text : String) : Except SystemError Writer :=
  if text.isEmpty then .ok w
  else
    match w.writeFault? with
    | some e => .error e
    | none => .ok { w with text := w.text ++ text }

/-- Hands on what has been taken. -/
def flush (w : Writer) : Except SystemError Unit :=
  match w.flushFault? with
  | some e => .error e
  | none => .ok ()

/-- Takes a line, text and end apart, and flushes. -/
def writeLine (w : Writer) (text terminator : String) : Except SystemError Unit × Writer :=
  match w.write text with
  | .error e => (.error e, w)
  | .ok w =>
    match w.write terminator with
    | .error e => (.error e, w)
    | .ok w => (w.flush, w)

end Writer

namespace StreamSink

/-- The name of the stream. -/
def name (s : StreamSink) : String :=
  match s.target with
  | .err => "<stderr>"
  | .out => "<stdout>"
  | .writer _ => "stream"

/-- Writes a text with its line end. -/
def emit (s : StreamSink) (text : String) (w : World) : Except LogError Unit × World :=
  match s.target with
  | .err => (.ok (), { w with err := w.err ++ text ++ s.terminator })
  | .out => (.ok (), { w with out := w.out ++ text ++ s.terminator })
  | .writer id =>
    let (r, writer) := (w.writers.getD id {}).writeLine text s.terminator
    (r.mapError .system, { w with writers := w.writers.modify id fun _ => writer })

/-- Flushes the stream. -/
def flush (s : StreamSink) (w : World) : Except LogError Unit :=
  match s.target with
  | .err | .out => .ok ()
  | .writer id => (w.writers.getD id {}).flush.mapError .system

/-- The sink with another writer, after the old one has been flushed. -/
def redirect (s : StreamSink) (id : WriterId) (w : World) : Except LogError StreamSink :=
  match s.flush w with
  | .error e => .error e
  | .ok () => .ok { s with target := .writer id }

/-- For a developer. -/
def inspect (s : StreamSink) : String :=
  "StreamSink \x7b target: " ++ Text.quoted s.name ++ ", terminator: " ++ Text.quoted s.terminator ++
    " \x7d"

end StreamSink

end Logbook
