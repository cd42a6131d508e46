import Logbook.Record

/-! # Probes

    A probe is a sink that keeps lines instead of writing them anywhere.  What it
    does with a record is a matter of its script: it renders and keeps it, drops
    it, fails, panics, or calls its own handler while that is at work.
-/

namespace Logbook

/-- What a probe asks of its own handler while that is at work. -/
inductive OwnCall where
  | handle
  | name
  | flush
  | close
  | format
  | reachSink
  deriving Repr, DecidableEq

/-- What a probe does with a record. -/
inductive Reaction where
  /-- Renders the record and keeps the text. -/
  | keep
  | drop
  | fail (e : LogError)
  /-- Panics, with a text or without one. -/
  | panic (message? : Option String)
  /-- Calls its own handler and keeps what comes of it. -/
  | call (c : OwnCall)
  deriving Repr

/-- A sink that keeps lines. -/
structure Probe where
  name : String := "capture"
  react : Record → Reaction := fun _ => .keep
  /-- What comes of a flush. -/
  onFlush : Except LogError Unit := .ok ()
  /-- What comes of closing. -/
  onClose : Except LogError Unit := .ok ()
  /-- Closing is noted in a line. -/
  notesClose : Bool := false
  lines : Array String := #[]

namespace Probe

/-- Keeps a line. -/
def note (p : Probe) (line : String) : Probe := { p with lines := p.lines.push line }

/-- What a panic without a text is called. -/
def panicText (message? : Option String) : String := message?.getD "Unknown panic"

/-- The outcome of a call as a line. -/
def outcomeText : Except LogError Unit → String
  | .ok () => "ok"
  | .error e => "error: " ++ e.message

end Probe

end Logbook
