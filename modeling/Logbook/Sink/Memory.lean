import Logbook.Record

/-! # Memory sinks

    A memory sink keeps records until there are enough of them, or until one of
    them is severe enough, and then hands all of them to a target handler.
    Without a target they stay.
-/

namespace Logbook

/-- A handler, by its place in the store. -/
abbrev HandlerId := Nat

/-- Keeps records for a target handler. -/
structure MemorySink where
  capacity : Nat
  flushLevel : Level := Level.error
  target? : Option HandlerId := none
  flushOnClose : Bool := true
  buffer : List Record := []
  deriving Repr, DecidableEq

namespace MemorySink

/-- Keeps a record. -/
def push (s : MemorySink) (r : Record) : MemorySink := { s with buffer := s.buffer ++ [r] }

/-- The records are to be handed on, now that one of the given level has been
    kept. -/
def isDue (s : MemorySink) (level : Level) : Bool :=
  decide (s.capacity ≤ s.buffer.length) || decide (s.flushLevel ≤ level)

/-- The target with the records that it is handed now, and the sink after that. -/
def drain (s : MemorySink) : Option (HandlerId × List Record) × MemorySink :=
  match s.target? with
  | some target => (some (target, s.buffer), { s with buffer := [] })
  | none => (none, s)

/-- A closed sink has neither target nor records. -/
def closed (s : MemorySink) : MemorySink := { s with target? := none, buffer := [] }

/-- For a developer. -/
def inspect (s : MemorySink) : String :=
  "MemorySink \x7b capacity: " ++ s!"{s.capacity}, flush_level: {s.flushLevel.inspect}, " ++
    s!"has_target: {s.target?.isSome}, flush_on_close: {s.flushOnClose}, " ++
    s!"buffered: {s.buffer.length} \x7d"

end MemorySink

end Logbook
