import Logbook.Filter
import Logbook.Formatter
import Logbook.Metrics
import Logbook.Sink

/-! # Handlers

    A handler has what is common to all outputs: a threshold, a formatter,
    filters and counters around a sink.
-/

namespace Logbook

/-- A filter, by its place in the store. -/
abbrev FilterId := Nat

/-- An output with all that is around it. -/
structure Handler where
  sink : Sink
  name? : Option String := none
  level : Level := Level.notset
  formatter? : Option Formatter := none
  filters : List FilterId := []
  closed : Bool := false
  metrics : Metrics := {}
  /-- Nobody holds the handler any more. -/
  released : Bool := false
  deriving Inhabited

namespace Handler

/-- The handler's own formatter, or the one that shows the message alone. -/
def formatter (h : Handler) : Formatter := h.formatter?.getD Formatter.default

/-- The name given to the handler, or that of its sink. -/
def name (h : Handler) : String := h.name?.getD h.sink.name

/-- The name that a handler answers to while it is at work. -/
def nameAtWork (h : Handler) : String := h.name?.getD "handler"

/-- The handler was called while it was at work. -/
def reentered (h : Handler) : LogError := .reentrant (h.name?.getD "")

/-- Counts a record. -/
def count (h : Handler) (f : Fate) : Handler := { h with metrics := h.metrics.count f }

/-- Adds a member to a list unless it is there. -/
def adjoin {α : Type} [DecidableEq α] (xs : List α) (a : α) : List α :=
  if a ∈ xs then xs else xs ++ [a]

/-- Adds a filter. -/
def addFilter (h : Handler) (f : FilterId) : Handler := { h with filters := adjoin h.filters f }

/-- Removes a filter. -/
def removeFilter (h : Handler) (f : FilterId) : Handler :=
  { h with filters := h.filters.filter (· ≠ f) }

/-- For a developer. -/
def inspect (h : Handler) : String :=
  "Handler \x7b name: " ++ Text.quoted h.name ++ s!", level: {h.level.inspect}, closed: {h.closed}" ++
    ", .. \x7d"

/-- What is reported of a record that could not be written. -/
def failureReport (r : Record) (e : LogError) : List String :=
  ["--- Logging error ---", e.message] ++ e.causes.map ("Caused by: " ++ ·) ++
    [s!"Logged from file {r.site.fileName}, line {r.site.line}",
      "Message: " ++ Text.quoted r.msg, "Arguments: " ++ r.args.text]

end Handler

end Logbook
