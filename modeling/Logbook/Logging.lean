import Logbook.Registry
import Logbook.Store.Release

/-! # Logging

    The way of an event: it is made into a record if its logger is enabled for
    the level, passes the filters of that logger, and then goes to the handlers
    of the logger and of those above it.  A record that finds no handler goes to
    the handler of last resort.
-/

namespace Logbook

/-- What is to be logged, besides its level. -/
structure Event where
  msg : String
  args : Arguments := .none
  exception? : Option ExceptionInfo := none
  /-- The calls that led to the event, one a line, if they are to be shown. -/
  trace? : Option String := none
  extra : Table Value := []
  /-- Where the event comes from, if that is not to be found out. -/
  site? : Option CallSite := none
  deriving Repr, DecidableEq

namespace Registry

/-! ## Delivery -/

/-- Gives a record to a handler if its level is not below that of the handler. -/
def offer (h : HandlerId) (r : Record) (s : Store) : Record × Store :=
  if s.levelOf h ≤ r.level then
    let (_, r, s) := s.deliver h r
    (r, s)
  else (r, s)

/-- Offers a record to handlers one after the other. -/
def offerAll : List HandlerId → Record → Store → Record × Store
  | [], r, s => (r, s)
  | h :: hs, r, s =>
    let (r, s) := offer h r s
    offerAll hs r s

/-- Reports once that records find no handler, and falls back on the handler of
    last resort. -/
def noHandlers (g : Registry) (i : LoggerId) (r : Record) (s : Store) : Registry × Store :=
  let s :=
    if g.warned then s
    else s.report ["No handlers could be found for logger \"" ++ (g.logger i).name ++ "\""]
  let g := { g with warned := true }
  match g.lastResort? with
  | none => (g, s)
  | some h => (g, (offer h r s).2)

/-- Gives a record to all handlers on its way. -/
def callHandlers (g : Registry) (i : LoggerId) (r : Record) (s : Store) : Registry × Store :=
  match g.handlersFrom i with
  | [] => g.noHandlers i r s
  | hs => (g, (offerAll hs r s).2)

/-- Gives a record to a logger, which passes it on unless it is disabled or one
    of its filters rejects the record. -/
def handle (g : Registry) (i : LoggerId) (r : Record) (s : Store) : Registry × Store :=
  if (g.logger i).disabled then (g, s)
  else
    match Store.screen (g.logger i).filters r s with
    | (false, _, s) => (g, s)
    | (true, r, s) => g.callHandlers i r s

/-! ## Events -/

/-- The heading of the calls that led to an event. -/
def stackText (trace : String) : String := "Stack (most recent call last):\n" ++ trace

/-- What the record of an event is made of. -/
def partsOf (g : Registry) (i : LoggerId) (level : Level) (e : Event) (caller : CallSite) :
    RecordParts :=
  { name := (g.logger i).name, level, site := e.site?.getD (g.resolver caller), msg := e.msg,
    args := e.args, exception? := e.exception?, stack? := e.trace?.map stackText, extra := e.extra }

/-- Makes a record of an event and handles it. -/
def dispatch (g : Registry) (i : LoggerId) (level : Level) (e : Event) (caller : CallSite)
    (s : Store) : Except LogError Unit × Registry × Store :=
  match g.factory (g.partsOf i level e caller) s.origin with
  | .error fault => (.error fault, g, s)
  | .ok r =>
    let (g, s) := g.handle i r s
    (.ok (), g, s)

/-- Logs an event, if the logger is enabled for the level. -/
def logEvent (g : Registry) (i : LoggerId) (level : Level) (e : Event) (caller : CallSite)
    (s : Store) : Except LogError Unit × Registry × Store :=
  match g.isEnabledFor i level with
  | (false, g) => (.ok (), g, s)
  | (true, g) => g.dispatch i level e caller s

/-- Logs an event; that no record can be made of it is only reported. -/
def log (g : Registry) (i : LoggerId) (level : Level) (e : Event) (caller : CallSite) (s : Store) :
    Registry × Store :=
  match g.logEvent i level e caller s with
  | (.ok (), g, s) => (g, s)
  | (.error fault, g, s) =>
    let name := (g.logger i).name
    (g, s.complain s!"Logger '{name}' failed to build record: {fault.message}")

/-- Logs an event that carries its own place, for code that is generated at the
    call; it looks twice whether the logger is enabled. -/
def logInPlace (g : Registry) (i : LoggerId) (level : Level) (e : Event) (s : Store) :
    Registry × Store :=
  match g.isEnabledFor i level with
  | (false, g) => (g, s)
  | (true, g) =>
    match g.logEvent i level e CallSite.unknown s with
    | (.ok (), g, s) => (g, s)
    | (.error fault, g, s) => (g, s.complain s!"Failed to build record: {fault.message}")

/-! ## Shutdown -/

/-- The handlers of all loggers, each once, in the order in which they are met on
    the root and then on the loggers by name. -/
def distinctHandlers (g : Registry) : List HandlerId :=
  (g.all.flatMap fun i => (g.logger i).handlers).foldl Handler.adjoin []

/-- Flushes and closes handlers one after the other.  The first failure is the
    answer, and every failure is reported. -/
def closeAll : List HandlerId → Store → Except LogError Unit × Store
  | [], s => (.ok (), s)
  | h :: hs, s =>
    match s.flushAndClose h with
    | (.ok (), s) => closeAll hs s
    | (.error e, s) =>
      let (_, s) := closeAll hs (s.complainOfClose h e)
      (.error e, s)

/-- Flushes and closes every handler of the registry, the last one first. -/
def shutdown (g : Registry) (s : Store) : Except LogError Unit × Store :=
  closeAll g.distinctHandlers.reverse s

end Registry

end Logbook
