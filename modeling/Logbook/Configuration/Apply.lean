import Logbook.Configuration.Wiring
import Logbook.Logging

/-! # Setting up loggers by a document

    Once everything has been built, the loggers that a document names are set up
    in the order of their names.  Of the other loggers that exist, those below a
    named one are reset and the rest is disabled on demand.  The root comes last.
    A handler that a logger loses on the way is let go at once, unless something
    else holds it.
-/

namespace Logbook.Configuration

/-- What a document was made into. -/
structure Configured where
  handlers : Table HandlerId := []
  /-- The listeners of its queues, all of them started. -/
  listeners : List Listener := []

/-- The component that a logger is in errors. -/
def loggerComponent (name : String) : String := s!"logger '{name}'"

/-- Detaches the handlers of a logger, which gives them up in order. -/
def detachAll (i : LoggerId) (g : Registry) (s : Store) : Registry × Store :=
  (g.clearHandlers i, (g.logger i).handlers.foldl Store.giveUp s)

/-- Attaches a handler to a logger, which holds it from now on. -/
def attach (i : LoggerId) (p : Registry × Store) (h : HandlerId) : Registry × Store :=
  if h ∈ (p.1.logger i).handlers then p else (p.1.addHandler i h, p.2.hold h)

/-- Sets level, handlers and filters of a logger.  Nothing is set if one of the
    names is unknown. -/
def configureLogger (w : Wiring) (i : LoggerId) (e : LoggerEntry) (g : Registry) (s : Store) :
    Except LogError Unit × Registry × Store :=
  let component := loggerComponent (g.logger i).name
  match w.handlersNamed component e.handlers with
  | .error fault => (.error fault, g, s)
  | .ok handlers =>
    match w.filtersNamed component e.filters with
    | .error fault => (.error fault, g, s)
    | .ok filters =>
      let g :=
        match e.level? with
        | some level => g.setLevel i level
        | none => g
      let (g, s) := handlers.foldl (attach i) (detachAll i g s)
      (.ok (), filters.foldl (fun g f => g.addFilter i f) g, s)

/-- Sets up one named logger, which is made if there is none. -/
def configureNamed (w : Wiring) (name : String) (e : LoggerEntry) (g : Registry) (s : Store) :
    Except LogError Unit × Registry × Store :=
  let (i, g) := g.getLogger name
  match configureLogger w i e g s with
  | (.error fault, g, s) => (.error fault, g, s)
  | (.ok (), g, s) =>
    let g := g.modify i fun x =>
      { x with disabled := false, propagate := e.propagate?.getD x.propagate }
    (.ok (), g, s)

/-- Sets up named loggers one after the other. -/
def configureAll (w : Wiring) :
    Table LoggerEntry → Registry → Store → Except LogError Unit × Registry × Store
  | [], g, s => (.ok (), g, s)
  | (name, e) :: rest, g, s =>
    match configureNamed w name e g s with
    | (.error fault, g, s) => (.error fault, g, s)
    | (.ok (), g, s) => configureAll w rest g s

/-- Puts a logger back as if it had just been made. -/
def reset (i : LoggerId) (g : Registry) (s : Store) : Registry × Store :=
  let (g, s) := detachAll i (g.setLevel i Level.notset) s
  (g.modify i ({ · with propagate := true }), s)

/-- The loggers of a list that come below a named one, when the names are gone
    through in order and each is taken out of the list after its turn. -/
def coveredBy : List String → List String → List String
  | [], _ => []
  | name :: names, existing =>
    existing.filter (isBelow name) ++ coveredBy names (existing.filter (· ≠ name))

/-- Resets or disables a logger that a document does not name. -/
def settleUnnamed (covered : List String) (disableExisting : Bool) (p : Registry × Store)
    (name : String) : Registry × Store :=
  let (i, g) := p.1.getLogger name
  if name ∈ covered then reset i g p.2
  else if disableExisting then (g.modify i ({ · with disabled := true }), p.2)
  else (g, p.2)

/-- Sets up the loggers of a document. -/
def Document.configureLoggers (d : Document) (w : Wiring) (g : Registry) (s : Store) :
    Except LogError Unit × Registry × Store :=
  let existing := g.names
  match configureAll w d.loggers g s with
  | (.error fault, g, s) => (.error fault, g, s)
  | (.ok (), g, s) =>
    let covered := coveredBy d.loggers.keys existing
    let unnamed := existing.filter fun name => name ∉ d.loggers.keys
    let (g, s) := unnamed.foldl (settleUnnamed covered d.disableExisting) (g, s)
    match d.root? with
    | none => (.ok (), g, s)
    | some e => configureLogger w rootId e g s

/-- Stops listeners one after the other. -/
def stopAll : List Listener → Store → Store
  | [], s => s
  | l :: ls, s => stopAll ls (l.stop s).2

/-- Carries out a configuration document.  After a failure the listeners that
    were started are stopped again. -/
def Document.apply (d : Document) (g : Registry) (s : Store) :
    Except LogError Configured × Registry × Store :=
  if d.version ≠ 1 then (.error (.config "config" s!"Unsupported version: {d.version}"), g, s)
  else
    match d.build s with
    | (.error fault, w, s) => (.error fault, g, stopAll w.listeners s)
    | (.ok (), w, s) =>
      let s := (w.handlers.map Prod.snd).foldl Store.hold s
      match d.configureLoggers w g s with
      | (.error fault, g, s) => (.error fault, g, stopAll w.listeners s)
      | (.ok (), g, s) => (.ok { handlers := w.handlers, listeners := w.listeners }, g, s)

end Logbook.Configuration
