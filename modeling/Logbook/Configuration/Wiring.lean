import Logbook.Configuration.Document
import Logbook.Listener

/-! # Building what a document names

    Formatters and filters come first, then handlers.  A handler that refers to
    one that is not built yet waits until all others have been built.
-/

namespace Logbook.Configuration

/-- What has been built so far, by name. -/
structure Wiring where
  formatters : Table Formatter := []
  filters : Table FilterId := []
  handlers : Table HandlerId := []
  /-- The listeners of the queues that have been made, all of them started. -/
  listeners : List Listener := []

/-- The component that a handler is in errors. -/
def handlerComponent (name : String) : String := s!"handler '{name}'"

/-- Something could not be built. -/
def buildError (component : String) (cause : LogError) : LogError :=
  .configBecause component "build failed" cause

/-- What a list of names stands for; the first unknown name is an error. -/
def lookupAll {α : Type} (what component : String) (t : Table α) :
    List String → Except LogError (List α)
  | [] => .ok []
  | name :: names =>
    match t.get? name with
    | none => .error (.config component s!"Unknown {what} '{name}'")
    | some a => (lookupAll what component t names).map (a :: ·)

namespace Wiring

/-- The filters with names. -/
def filtersNamed (w : Wiring) (component : String) (names : List String) :
    Except LogError (List FilterId) := lookupAll "filter" component w.filters names

/-- The handlers with names. -/
def handlersNamed (w : Wiring) (component : String) (names : List String) :
    Except LogError (List HandlerId) := lookupAll "handler" component w.handlers names

/-- The formatter with a name, if one is asked for. -/
def formatterNamed (w : Wiring) (component : String) :
    Option String → Except LogError (Option Formatter)
  | none => .ok none
  | some name =>
    match w.formatters.get? name with
    | some f => .ok (some f)
    | none => .error (.config component s!"Unknown formatter '{name}'")

end Wiring

/-! ## Formatters and filters -/

/-- The options of a formatter. -/
def FormatterEntry.options (e : FormatterEntry) : FormatterOptions :=
  { format? := e.format?, dateFormat? := e.dateFormat?, style := e.style, validate := e.validate,
    zone := if e.utc then .utc else .eastern, defaults := e.defaults }

/-- The formatters of a document, by name. -/
def buildFormatters : Table FormatterEntry → Except LogError (Table Formatter)
  | [] => .ok []
  | (name, e) :: rest =>
    match Formatter.build e.options with
    | .error fault => .error (buildError s!"formatter '{name}'" fault)
    | .ok f => (buildFormatters rest).map ((name, f) :: ·)

/-- The filters of a document, by name. -/
def buildFilters : Table FilterEntry → Store → Table FilterId × Store
  | [], s => ([], s)
  | (name, e) :: rest, s =>
    let (f, s) := s.addFilter (Filter.ofName { name := e.name })
    let (fs, s) := buildFilters rest s
    ((name, f) :: fs, s)

/-! ## Handlers -/

/-- The names of handlers that a handler refers to. -/
def HandlerKind.references : HandlerKind → List String
  | .memory _ _ (some target) _ => [target]
  | .queue _ handlers _ => handlers
  | _ => []

/-- A handler refers to one that is not built yet. -/
def Wiring.isPending (w : Wiring) (k : HandlerKind) : Bool :=
  k.references.any fun name => (w.handlers.get? name).isNone

/-- The policy of a handler that rolls over at set times. -/
def timedPolicy (period : String) (count backups : Nat) (utc : Bool)
    (atTime? : Option Time.TimeOfDay) : Except LogError Rotation.Policy :=
  match Rotation.Period.parse period with
  | .error e => .error e
  | .ok unit =>
    match Rotation.Schedule.make unit count with
    | .error e => .error e
    | .ok schedule =>
      let zone : Time.Zone := if utc then .utc else .eastern
      .ok (.timed { schedule := { schedule with zone, atTime? }, backups })

/-- The options of a handler that writes to a file; none for another one. -/
def HandlerKind.fileOptions? : HandlerKind → Option (Except LogError FileSinkOptions)
  | .file path mode delay => some (.ok { path, mode, delay })
  | .watchedFile path mode delay =>
    some (.ok { path, mode, delay, policy? := some (.watched {}) })
  | .rotatingFile path maxBytes backups delay compress =>
    let o : FileSinkOptions := { path, delay, policy? := some (.size { maxBytes, backups }) }
    some (.ok (if compress then o.compressed else o))
  | .timedRotatingFile path period count backups utc atTime? delay compress =>
    some ((timedPolicy period count backups utc atTime?).map fun policy =>
      let o : FileSinkOptions := { path, delay, policy? := some policy }
      if compress then o.compressed else o)
  | _ => none

/-- The sink of a handler that writes to a file. -/
def buildFile (component : String) (o : Except LogError FileSinkOptions) (s : Store) :
    Except LogError Sink × Store :=
  match o with
  | .error e => (.error (buildError component e), s)
  | .ok o =>
    match FileSink.build o s.world with
    | (.error e, world) => (.error (buildError component e), { s with world })
    | (.ok sink, world) => (.ok (.file sink), { s with world })

/-- The sink of a handler.  The listener of a queue is started. -/
def Wiring.buildSink (w : Wiring) (component : String) (k : HandlerKind) (s : Store) :
    Except LogError Sink × Wiring × Store :=
  match k with
  | .stream target =>
    let target : StreamTarget :=
      match target with
      | .stderr => .err
      | .stdout => .out
    (.ok (.stream { target }), w, s)
  | .null => (.ok .null, w, s)
  | .socket host port => (.ok (.socket { host, port }), w, s)
  | .memory capacity flushLevel? target? flushOnClose =>
    match w.handlersNamed component target?.toList with
    | .error e => (.error e, w, s)
    | .ok targets =>
      (.ok (.memory
        { capacity, flushLevel := flushLevel?.getD Level.error, target? := targets.head?,
          flushOnClose }), w, s)
  | .queue capacity? handlers respectsLevel =>
    match w.handlersNamed component handlers with
    | .error e => (.error e, w, s)
    | .ok targets =>
      let (queue, s) := s.addQueue { capacity? }
      let listener : Listener := { queue, handlers := targets, respectsLevel, worker := .listening }
      (.ok (.queue { queue }), { w with listeners := w.listeners ++ [listener] }, s)
  | k =>
    match k.fileOptions? with
    | none => (.ok .null, w, s)
    | some o =>
      let (sink, s) := buildFile component o s
      (sink, w, s)

/-- Builds a handler: the sink first, then what is put around it. -/
def Wiring.buildHandler (w : Wiring) (name : String) (e : HandlerEntry) (s : Store) :
    Except LogError Unit × Wiring × Store :=
  let component := handlerComponent name
  match w.buildSink component e.kind s with
  | (.error fault, w, s) => (.error fault, w, s)
  | (.ok sink, w, s) =>
    match w.formatterNamed component e.formatter? with
    | .error fault => (.error fault, w, s)
    | .ok formatter? =>
      match w.filtersNamed component e.filters with
      | .error fault => (.error fault, w, s)
      | .ok filters =>
        let handler : Handler :=
          { sink, name? := some name, level := e.level?.getD Level.notset, formatter?,
            filters := filters.foldl Handler.adjoin [] }
        let (h, s) := s.addHandler handler
        (.ok (), { w with handlers := w.handlers.insert name h }, s)

/-- Builds handlers one after the other. -/
def Wiring.buildHandlers : List (String × HandlerEntry) → Wiring → Store →
    Except LogError Unit × Wiring × Store
  | [], w, s => (.ok (), w, s)
  | (name, e) :: rest, w, s =>
    match w.buildHandler name e s with
    | (.error fault, w, s) => (.error fault, w, s)
    | (.ok (), w, s) => buildHandlers rest w s

/-- Builds those handlers that do not have to wait, and tells which have to. -/
def Wiring.buildReady : List (String × HandlerEntry) → Wiring → Store →
    Except LogError (List (String × HandlerEntry)) × Wiring × Store
  | [], w, s => (.ok [], w, s)
  | (name, e) :: rest, w, s =>
    if w.isPending e.kind then
      match buildReady rest w s with
      | (.error fault, w, s) => (.error fault, w, s)
      | (.ok deferred, w, s) => (.ok ((name, e) :: deferred), w, s)
    else
      match w.buildHandler name e s with
      | (.error fault, w, s) => (.error fault, w, s)
      | (.ok (), w, s) => buildReady rest w s

/-- Builds the handlers of a document, those that have to wait after the others. -/
def Wiring.buildAll (entries : List (String × HandlerEntry)) (w : Wiring) (s : Store) :
    Except LogError Unit × Wiring × Store :=
  match buildReady entries w s with
  | (.error fault, w, s) => (.error fault, w, s)
  | (.ok deferred, w, s) => buildHandlers deferred w s

/-- Builds formatters, filters and handlers of a document. -/
def Document.build (d : Document) (s : Store) : Except LogError Unit × Wiring × Store :=
  match buildFormatters d.formatters with
  | .error fault => (.error fault, {}, s)
  | .ok formatters =>
    let (filters, s) := buildFilters d.filters s
    Wiring.buildAll d.handlers { formatters, filters } s

end Logbook.Configuration
