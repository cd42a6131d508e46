import Logbook.Logging

/-! # Basic configuration

    A few options that set up the root logger in one go.  Nothing happens if the
    root has handlers already, unless those are to be replaced.
-/

namespace Logbook.Configuration

/-- What a caller asks for in a basic configuration. -/
structure BasicOptions where
  path? : Option Path := none
  mode : FileMode := .append
  stream? : Option StreamTarget := none
  handlers? : Option (List HandlerId) := none
  format? : Option String := none
  dateFormat? : Option String := none
  style : Style := .percent
  level? : Option Level := none
  /-- The handlers of the root are removed and closed first. -/
  force : Bool := false

/-- A basic configuration that cannot be carried out. -/
def basicError (message : String) : LogError := .config "basic config" message

/-- Options that exclude each other. -/
def BasicOptions.conflict? (o : BasicOptions) : Option LogError :=
  if o.handlers?.isSome && (o.stream?.isSome || o.path?.isSome) then
    some (basicError "'stream' or 'filename' should not be specified together with 'handlers'")
  else if o.stream?.isSome && o.path?.isSome then
    some (basicError "'stream' and 'filename' should not be specified together")
  else none

/-- The handlers of a basic configuration: those given, or one that is made. -/
def BasicOptions.makeHandlers (o : BasicOptions) (s : Store) :
    Except LogError (List HandlerId) × Store :=
  let one (sink : Sink) (s : Store) : Except LogError (List HandlerId) × Store :=
    let (h, s) := s.addHandler { sink }
    (.ok [h], s)
  match o.handlers?, o.path?, o.stream? with
  | some hs, _, _ => (.ok hs, s)
  | none, some path, _ =>
    match FileSink.build { path, mode := o.mode } s.world with
    | (.error e, world) => (.error e, { s with world })
    | (.ok sink, world) => one (.file sink) { s with world }
  | none, none, some target => one (.stream { target }) s
  | none, none, none => one (.stream { target := .err }) s

/-- The formatter of a basic configuration. -/
def BasicOptions.formatter (o : BasicOptions) : Except LogError Formatter :=
  let built := Formatter.build
    { style := o.style, format? := some (o.format?.getD o.style.basicFormat),
      dateFormat? := o.dateFormat? }
  built.mapError (LogError.configBecause "basic config" "invalid format")

/-- Closes handlers that are no longer attached and gives up each of them; that
    one cannot be closed is only reported. -/
def closeReporting : List HandlerId → Store → Store
  | [], s => s
  | h :: hs, s =>
    match s.close h with
    | (.ok (), s) => closeReporting hs (s.giveUp h)
    | (.error e, s) => closeReporting hs ((s.complainOfClose h e).giveUp h)

/-- Gives a handler a formatter unless it has one, and attaches it to the root. -/
def installOne (f : Formatter) (h : HandlerId) (p : Registry × Store) : Registry × Store :=
  let s := p.2.modify h fun x => if x.formatter?.isSome then x else { x with formatter? := some f }
  (p.1.addHandler rootId h, s)

/-- Sets up a root that has no handlers. -/
def setUpRoot (o : BasicOptions) (g : Registry) (s : Store) :
    Except LogError Unit × Registry × Store :=
  match o.conflict? with
  | some e => (.error e, g, s)
  | none =>
    match o.makeHandlers s with
    | (.error e, s) => (.error e, g, s)
    | (.ok hs, s) =>
      match o.formatter with
      | .error e => (.error e, g, s)
      | .ok f =>
        let (g, s) := hs.foldl (fun p h => installOne f h p) (g, s)
        match o.level? with
        | some level => (.ok (), g.setLevel rootId level, s)
        | none => (.ok (), g, s)

/-- Sets up the root logger. -/
def basic (o : BasicOptions) (g : Registry) (s : Store) :
    Except LogError Unit × Registry × Store :=
  let (g, s) :=
    if o.force then
      (g.clearHandlers rootId, closeReporting (g.logger rootId).handlers s)
    else (g, s)
  if (g.logger rootId).handlers.isEmpty then setUpRoot o g s else (.ok (), g, s)

/-- Sets up the root logger by default if it has no handlers; that this fails is
    only reported. -/
def ensureRoot (g : Registry) (s : Store) : Registry × Store :=
  if (g.logger rootId).handlers.isEmpty then
    match basic {} g s with
    | (.ok (), g, s) => (g, s)
    | (.error e, g, s) =>
      (g, s.complain s!"Failed to configure root logger: {e.message}")
  else (g, s)

/-- Logs an event at the root, which is set up by default if it has no handlers, so
    that the event is not lost. -/
def logAtRoot (level : Level) (e : Event) (caller : CallSite) (g : Registry) (s : Store) :
    Registry × Store :=
  let (g, s) := ensureRoot g s
  g.log rootId level e caller s

end Logbook.Configuration
