import Logbook.Hub

/-! # Sessions

    A session gives names to the parts of a hub, one table of names for each kind
    of part, and hands out what has been written since it was last asked.  A part
    whose name is given to another one, and that nothing else holds, is let go.

    Listeners work at the end of a turn.  As long as one is running, what is
    written is held back.
-/

namespace Logbook

/-- What a configuration document was made into, with its listeners in the hub. -/
structure Setup where
  handlers : Table HandlerId := []
  listeners : List ListenerId := []
  deriving Repr, DecidableEq

/-- The parts of a hub by name. -/
structure Session where
  hub : Hub
  registries : Table RegistryId := []
  /-- Loggers that are held, also when their registry has been let go. -/
  loggers : Table LoggerRef := []
  handlers : Table HandlerId := []
  filters : Table FilterId := []
  queues : Table QueueId := []
  listeners : Table ListenerId := []
  setups : Table Setup := []
  files : Table LogFile := []
  policies : Table Rotation.Policy := []
  clocks : Table ClockId := []
  peers : Table PeerId := []
  writers : Table WriterId := []
  /-- Probes, with the number of their lines that have been handed out. -/
  probes : Table (HandlerId × Nat) := []

/-- What has been written since the last look. -/
structure Observed where
  /-- The text in each writer that has any. -/
  texts : Table String := []
  /-- The lines in each probe that has any. -/
  lines : Table (List String) := []
  out : String := ""
  err : String := ""
  deriving Repr, DecidableEq

namespace Session

/-! ## The hub and what is in it -/

/-- Changes the hub. -/
def mapHub (x : Session) (f : Hub → Hub) : Session := { x with hub := f x.hub }

/-- Changes the store. -/
def mapStore (x : Session) (f : Store → Store) : Session :=
  x.mapHub fun u => { u with store := f u.store }

/-- Changes the world. -/
def mapWorld (x : Session) (f : World → World) : Session :=
  x.mapStore fun s => { s with world := f s.world }

/-- The world of the session. -/
def world (x : Session) : World := x.hub.store.world

/-- Carries out something that changes the store. -/
def onStore {α : Type} (x : Session) (act : Store → α × Store) : α × Session :=
  let (a, store) := act x.hub.store
  (a, x.mapStore fun _ => store)

/-- Carries out something that changes the world. -/
def onWorld {α : Type} (x : Session) (act : World → α × World) : α × Session :=
  let (a, world) := act x.world
  (a, x.mapWorld fun _ => world)

/-- Carries out something that changes the files. -/
def onFiles {α : Type} (x : Session) (act : FileSystem → α × FileSystem) : α × Session :=
  let (a, files) := act x.world.files
  (a, x.mapWorld fun w => { w with files })

/-- Carries out something that changes the files unless it fails. -/
def tryFiles (x : Session) (act : FileSystem → Except SystemError FileSystem) :
    Except SystemError Unit × Session :=
  match act x.world.files with
  | .ok files => (.ok (), x.mapWorld fun w => { w with files })
  | .error e => (.error e, x)

/-- Carries out something that changes a registry and the store. -/
def within {α : Type} (x : Session) (g : RegistryId)
    (act : Registry → Store → α × Registry × Store) : α × Session :=
  let (a, hub) := x.hub.within g act
  (a, { x with hub })

/-- Gives a registry another state. -/
def setRegistry (x : Session) (g : RegistryId) (registry : Registry) : Session :=
  x.mapHub fun u => u.setRegistry g registry

/-! ## Letting go -/

/-- The handlers that the session holds: by name, then those of its setups. -/
def heldHandlers (x : Session) : List HandlerId :=
  x.handlers.map Prod.snd ++ x.setups.flatMap fun p => p.2.handlers.map Prod.snd

/-- The loggers that the session holds. -/
def heldLoggers (x : Session) : List LoggerRef := x.loggers.map Prod.snd

/-- Lets go what neither the session nor anything alive holds. -/
def settle (x : Session) : Session :=
  x.mapHub fun u => u.settle x.heldHandlers x.heldLoggers

/-! ## Registries and loggers -/

/-- Lets a registry go. -/
def dropRegistry (x : Session) (name : String) : Session :=
  match x.registries.get? name with
  | none => x
  | some g =>
    { x with
      registries := x.registries.erase name
      hub := x.hub.dropRegistry g x.heldLoggers }

/-- Adds a registry, which knows nothing of where a call comes from. -/
def addRegistry (x : Session) (name : String) : Session :=
  let x := x.dropRegistry name
  let (g, hub) := x.hub.addRegistry
  let registry := { hub.registry g with resolver := fun _ => CallSite.unknown }
  { x with registries := x.registries.insert name g, hub := hub.setRegistry g registry }

/-- The logger with a name in a registry; it is made if there is none. -/
def logger (x : Session) (g : RegistryId) (name : String) : LoggerRef × Session :=
  let (i, registry) := (x.hub.registry g).getLogger name
  (⟨g, i⟩, x.setRegistry g registry)

/-! ## Handlers, filters, queues, writers -/

/-- Adds a handler. -/
def addHandler (x : Session) (name : String) (h : Handler) : Session :=
  let (i, store) := x.hub.store.addHandler h
  let probes :=
    match h.sink with
    | .probe _ => x.probes.insert name (i, 0)
    | _ => x.probes
  { x with hub := { x.hub with store }, handlers := x.handlers.insert name i, probes }

/-- Lets a handler go. -/
def dropHandler (x : Session) (name : String) : Session :=
  { x with handlers := x.handlers.erase name }

/-- Adds a filter. -/
def addFilter (x : Session) (name : String) (f : Filter) : Session :=
  let (i, store) := x.hub.store.addFilter f
  { x with hub := { x.hub with store }, filters := x.filters.insert name i }

/-- Adds a queue. -/
def addQueue (x : Session) (name : String) (q : LogQueue) : Session :=
  let (i, store) := x.hub.store.addQueue q
  { x with hub := { x.hub with store }, queues := x.queues.insert name i }

/-- Adds a writer. -/
def addWriter (x : Session) (name : String) (w : Writer) : WriterId × Session :=
  let i := x.world.writers.size
  (i, { x with writers := x.writers.insert name i }.mapWorld fun y =>
    { y with writers := y.writers.push w })

/-! ## Listeners and configurations -/

/-- Stops a listener and lets it go. -/
def dropListener (x : Session) (name : String) : Session :=
  match x.listeners.get? name with
  | none => x
  | some l => { x with listeners := x.listeners.erase name, hub := x.hub.dropListener l }

/-- Adds a listener; one that had the name until now is let go after that. -/
def addListener (x : Session) (name : String) (l : Listener) : Session :=
  let (i, hub) := x.hub.addListener l
  let hub :=
    match x.listeners.get? name with
    | none => hub
    | some old => hub.dropListener old
  { x with hub, listeners := x.listeners.insert name i }

/-- The name of a handler that a document made. -/
def configuredName (setup handler : String) : String := setup ++ ":" ++ handler

/-- Lets go a setup that is not in the table any more: its handlers, then its
    listeners one after the other. -/
def letGoSetup (x : Session) (c : Setup) : Session :=
  c.listeners.foldl (fun x l => (x.mapHub (·.dropListener l)).settle) x.settle

/-- Forgets the names of what a document was made into, and lets that go. -/
def dropSetup (x : Session) (name : String) : Session :=
  match x.setups.get? name with
  | none => x
  | some c =>
    let handlers := c.handlers.foldl (fun t p => t.erase (configuredName name p.1)) x.handlers
    let x := { x with handlers }.settle
    { x with setups := x.setups.erase name }.letGoSetup c

/-- Stops the listeners that a document made, in order. -/
def stopSetup (x : Session) (name : String) : Session :=
  match x.setups.get? name with
  | none => x
  | some c => x.mapHub fun u => c.listeners.foldl Hub.stopListener u

/-- Carries out a configuration document.  What an earlier document with the same
    name was made into is let go; those of its handlers that no new one has
    replaced keep their names. -/
def configure (x : Session) (name : String) (g : RegistryId) (d : Configuration.Document) :
    Except LogError Setup × Session :=
  match x.hub.configure g d with
  | (.error e, hub) => (.error e, { x with hub })
  | (.ok (built, listeners), hub) =>
    let c : Setup := { handlers := built, listeners }
    let handlers := built.foldl (fun t p => t.insert (configuredName name p.1) p.2) x.handlers
    let old? := x.setups.get? name
    let x := { x with hub, handlers }.settle
    let x := { x with setups := x.setups.insert name c }
    (.ok c, old?.elim x x.letGoSetup)

/-! ## Files and policies -/

/-- Gives a name to a live file. -/
def setFile (x : Session) (name : String) (f : LogFile) : Session :=
  { x with files := x.files.insert name f }

/-- Gives a name to a policy. -/
def setPolicy (x : Session) (name : String) (p : Rotation.Policy) : Session :=
  { x with policies := x.policies.insert name p }

/-- Carries out something with a sink that consists of a named policy and a named
    file. -/
def onFileSink {α : Type} (x : Session) (policy file : String) (s : FileSink)
    (act : FileSink → World → α × FileSink × World) : α × Session :=
  let (a, s, w) := act s x.world
  (a, ((x.setPolicy policy s.policy).setFile file s.file).mapWorld fun _ => w)

/-! ## Clocks and peers -/

/-- Sets a clock. -/
def setClock (x : Session) (name : String) (t : Time.Instant) : Session :=
  match x.clocks.get? name with
  | some c => x.mapWorld fun w => { w with clocks := w.clocks.modify c fun _ => t }
  | none =>
    { x with clocks := x.clocks.insert name x.world.clocks.size }.mapWorld fun w =>
      { w with clocks := w.clocks.push t }

/-- Moves a clock, and tells what it shows then. -/
def advanceClock (x : Session) (name : String) (seconds : Int) : Int × Session :=
  match x.clocks.get? name with
  | none => (0, x)
  | some c =>
    let x := x.mapWorld fun w =>
      { w with clocks := w.clocks.modify c fun t => { t with seconds := t.seconds + seconds } }
    (x.world.now (.manual c), x)

/-- The clock with a name; the wall clock if there is none. -/
def clock (x : Session) (name : String) : Clock :=
  match x.clocks.get? name with
  | some c => .manual c
  | none => .wall

/-- Adds a peer. -/
def addPeer (x : Session) (name : String) : Session :=
  { x with peers := x.peers.insert name x.world.peers.size }.mapWorld fun w =>
    { w with peers := w.peers.push {} }

/-- A peer accepts a connection and reads bytes from it. -/
def acceptAt (x : Session) (name : String) (count : Nat) : List UInt8 × Session :=
  match x.peers.get? name with
  | none => ([], x)
  | some p =>
    let (bytes, w) := x.world.accept p count
    (bytes, x.mapWorld fun _ => w)

/-! ## Turns -/

/-- The text in each writer that has any, and the writers without it. -/
def takeTexts (x : Session) : Table String × Session :=
  let w := x.world
  let texts := x.writers.map fun (name, i) => (name, (w.writers.getD i {}).text)
  (texts.filter fun p => !p.2.isEmpty,
    x.mapWorld fun w => { w with writers := w.writers.map fun y => { y with text := "" } })

/-- The lines that a probe has kept. -/
def linesOf (s : Store) (h : HandlerId) : List String :=
  match s.handlers[h]?.map Handler.sink with
  | some (.probe p) => p.lines.toList
  | _ => []

/-- The new lines in each probe that has any. -/
def takeLines (x : Session) : Table (List String) × Session :=
  let all := linesOf x.hub.store
  let fresh := x.probes.map fun (name, h, shown) => (name, (all h).drop shown)
  (fresh.filter fun p => !p.2.isEmpty,
    { x with probes := x.probes.map fun (name, h, _) => (name, h, (all h).length) })

/-- Everything written since the last look. -/
def takeOutput (x : Session) : Observed × Session :=
  let (texts, x) := x.takeTexts
  let (lines, x) := x.takeLines
  let w := x.world
  ({ texts, lines, out := w.out, err := w.err }, x.mapWorld fun w => { w with out := "", err := "" })

/-- Ends a turn: what nobody holds is let go, listeners work, and what has been
    written is handed out unless a listener is still running. -/
def finishTurn (x : Session) : Observed × Session :=
  let x := x.settle.mapHub Hub.runListeners
  if x.hub.isListening then ({}, x) else x.takeOutput

/-- A session with nothing but an empty registry called `main`. -/
def start (store : Store) : Session := Session.addRegistry { hub := { store } } "main"

end Session

end Logbook
