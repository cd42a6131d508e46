import Logbook.Configuration.Apply
import Logbook.Configuration.Basic

/-! # Everything that is alive

    The store with registries and listeners.  What nobody holds any more is let
    go here: a listener is stopped, a registry loses the loggers that are not
    held, and a handler is closed.
-/

namespace Logbook

/-- A registry, by its place among all. -/
abbrev RegistryId := Nat

/-- A listener, by its place among all. -/
abbrev ListenerId := Nat

/-- A logger of one of the registries. -/
structure LoggerRef where
  registry : RegistryId
  logger : LoggerId
  deriving Repr, DecidableEq, Inhabited

/-- Store, registries and listeners. -/
structure Hub where
  store : Store
  registries : Array Registry := #[]
  /-- Listeners; a dropped one leaves its place empty. -/
  listeners : Array (Option Listener) := #[]

namespace Hub

/-! ## Registries -/

/-- A registry of the hub. -/
def registry (u : Hub) (g : RegistryId) : Registry := u.registries.getD g {}

/-- Gives a registry another state. -/
def setRegistry (u : Hub) (g : RegistryId) (x : Registry) : Hub :=
  { u with registries := u.registries.modify g fun _ => x }

/-- The handler that a new registry falls back on. -/
def lastResort : Handler :=
  { sink := .stream { target := .err }, name? := some "last resort", level := Level.warning }

/-- Adds a registry with a handler of last resort. -/
def addRegistry (u : Hub) : RegistryId × Hub :=
  let (h, store) := u.store.addHandler lastResort
  (u.registries.size,
    { u with store, registries := u.registries.push { lastResort? := some h } })

/-- Carries out something that changes a registry and the store. -/
def within {α : Type} (u : Hub) (g : RegistryId) (act : Registry → Store → α × Registry × Store) :
    α × Hub :=
  let (a, x, store) := act (u.registry g) u.store
  (a, { u with store }.setRegistry g x)

/-- Gives a logger another parent, which must be in the same registry. -/
def setParent (u : Hub) (i parent : LoggerRef) : Except LogError Hub :=
  let x := u.registry i.registry
  if i.registry ≠ parent.registry then
    let name := ((u.registry parent.registry).logger parent.logger).name
    .error (Registry.parentError (x.logger i.logger).name
      s!"parent '{name}' belongs to a different registry")
  else (x.setParent i.logger parent.logger).map (u.setRegistry i.registry)

/-! ## Listeners -/

/-- Adds a listener. -/
def addListener (u : Hub) (l : Listener) : ListenerId × Hub :=
  (u.listeners.size, { u with listeners := u.listeners.push (some l) })

/-- A listener of the hub. -/
def listener? (u : Hub) (l : ListenerId) : Option Listener := u.listeners.getD l none

/-- Gives a listener another state. -/
def setListener (u : Hub) (l : ListenerId) (x : Option Listener) : Hub :=
  { u with listeners := u.listeners.modify l fun _ => x }

/-- Stops a listener. -/
def stopListener (u : Hub) (l : ListenerId) : Hub :=
  match u.listener? l with
  | none => u
  | some x =>
    let (x, store) := x.stop u.store
    { u with store }.setListener l (some x)

/-- Stops a listener and lets it go. -/
def dropListener (u : Hub) (l : ListenerId) : Hub := (u.stopListener l).setListener l none

/-- A listener is running. -/
def isListening (u : Hub) : Bool :=
  u.listeners.any fun x => (x.map Listener.isRunning).getD false

/-- Lets one listener take what there is in its queue. -/
def runListener (u : Hub) (l : ListenerId) : Hub :=
  match u.listener? l with
  | none => u
  | some x =>
    let (x, store) := x.run u.store
    { u with store }.setListener l (some x)

/-- Lets all listeners take what there is in their queues, once for each of them,
    so that what one puts into the queue of another is taken too. -/
def runListeners (u : Hub) : Hub :=
  let ids := List.range u.listeners.size
  ids.foldl (fun u _ => ids.foldl runListener u) u

/-! ## Holding and letting go -/

/-- The handlers that registries and listeners hold. -/
def heldHandlers (u : Hub) : List HandlerId :=
  u.registries.toList.flatMap Registry.heldHandlers ++
    u.listeners.toList.flatMap fun x => (x.map Listener.handlers).getD []

/-- Dropped registries lose the loggers that are not held. -/
def dropLoggers (u : Hub) (held : List LoggerRef) : Hub :=
  { u with
    registries := u.registries.mapIdx fun g x =>
      if x.dropped then
        x.drop ((held.filter fun r => r.registry = g).map LoggerRef.logger)
      else x }

/-- Lets go what is held neither by the caller nor by anything alive. -/
def settle (u : Hub) (handlers : List HandlerId) (loggers : List LoggerRef) : Hub :=
  let u := u.dropLoggers loggers
  { u with store := u.store.holdOnly (handlers ++ u.heldHandlers) }

/-- Lets a registry go, but for the loggers that are held. -/
def dropRegistry (u : Hub) (g : RegistryId) (held : List LoggerRef) : Hub :=
  (u.setRegistry g { u.registry g with dropped := true }).dropLoggers held

/-- Carries out a configuration document; its listeners become listeners of the
    hub. -/
def configure (u : Hub) (g : RegistryId) (d : Configuration.Document) :
    Except LogError (Table HandlerId × List ListenerId) × Hub :=
  match u.within g d.apply with
  | (.error e, u) => (.error e, u)
  | (.ok c, u) =>
    let first := u.listeners.size
    (.ok (c.handlers, (List.range c.listeners.length).map (first + ·)),
      { u with listeners := u.listeners ++ (c.listeners.map some).toArray })

end Hub

end Logbook
