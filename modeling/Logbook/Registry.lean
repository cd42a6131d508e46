import Logbook.Handler

/-! # The registry of loggers

    Loggers have dotted names and form a tree.  The parent of a logger is the one
    with the longest name that is a dotted prefix of its own, or the root.  A
    name that is asked for before those above it leaves placeholders there, which
    remember the loggers below until a logger takes their place.

    The level of a logger without one of its own is that of its nearest ancestor
    that has one.  Such answers are kept with the logger and hold until anything
    in the registry changes that they could depend on; the registry counts those
    changes.
-/

namespace Logbook

/-- A logger, by its place in its registry. -/
abbrev LoggerId := Nat

/-- Answers that a logger keeps, and the change of the registry after which they
    were found. -/
structure LevelMemo where
  epoch : UInt64 := 0
  effective? : Option Level := none
  enabled : List (Level × Bool) := []
  deriving Repr, DecidableEq, Inhabited

namespace LevelMemo

/-- The answers as far as they still hold. -/
def current (m : LevelMemo) (epoch : UInt64) : LevelMemo :=
  if m.epoch = epoch then m else { epoch }

end LevelMemo

/-- A named node of the tree. -/
structure Logger where
  name : String
  /-- The level set for the logger itself. -/
  level : Level := Level.notset
  parent? : Option LoggerId := none
  handlers : List HandlerId := []
  filters : List FilterId := []
  /-- Records go on to the handlers of the parent. -/
  propagate : Bool := true
  disabled : Bool := false
  memo : LevelMemo := {}
  /-- The logger went with its registry. -/
  gone : Bool := false
  deriving Repr, DecidableEq, Inhabited

/-- What a name stands for in a registry. -/
inductive Node where
  | logger (id : LoggerId)
  /-- No logger yet, but loggers below. -/
  | placeholder (below : List LoggerId)
  deriving Repr, DecidableEq

/-- The name of the root logger. -/
def rootName : String := "root"

/-- The place of the root logger. -/
def rootId : LoggerId := 0

/-- A tree of loggers. -/
structure Registry where
  loggers : Array Logger := #[{ name := rootName, level := Level.warning }]
  nodes : Table Node := []
  /-- Records up to this level are suppressed. -/
  disable : Level := Level.notset
  /-- Counts the changes that kept answers could depend on, in a 64-bit word. -/
  epoch : UInt64 := 0
  /-- Makes the records of the registry. -/
  factory : RecordParts → Origin → Except LogError Record := Record.ofParts
  /-- Says where a call came from. -/
  resolver : CallSite → CallSite := id
  /-- Gets the records that find no handler. -/
  lastResort? : Option HandlerId := none
  /-- It has been reported that a record found no handler. -/
  warned : Bool := false
  /-- Nobody holds the registry any more; loggers that are held live on. -/
  dropped : Bool := false
  deriving Inhabited

namespace Registry

/-! ## Parts -/

/-- A logger of the registry. -/
def logger (g : Registry) (i : LoggerId) : Logger := g.loggers.getD i { name := rootName }

/-- Changes a logger. -/
def modify (g : Registry) (i : LoggerId) (f : Logger → Logger) : Registry :=
  { g with loggers := g.loggers.modify i f }

/-- Counts a change that kept answers could depend on. -/
def invalidate (g : Registry) : Registry := { g with epoch := g.epoch + 1 }

/-- The parent of a logger, as long as it lives. -/
def parent? (g : Registry) (i : LoggerId) : Option LoggerId :=
  (g.logger i).parent?.filter fun p => p < g.loggers.size && !(g.logger p).gone

/-! ## Ways upwards -/

/-- A logger and those above it, at most the given number of them. -/
def lineUpTo (g : Registry) : Nat → LoggerId → List LoggerId
  | 0, _ => []
  | n + 1, i =>
    match g.parent? i with
    | some p => i :: lineUpTo g n p
    | none => [i]

/-- A logger and those above it, up to the root. -/
def line (g : Registry) (i : LoggerId) : List LoggerId := g.lineUpTo (g.loggers.size + 1) i

/-- A logger and those above it that get its records, at most the given number:
    up to the first that does not propagate. -/
def routeUpTo (g : Registry) : Nat → LoggerId → List LoggerId
  | 0, _ => []
  | n + 1, i =>
    if (g.logger i).propagate then
      match g.parent? i with
      | some p => i :: routeUpTo g n p
      | none => [i]
    else [i]

/-- A logger and those above it that get its records. -/
def route (g : Registry) (i : LoggerId) : List LoggerId := g.routeUpTo (g.loggers.size + 1) i

/-- The handlers on the way of a record, those of the logger itself first. -/
def handlersFrom (g : Registry) (i : LoggerId) : List HandlerId :=
  (g.route i).flatMap fun j => (g.logger j).handlers

/-- A record finds handlers on its way. -/
def hasHandlers (g : Registry) (i : LoggerId) : Bool :=
  (g.route i).any fun j => !(g.logger j).handlers.isEmpty

/-! ## Levels -/

/-- The first level that is set on the way upwards. -/
def inheritedLevel (g : Registry) (i : LoggerId) : Level :=
  (((g.line i).map fun j => (g.logger j).level).find? (· ≠ Level.notset)).getD Level.notset

/-- The level that holds for a logger.  The answer is kept. -/
def effectiveLevel (g : Registry) (i : LoggerId) : Level × Registry :=
  let memo := (g.logger i).memo.current g.epoch
  match memo.effective? with
  | some level => (level, g)
  | none =>
    let level := g.inheritedLevel i
    (level, g.modify i ({ · with memo := { memo with effective? := some level } }))

/-- Whether a logger processes records of a level.  The answer is kept, except
    for a disabled logger. -/
def isEnabledFor (g : Registry) (i : LoggerId) (level : Level) : Bool × Registry :=
  if (g.logger i).disabled then (false, g)
  else
    match ((g.logger i).memo.current g.epoch).enabled.lookup level with
    | some answer => (answer, g)
    | none =>
      let (answer, g) : Bool × Registry :=
        if level ≤ g.disable then (false, g)
        else
          let (effective, g) := g.effectiveLevel i
          (decide (effective ≤ level), g)
      let memo := (g.logger i).memo.current g.epoch
      (answer,
        g.modify i ({ · with memo := { memo with enabled := (level, answer) :: memo.enabled } }))

/-- Sets the level of a logger. -/
def setLevel (g : Registry) (i : LoggerId) (level : Level) : Registry :=
  (g.modify i ({ · with level })).invalidate

/-- Suppresses all records up to a level. -/
def setDisable (g : Registry) (level : Level) : Registry :=
  { g with disable := level }.invalidate

/-! ## Names -/

/-- The proper prefixes of a name that end before a dot, the longest first; the
    part of the name that has been passed comes first among the arguments. -/
def dottedPrefixesFrom (passed : List Char) : List Char → List String
  | [] => []
  | c :: rest =>
    let longer := dottedPrefixesFrom (passed ++ [c]) rest
    if c = '.' && !passed.isEmpty then longer ++ [String.ofList passed] else longer

/-- The names above a name, the longest first. -/
def dottedPrefixes (name : String) : List String := dottedPrefixesFrom [] name.toList

/-- Looks for the nearest logger above a new one, and notes the new one in the
    placeholders on the way. -/
def linkUpwards (i : LoggerId) : List String → Table Node → Option LoggerId × Table Node
  | [], nodes => (none, nodes)
  | name :: names, nodes =>
    match nodes.get? name with
    | some (.logger above) => (some above, nodes)
    | some (.placeholder below) =>
      linkUpwards i names (nodes.insert name (.placeholder (Handler.adjoin below i)))
    | none => linkUpwards i names (nodes.insert name (.placeholder [i]))

/-- The logger called `current` is the one called `name` or hangs below it. -/
def hangsBelow (name current : String) : Bool := name = current || isBelow name current

/-- Puts a new logger between a logger below it and the parent of that, unless
    the parent is at or below the new logger. -/
def adoptOne (g : Registry) (i child : LoggerId) : Registry :=
  match g.parent? child with
  | none => g
  | some current =>
    if current ≠ rootId && hangsBelow (g.logger i).name (g.logger current).name then g
    else (g.modify i ({ · with parent? := some current })).modify child ({ · with parent? := some i })

/-- Puts a new logger in its place above the loggers that waited for it. -/
def adopt (g : Registry) (i : LoggerId) (below : List LoggerId) : Registry :=
  below.foldl (fun g child => g.adoptOne i child) g

/-- Makes the logger with a name that has none. -/
def create (g : Registry) (name : String) (waiting : List LoggerId) : LoggerId × Registry :=
  let i := g.loggers.size
  let g := { g with loggers := g.loggers.push { name }, nodes := g.nodes.insert name (.logger i) }
  let g := g.adopt i waiting
  let (above?, nodes) := linkUpwards i (dottedPrefixes name) g.nodes
  let g := { g with nodes }
  (i, (g.modify i ({ · with parent? := some (above?.getD rootId) })).invalidate)

/-- The logger with a name; it is made if there is none.  The empty name stands
    for the root. -/
def getLogger (g : Registry) (name : String) : LoggerId × Registry :=
  if name = "" || name = rootName then (rootId, g)
  else
    match g.nodes.get? name with
    | some (.logger i) => (i, g)
    | some (.placeholder below) => g.create name below
    | none => g.create name []

/-- The loggers but the root, in ascending order of their names. -/
def named (g : Registry) : List (String × LoggerId) :=
  g.nodes.filterMap fun (name, node) =>
    match node with
    | .logger i => some (name, i)
    | .placeholder _ => none

/-- The names of the loggers but the root, in ascending order. -/
def names (g : Registry) : List String := g.named.map Prod.fst

/-- All loggers, the root first. -/
def all (g : Registry) : List LoggerId := rootId :: g.named.map Prod.snd

/-- The logger with a name below that of another one. -/
def getChild (g : Registry) (i : LoggerId) (suffix : String) : LoggerId × Registry :=
  let name := (g.logger i).name
  if name = rootName && (g.parent? i).isNone then g.getLogger suffix
  else g.getLogger (name ++ "." ++ suffix)

/-! ## Changes -/

/-- A logger cannot get a parent. -/
def parentError (name message : String) : LogError := .config s!"logger '{name}'" message

/-- Gives a logger another parent, unless it is at or above that. -/
def setParent (g : Registry) (i parent : LoggerId) : Except LogError Registry :=
  if i ∈ g.line parent then
    .error (parentError (g.logger i).name
      s!"parent '{(g.logger parent).name}' would create a cycle")
  else .ok (g.modify i ({ · with parent? := some parent })).invalidate

/-- Attaches a handler, unless it is attached. -/
def addHandler (g : Registry) (i : LoggerId) (h : HandlerId) : Registry :=
  g.modify i fun x => { x with handlers := Handler.adjoin x.handlers h }

/-- Detaches a handler. -/
def removeHandler (g : Registry) (i : LoggerId) (h : HandlerId) : Registry :=
  g.modify i fun x => { x with handlers := x.handlers.filter (· ≠ h) }

/-- Detaches all handlers. -/
def clearHandlers (g : Registry) (i : LoggerId) : Registry := g.modify i ({ · with handlers := [] })

/-- Adds a filter, unless it is there. -/
def addFilter (g : Registry) (i : LoggerId) (f : FilterId) : Registry :=
  g.modify i fun x => { x with filters := Handler.adjoin x.filters f }

/-- Removes a filter. -/
def removeFilter (g : Registry) (i : LoggerId) (f : FilterId) : Registry :=
  g.modify i fun x => { x with filters := x.filters.filter (· ≠ f) }

/-- The registry is let go, with all loggers but those that are held. -/
def drop (g : Registry) (held : List LoggerId) : Registry :=
  { g with
    dropped := true
    loggers := g.loggers.mapIdx fun i x =>
      if i ∈ held then x else { x with gone := true, handlers := [] } }

/-- The handlers that the registry holds: those of its loggers by name, those of
    the root, and the one of last resort, which is kept as long as any logger
    is. -/
def heldHandlers (g : Registry) : List HandlerId :=
  let own := (g.named.map Prod.snd ++ [rootId]).flatMap fun i => (g.logger i).handlers
  if g.loggers.all Logger.gone then own else own ++ g.lastResort?.toList

/-! ## Texts -/

/-- A logger, for a developer. -/
def inspectLogger (g : Registry) (i : LoggerId) : String :=
  let x := g.logger i
  "Logger \x7b name: " ++ Text.quoted x.name ++ s!", level: {x.level.inspect}, " ++
    s!"propagate: {x.propagate}, handlers: {x.handlers.length}, .. \x7d"

/-- The registry, for a developer. -/
def inspect (g : Registry) : String :=
  "Manager \x7b loggers: [" ++ String.intercalate ", " (g.names.map Text.quoted) ++
    s!"], disable: {g.disable.inspect} \x7d"

/-- A list of filters, for a developer. -/
def inspectFilters (count : Nat) : String := "Filterer \x7b filters: " ++ s!"{count} \x7d"

end Registry

end Logbook
