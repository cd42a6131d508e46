import Logbook.Decimal.Power
import Logbook.FileMode
import Logbook.Json.Shape
import Logbook.Level
import Logbook.Path
import Logbook.Template.Style
import Logbook.Time.TimeOfDay

/-! # Configuration documents

    A document names formatters, filters, handlers and loggers, and says how each
    is made.  Members that are not known are passed over; a member that is given
    twice, or has the wrong shape, is a fault.
-/

namespace Logbook.Configuration

open Json

/-- How a formatter is made. -/
structure FormatterEntry where
  format? : Option String := none
  dateFormat? : Option String := none
  style : Style := .percent
  validate : Bool := true
  defaults : Table Value := []
  utc : Bool := false
  deriving Repr, DecidableEq

/-- A filter by logger name. -/
structure FilterEntry where
  name : String := ""
  deriving Repr, DecidableEq

/-- The standard stream of a handler. -/
inductive StandardStream where
  | stderr
  | stdout
  deriving Repr, DecidableEq, Inhabited

/-- What a handler does with its records. -/
inductive HandlerKind where
  | stream (target : StandardStream)
  | file (path : Path) (mode : FileMode) (delay : Bool)
  | watchedFile (path : Path) (mode : FileMode) (delay : Bool)
  | rotatingFile (path : Path) (maxBytes backups : Nat) (delay compress : Bool)
  | timedRotatingFile (path : Path) (period : String) (count backups : Nat) (utc : Bool)
      (atTime? : Option Time.TimeOfDay) (delay compress : Bool)
  | null
  | memory (capacity : Nat) (flushLevel? : Option Level) (target? : Option String)
      (flushOnClose : Bool)
  | socket (host : String) (port : Nat)
  | queue (capacity? : Option Nat) (handlers : List String) (respectLevels : Bool)
  deriving Repr, DecidableEq

/-- How a handler is made. -/
structure HandlerEntry where
  kind : HandlerKind
  level? : Option Level := none
  formatter? : Option String := none
  filters : List String := []
  deriving Repr, DecidableEq

/-- What is set on a logger. -/
structure LoggerEntry where
  level? : Option Level := none
  propagate? : Option Bool := none
  handlers : List String := []
  filters : List String := []
  deriving Repr, DecidableEq

/-- A configuration. -/
structure Document where
  version : Nat
  formatters : Table FormatterEntry := []
  filters : Table FilterEntry := []
  handlers : Table HandlerEntry := []
  loggers : Table LoggerEntry := []
  root? : Option LoggerEntry := none
  /-- Loggers that exist and are not named are disabled. -/
  disableExisting : Bool := true
  deriving Repr, DecidableEq

/-! ## Members -/

/-- The words for the standard streams; the longer ones mean the same. -/
def streamWords : List (String × StandardStream) :=
  [("ext://sys.stderr", .stderr), ("stderr", .stderr), ("ext://sys.stdout", .stdout),
    ("stdout", .stdout)]

/-- The words for file modes. -/
def modeWords : List (String × FileMode) := [("a", .append), ("w", .truncate)]

/-- The words for template styles. -/
def styleWords : List (String × Style) := [("%", .percent), ("\x7b", .brace), ("$", .dollar)]

/-- A member whose value is kept until the whole record has been read. -/
def kept {σ β : Type} (get : σ → Option β) (set : σ → β → σ) (read : Nat → Reader β) :
    Reader.Member σ :=
  { seen := fun s => (get s).isSome, read := fun d s => set s <$> read d }

/-- A text, at any depth. -/
private def aString (_ : Nat) : Reader String := Reader.text "a string"

/-- A text or nothing, at any depth. -/
private def optString (_ : Nat) : Reader (Option String) := Reader.optional (Reader.text "a string")

/-- A truth value, at any depth. -/
private def truthValue (_ : Nat) : Reader Bool := Reader.truth

/-- A list of texts. -/
private def stringList (d : Nat) : Reader (List String) := Reader.listOf d aString

/-- A level or nothing. -/
private def optLevel (d : Nat) : Reader (Option Level) := Reader.optional (Level.reader d)

/-! ## Formatters, filters and loggers -/

/-- The members of a formatter read so far.  A member that was given is present, also when its value
is nothing, so that a second one is seen. -/
structure FormatterDraft where
  format : Option (Option String) := none
  dateFormat : Option (Option String) := none
  style : Option Style := none
  validate : Option Bool := none
  defaults : Option (Table Value) := none
  utc : Option Bool := none

/-- The formatter that its members make; what was not given takes its usual value. -/
def FormatterDraft.finish (s : FormatterDraft) : FormatterEntry :=
  { format? := s.format.join, dateFormat? := s.dateFormat.join, style := s.style.getD .percent,
    validate := s.validate.getD true, defaults := s.defaults.getD [], utc := s.utc.getD false }

/-- Reads how a formatter is made. -/
def readFormatter (depth : Nat) : Reader FormatterEntry :=
  Reader.record "struct FormatterConfig" depth ({} : FormatterDraft)
    [("format", kept (·.format) (fun s a => { s with format := some a }) optString),
      ("datefmt", kept (·.dateFormat) (fun s a => { s with dateFormat := some a }) optString),
      ("style", kept (·.style) (fun s a => { s with style := some a })
        fun d => Reader.wordOf d styleWords),
      ("validate", kept (·.validate) (fun s a => { s with validate := some a }) truthValue),
      ("defaults", kept (·.defaults) (fun s a => { s with defaults := some a })
        fun d => Reader.tableOf d Value.reader),
      ("utc", kept (·.utc) (fun s a => { s with utc := some a }) truthValue)]
    (fun s => .ok s.finish) (fun s => .ok s.finish)

/-- Reads a filter. -/
def readFilter (depth : Nat) : Reader FilterEntry :=
  Reader.record "struct FilterConfig" depth (none : Option String)
    [("name", kept id (fun _ a => some a) aString)]
    (fun s => .ok ⟨s.getD ""⟩) (fun s => .ok ⟨s.getD ""⟩)

/-- The members of a logger read so far. -/
structure LoggerDraft where
  level : Option (Option Level) := none
  propagate : Option (Option Bool) := none
  handlers : Option (List String) := none
  filters : Option (List String) := none

/-- What the members set on a logger; what was not given is left alone. -/
def LoggerDraft.finish (s : LoggerDraft) : LoggerEntry :=
  { level? := s.level.join, propagate? := s.propagate.join, handlers := s.handlers.getD [],
    filters := s.filters.getD [] }

/-- Reads what is set on a logger. -/
def readLogger (depth : Nat) : Reader LoggerEntry :=
  Reader.record "struct LoggerConfig" depth ({} : LoggerDraft)
    [("level", kept (·.level) (fun s a => { s with level := some a }) optLevel),
      ("propagate", kept (·.propagate) (fun s a => { s with propagate := some a })
        fun _ => Reader.optional Reader.truth),
      ("handlers", kept (·.handlers) (fun s a => { s with handlers := some a }) stringList),
      ("filters", kept (·.filters) (fun s a => { s with filters := some a }) stringList)]
    (fun s => .ok s.finish) (fun s => .ok s.finish)

/-! ## Handlers

    The members of a handler that depend on its class are kept as they are until
    all members have been read, because the class may come last. -/

/-- The classes of handlers, in the order by which they can also be numbered. -/
def classNames : List String :=
  ["stream", "file", "watched_file", "rotating_file", "timed_rotating_file", "null", "memory",
    "socket", "queue"]

/-- The name of the class of a handler. -/
def HandlerKind.className : HandlerKind → String
  | .stream _ => "stream"
  | .file .. => "file"
  | .watchedFile .. => "watched_file"
  | .rotatingFile .. => "rotating_file"
  | .timedRotatingFile .. => "timed_rotating_file"
  | .null => "null"
  | .memory .. => "memory"
  | .socket .. => "socket"
  | .queue .. => "queue"

/-- The class of a handler, by name or by number. -/
def readClass : Tree → Except Json.Fault String
  | .string s =>
    if classNames.contains s then .ok s else .error (unknownVariant s classNames)
  | .number (.natural n) =>
    match classNames[n]? with
    | some s => .ok s
    | none =>
      .error (invalidValue (Number.natural n).describe s!"variant index 0 <= i < {classNames.length}")
  | t => .error (invalidType t.describe "variant identifier")

/-- The class among the members of a handler, and the other members. -/
def splitClass : List (String × Tree) → Option String → Except Json.Fault (String × List (String × Tree))
  | [], none => .error (missingField "class")
  | [], some c => .ok (c, [])
  | (key, t) :: rest, class? =>
    if key = "class" then
      match class? with
      | some _ => .error (duplicateField "class")
      | none =>
        match readClass t with
        | .error f => .error f
        | .ok c => splitClass rest (some c)
    else
      match splitClass rest class? with
      | .error f => .error f
      | .ok (c, others) => .ok (c, (key, t) :: others)

/-- The members of all classes of handlers, each as far as it was read. -/
structure KindDraft where
  target : Option StandardStream := none
  path : Option String := none
  mode : Option FileMode := none
  delay : Option Bool := none
  maxBytes : Option Nat := none
  backups : Option Nat := none
  compress : Option Bool := none
  period : Option String := none
  count : Option Nat := none
  utc : Option Bool := none
  atTime : Option (Option Time.TimeOfDay) := none
  capacity : Option Nat := none
  flushLevel : Option (Option Level) := none
  memoryTarget : Option (Option String) := none
  flushOnClose : Option Bool := none
  host : Option String := none
  port : Option Nat := none
  queueCapacity : Option (Option Nat) := none
  handlers : Option (List String) := none
  respectLevels : Option Bool := none

/-- A member of a value already read. -/
structure KindMember where
  seen : KindDraft → Bool
  read : Tree → KindDraft → Except Json.Fault KindDraft

/-- A member that is kept by `set` and counts as given when `get` finds it. -/
private def kindMember {β : Type} (get : KindDraft → Option β) (set : KindDraft → β → KindDraft)
    (read : Tree → Except Json.Fault β) : KindMember :=
  { seen := fun s => (get s).isSome, read := fun t s => (read t).map (set s) }

/-- The file of a file handler. -/
private def pathMember : String × KindMember :=
  ("filename", kindMember (·.path) (fun s a => { s with path := some a }) (Tree.text "path string"))

/-- Whether a file is appended to or begun anew. -/
private def modeMember : String × KindMember :=
  ("mode", kindMember (·.mode) (fun s a => { s with mode := some a }) (Tree.word modeWords))

/-- Whether a file is opened at the first record only. -/
private def delayMember : String × KindMember :=
  ("delay", kindMember (·.delay) (fun s a => { s with delay := some a }) Tree.truth)

/-- The number of backups that are kept. -/
private def backupsMember : String × KindMember :=
  ("backup_count", kindMember (·.backups) (fun s a => { s with backups := some a })
    (Tree.natural "usize" (twoTo 64)))

/-- Whether backups are compressed. -/
private def compressMember : String × KindMember :=
  ("compress", kindMember (·.compress) (fun s a => { s with compress := some a }) Tree.truth)

/-- A time of day as a text. -/
def readTime (t : Tree) : Except Json.Fault Time.TimeOfDay := do
  let s ← t.text "a formatted time string"
  (Time.TimeOfDay.parse s).mapError fun f => .misshapen f.message

/-- The members that a class knows. -/
def kindMembers (cls : String) : List (String × KindMember) :=
  match cls with
  | "stream" =>
    [("stream", kindMember (·.target) (fun s a => { s with target := some a })
      (Tree.word streamWords))]
  | "file" | "watched_file" => [pathMember, modeMember, delayMember]
  | "rotating_file" =>
    [pathMember,
      ("max_bytes", kindMember (·.maxBytes) (fun s a => { s with maxBytes := some a })
        (Tree.natural "u64" (twoTo 64))),
      backupsMember, delayMember, compressMember]
  | "timed_rotating_file" =>
    [pathMember,
      ("when", kindMember (·.period) (fun s a => { s with period := some a }) (Tree.text "a string")),
      ("interval", kindMember (·.count) (fun s a => { s with count := some a })
        (Tree.natural "u32" (twoTo 32))),
      backupsMember,
      ("utc", kindMember (·.utc) (fun s a => { s with utc := some a }) Tree.truth),
      ("at_time", kindMember (·.atTime) (fun s a => { s with atTime := some a })
        (Tree.optional readTime)),
      delayMember, compressMember]
  | "memory" =>
    [("capacity", kindMember (·.capacity) (fun s a => { s with capacity := some a })
        (Tree.natural "usize" (twoTo 64))),
      ("flush_level", kindMember (·.flushLevel) (fun s a => { s with flushLevel := some a })
        (Tree.optional Level.ofTree)),
      ("target", kindMember (·.memoryTarget) (fun s a => { s with memoryTarget := some a })
        (Tree.optional (Tree.text "a string"))),
      ("flush_on_close", kindMember (·.flushOnClose) (fun s a => { s with flushOnClose := some a })
        Tree.truth)]
  | "socket" =>
    [("host", kindMember (·.host) (fun s a => { s with host := some a }) (Tree.text "a string")),
      ("port", kindMember (·.port) (fun s a => { s with port := some a })
        (Tree.natural "u16" (twoTo 16)))]
  | "queue" =>
    [("capacity", kindMember (·.queueCapacity) (fun s a => { s with queueCapacity := some a })
        (Tree.optional (Tree.natural "usize" (twoTo 64)))),
      ("handlers", kindMember (·.handlers) (fun s a => { s with handlers := some a })
        (Tree.listOf (Tree.text "a string"))),
      ("respect_handler_level", kindMember (·.respectLevels)
        (fun s a => { s with respectLevels := some a }) Tree.truth)]
  | _ => []

/-- Members folded into a draft in their order. -/
def foldMembers (known : List (String × KindMember)) :
    List (String × Tree) → KindDraft → Except Json.Fault KindDraft
  | [], s => .ok s
  | (key, t) :: rest, s =>
    match known.lookup key with
    | none => foldMembers known rest s
    | some m =>
      if m.seen s then .error (duplicateField key)
      else
        match m.read t s with
        | .error f => .error f
        | .ok s => foldMembers known rest s

/-- A member without which the class is not complete. -/
private def required {α : Type} (name : String) : Option α → Except Json.Fault α
  | some a => .ok a
  | none => .error (missingField name)

/-- The kind of a handler from its class and the members of the class. -/
def KindDraft.finish (cls : String) (s : KindDraft) : Except Json.Fault HandlerKind :=
  let delay := s.delay.getD false
  let compress := s.compress.getD false
  let backups := s.backups.getD 0
  match cls with
  | "stream" => .ok (.stream (s.target.getD .stderr))
  | "file" => do return .file ⟨← required "filename" s.path⟩ (s.mode.getD .append) delay
  | "watched_file" => do
    return .watchedFile ⟨← required "filename" s.path⟩ (s.mode.getD .append) delay
  | "rotating_file" => do
    return .rotatingFile ⟨← required "filename" s.path⟩ (s.maxBytes.getD 0) backups delay compress
  | "timed_rotating_file" => do
    let path ← required "filename" s.path
    let period ← required "when" s.period
    return .timedRotatingFile ⟨path⟩ period (s.count.getD 1) backups (s.utc.getD false)
      s.atTime.join delay compress
  | "memory" => do
    return .memory (← required "capacity" s.capacity) s.flushLevel.join s.memoryTarget.join
      (s.flushOnClose.getD true)
  | "socket" => do
    let host ← required "host" s.host
    return .socket host (← required "port" s.port)
  | "queue" => do
    return .queue s.queueCapacity.join (← required "handlers" s.handlers)
      (s.respectLevels.getD false)
  | _ => .ok .null

/-- The kind of a handler from the members that are not common to all classes. -/
def readKind (members : List (String × Tree)) : Except Json.Fault HandlerKind := do
  let (cls, others) ← splitClass members none
  let draft ← foldMembers (kindMembers cls) others {}
  draft.finish cls

/-- The members of a handler read so far. -/
structure HandlerDraft where
  level : Option (Option Level) := none
  formatter : Option (Option String) := none
  filters : Option (List String) := none
  /-- The members that depend on the class, last one first. -/
  others : List (String × Tree) := []

/-- Reads how a handler is made. -/
def readHandler (depth : Nat) : Reader HandlerEntry := do
  if (← Reader.valueStart) = '\x7b' then
    Reader.located (Reader.entering depth fun d => do
      let member (key : String) (s : HandlerDraft) : Reader HandlerDraft := do
        match key with
        | "level" =>
          if s.level.isSome then throw (duplicateField key)
          return { s with level := some (← Reader.memberValue (optLevel d)) }
        | "formatter" =>
          if s.formatter.isSome then throw (duplicateField key)
          return { s with formatter := some (← Reader.memberValue (optString d)) }
        | "filters" =>
          if s.filters.isSome then throw (duplicateField key)
          return { s with filters := some (← Reader.memberValue (stringList d)) }
        | _ => return { s with others := (key, ← Reader.memberValue (Reader.tree d)) :: s.others }
      let body : Reader HandlerEntry := do
        let s ← Reader.members member (← Reader.itemBound) true {}
        let kind ← Reader.lift (readKind s.others.reverse)
        return { kind, level? := s.level.join, formatter? := s.formatter.join,
                 filters := s.filters.getD [] }
      body.closedBy Reader.objectEnd)
  else Reader.unexpected "struct HandlerConfig"

/-! ## Documents -/

/-- The members of a document read so far. -/
structure Draft where
  version : Option Nat := none
  formatters : Option (Table FormatterEntry) := none
  filters : Option (Table FilterEntry) := none
  handlers : Option (Table HandlerEntry) := none
  loggers : Option (Table LoggerEntry) := none
  root : Option (Option LoggerEntry) := none
  disableExisting : Option Bool := none

/-- The document that its members make; `missing` is the fault when it has no version. -/
def Draft.finish (missing : Json.Fault) (s : Draft) : Except Json.Fault Document :=
  match s.version with
  | none => .error missing
  | some version =>
    .ok { version, formatters := s.formatters.getD [], filters := s.filters.getD [],
          handlers := s.handlers.getD [], loggers := s.loggers.getD [], root? := s.root.join,
          disableExisting := s.disableExisting.getD true }

/-- Reads a document. -/
def readDocument (depth : Nat) : Reader Document :=
  Reader.record "struct LoggingConfig" depth ({} : Draft)
    [("version", kept (·.version) (fun s a => { s with version := some a })
        fun _ => Reader.natural "u32" (twoTo 32)),
      ("formatters", kept (·.formatters) (fun s a => { s with formatters := some a })
        fun d => Reader.tableOf d readFormatter),
      ("filters", kept (·.filters) (fun s a => { s with filters := some a })
        fun d => Reader.tableOf d readFilter),
      ("handlers", kept (·.handlers) (fun s a => { s with handlers := some a })
        fun d => Reader.tableOf d readHandler),
      ("loggers", kept (·.loggers) (fun s a => { s with loggers := some a })
        fun d => Reader.tableOf d readLogger),
      ("root", kept (·.root) (fun s a => { s with root := some a })
        fun d => Reader.optional (readLogger d)),
      ("disable_existing_loggers",
        kept (·.disableExisting) (fun s a => { s with disableExisting := some a }) truthValue)]
    (Draft.finish (missingField "version"))
    (Draft.finish (.misshapen "invalid length 0, expected struct LoggingConfig with 7 elements"))

/-- The document that a text holds. -/
def Document.parse (text : String) : Except LogError Document :=
  (Reader.whole readDocument text).mapError fun f =>
    .configBecause "config" "invalid document" (.document f)

end Logbook.Configuration
