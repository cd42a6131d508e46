import Logbook.Arguments
import Logbook.CallSite
import Logbook.Exception
import Logbook.Level
import Logbook.Table
import Logbook.Time.Zone

/-! # Records

    A record is one event: who asked for it, how severe it is, a message with
    arguments, and what else is known.  The message is expanded on first use and
    the text of a failure is rendered once; both are then kept with the record.
    Extra attributes have names of their own: no extra can have the name of a
    built-in attribute.
-/

namespace Logbook

/-- The surroundings in which a record is made. -/
structure Origin where
  created : Time.Instant
  relativeCreated : Double
  thread : UInt64
  threadName? : Option String
  process : UInt32
  processName : String
  deriving Repr, DecidableEq, Inhabited

/-- What a logger hands over to have a record made. -/
structure RecordParts where
  name : String
  level : Level
  site : CallSite := CallSite.unknown
  msg : String
  args : Arguments := .none
  exception? : Option ExceptionInfo := none
  stack? : Option String := none
  extra : Table Value := []
  deriving Repr, DecidableEq

/-- One event. -/
structure Record where
  name : String
  level : Level
  site : CallSite
  msg : String
  args : Arguments
  origin : Origin
  exception? : Option ExceptionInfo
  stack? : Option String
  extra : Table Value
  /-- The expanded message, once it has been asked for. -/
  cachedMessage? : Option String := none
  /-- The rendered failure, once it has been asked for. -/
  cachedException? : Option String := none
  deriving Repr, DecidableEq

namespace Record

/-- The names of the built-in attributes. -/
def reservedNames : List String :=
  ["name", "msg", "args", "levelname", "levelno", "pathname", "filename", "module", "lineno",
    "funcName", "created", "msecs", "relativeCreated", "thread", "threadName", "process",
    "processName", "exc_info", "exc_text", "stack_info", "message", "asctime"]

/-- An extra must not have the name of a built-in attribute. -/
def overwriteError (key : String) : LogError :=
  .format s!"Attempt to overwrite '{key}' in record"

/-- A record made of its parts, without a look at the names of its extras. -/
def build (parts : RecordParts) (origin : Origin) : Record :=
  { name := parts.name, level := parts.level, site := parts.site, msg := parts.msg,
    args := parts.args, origin, exception? := parts.exception?, stack? := parts.stack?,
    extra := parts.extra }

/-- A record made of its parts; refused if an extra has the name of a built-in
    attribute. -/
def ofParts (parts : RecordParts) (origin : Origin) : Except LogError Record :=
  match parts.extra.keys.find? fun k => reservedNames.contains k with
  | some key => .error (overwriteError key)
  | none => .ok (build parts origin)

/-- A record with a name, a level and a message only. -/
def simple (name : String) (level : Level) (msg : String) (origin : Origin) : Record :=
  build { name, level, msg } origin

/-- Two records tell of the same event: they differ at most in their extras and in
    what is kept with them. -/
def SameEvent (r r' : Record) : Prop :=
  r' = { r with
    extra := r'.extra, cachedMessage? := r'.cachedMessage?, cachedException? := r'.cachedException? }

/-- A record tells of the same event as itself. -/
theorem SameEvent.refl (r : Record) : SameEvent r r := rfl

/-- Records that tell of the same event as a third do so among themselves. -/
theorem SameEvent.trans {r r' r'' : Record} (h : SameEvent r r') (h' : SameEvent r' r'') :
    SameEvent r r'' := by
  unfold SameEvent at h h' ⊢
  rw [h', h]

/-- Records of the same event have the same level. -/
theorem SameEvent.level_eq {r r' : Record} (h : SameEvent r r') : r'.level = r.level := by
  rw [h]

/-! ## Changes -/

/-- The record with other arguments; its message is to be expanded anew. -/
def withArgs (r : Record) (args : Arguments) : Record :=
  { r with args, cachedMessage? := none }

/-- The record with another failure. -/
def withException (r : Record) (e : ExceptionInfo) : Record := { r with exception? := some e }

/-- The record with another call stack. -/
def withStack (r : Record) (stack : String) : Record := { r with stack? := some stack }

/-- Adds or replaces an extra attribute. -/
def setExtra (r : Record) (key : String) (v : Value) : Except LogError Record :=
  if reservedNames.contains key then .error (overwriteError key)
  else .ok { r with extra := r.extra.insert key v }

/-- To add an extra changes nothing of the event. -/
theorem sameEvent_of_setExtra {r r' : Record} {key : String} {v : Value}
    (h : r.setExtra key v = .ok r') : SameEvent r r' := by
  unfold setExtra at h
  split at h
  · cases h
  · injection h with h
    subst h
    rfl

/-- A copy that carries a finished text in place of message, arguments, failure
    and stack, for handlers that work elsewhere. -/
def prepared (r : Record) (text : String) : Record :=
  { r with
    msg := text, args := .none, exception? := none, stack? := none,
    cachedException? := none, cachedMessage? := some text }

/-! ## Views -/

/-- The message with its arguments put in. -/
def message (r : Record) : Except LogError String :=
  match r.cachedMessage? with
  | some m => .ok m
  | none => Message.expand r.msg r.args

/-- The record after its message has been asked for. -/
def keepMessage (r : Record) : Record :=
  match r.message with
  | .ok m => { r with cachedMessage? := some m }
  | .error _ => r

/-- To ask for the message changes nothing of the event. -/
theorem sameEvent_keepMessage (r : Record) : SameEvent r r.keepMessage := by
  unfold keepMessage
  cases r.message with
  | ok m => rfl
  | error e => rfl

/-- The milliseconds of the time of creation. -/
def millis (r : Record) : Nat := r.origin.created.nanos / 1000000

/-- The time of creation in seconds, exact to the microsecond. -/
def createdSeconds (r : Record) : Double :=
  let t := r.origin.created
  let micros := t.seconds * 1000000 + (t.nanos / 1000 : Nat)
  Double.ofFloat ((Int64.ofInt micros).toFloat / 1000000.0)

/-- A number of 32 bits as a value. -/
private def word (n : UInt32) : Value := .ofNat64 n.toUInt64

/-- The value of an attribute, built-in or extra.  The message is one only after
    it has been asked for, and the readable time is none. -/
def attribute? (r : Record) (name : String) : Option Value :=
  match name with
  | "name" => some (.str r.name)
  | "msg" => some (.str r.msg)
  | "args" => some (.str r.args.text)
  | "levelname" => some (.str r.level.name)
  | "levelno" => some (word r.level.value)
  | "pathname" => some (.str r.site.pathname)
  | "filename" => some (.str r.site.fileName)
  | "module" => some (.str r.site.moduleName)
  | "lineno" => some (word r.site.line)
  | "funcName" => some (.str r.site.function)
  | "created" => some (.float r.createdSeconds)
  | "msecs" => some (word r.millis.toUInt32)
  | "relativeCreated" => some (.float r.origin.relativeCreated)
  | "thread" => some (.ofNat64 r.origin.thread)
  | "threadName" => some (.str (r.origin.threadName?.getD "unnamed"))
  | "process" => some (word r.origin.process)
  | "processName" => some (.str r.origin.processName)
  | "exc_info" => some (.ofText? (r.exception?.map ExceptionInfo.text))
  | "exc_text" => some (.ofText? r.cachedException?)
  | "stack_info" => some (.ofText? r.stack?)
  | "message" => r.cachedMessage?.map .str
  | name => r.extra.get? name

/-- For a developer. -/
def inspect (r : Record) : String :=
  let args :=
    match r.args with
    | .none => "None"
    | .positional vs => "Positional([" ++ String.intercalate ", " (vs.map Value.inspect) ++ "])"
    | .named vs =>
      "Mapping(\x7b" ++
        String.intercalate ", " (vs.map fun (k, v) => Text.quoted k ++ ": " ++ v.inspect) ++ "\x7d)"
  "Record \x7b name: " ++ Text.quoted r.name ++ ", level: " ++ r.level.inspect ++ ", pathname: " ++
    Text.quoted r.site.pathname ++ s!", lineno: {r.site.line}, msg: " ++ Text.quoted r.msg ++
    ", args: " ++ args ++ ", .. \x7d"

end Record

end Logbook
