import Logbook.Record
import Logbook.Template.Style
import Logbook.Time.Pattern

/-! # Formatters

    A formatter renders a record by a template, and appends the text of a failure
    and of a call stack.  The template is read once, when the formatter is made;
    a formatter made without validation may hold a template that could not be
    read, and then fails when it is used.
-/

namespace Logbook

/-- What a caller asks for in a formatter. -/
structure FormatterOptions where
  format? : Option String := none
  dateFormat? : Option String := none
  style : Style := .percent
  validate : Bool := true
  zone : Time.Zone := .eastern
  defaults : Table Value := []
  exceptionHook? : Option (ExceptionInfo → String) := none
  stackHook? : Option (String → String) := none

/-- Renders records. -/
structure Formatter where
  format : String
  dateFormat? : Option String
  style : Style
  /-- The template, or the text of why it could not be read. -/
  fragments : Except String Template.Fragments
  usesTime : Bool
  defaults : Table Value
  zone : Time.Zone
  exceptionHook? : Option (ExceptionInfo → String)
  stackHook? : Option (String → String)

namespace Formatter

open Template

/-! ## Making a formatter -/

/-- Shows a value of the record. -/
def isField {α : Type} : Piece α → Bool
  | .field _ => true
  | .literal _ => false

/-- A template that does not fit its style. -/
def invalidFormat (format : String) (style : Style) (cause? : Option LogError) : LogError :=
  .configuration "formatter" s!"Invalid format '{format}' for '{style.mark}' style" cause?

/-- Reads a template.  With validation it must be readable and show something of
    the record; without, the text of the fault is kept. -/
def readTemplate (style : Style) (format : String) (validate : Bool) :
    Except LogError (Except String Fragments) :=
  match style.fragments format with
  | .ok ps =>
    if validate && !ps.any isField then .error (invalidFormat format style none)
    else .ok (.ok ps)
  | .error fault =>
    let cause := Message.ofFault fault
    if validate then .error (invalidFormat format style (some cause))
    else .ok (.error cause.message)

/-- Makes a formatter. -/
def build (o : FormatterOptions) : Except LogError Formatter :=
  let format := o.format?.getD o.style.defaultFormat
  match readTemplate o.style format o.validate with
  | .error e => .error e
  | .ok fragments =>
    let formatter : Formatter :=
      { format, dateFormat? := o.dateFormat?, style := o.style, fragments,
        usesTime := o.style.usesTime format, defaults := o.defaults, zone := o.zone,
        exceptionHook? := o.exceptionHook?, stackHook? := o.stackHook? }
    match o.dateFormat? with
    | none => .ok formatter
    | some d =>
      if (Time.Pattern.items? d).isSome then .ok formatter
      else .error (.config "formatter" s!"Invalid date format '{d}'")

/-- The formatter that shows the message alone. -/
def default : Formatter :=
  { format := Style.percent.defaultFormat, dateFormat? := none, style := .percent,
    fragments := (Style.percent.fragments Style.percent.defaultFormat).mapError
      fun f => (Message.ofFault f).message,
    usesTime := false, defaults := [], zone := .eastern, exceptionHook? := none,
    stackHook? := none }

instance : Inhabited Formatter := ⟨default⟩

/-! ## Parts of the text -/

/-- The date format of a formatter that has none of its own. -/
def defaultDateFormat : String := "%Y-%m-%d %H:%M:%S"

/-- The time of creation by a date format; the default format is followed by the
    milliseconds. -/
def formatTime (f : Formatter) (r : Record) (dateFormat? : Option String) :
    Except LogError String :=
  let pattern := dateFormat?.getD defaultDateFormat
  let text? := (Time.Pattern.items? pattern).bind (f.zone.read r.origin.created).render?
  match text? with
  | none => .error (.format s!"Invalid date format '{pattern}'")
  | some text =>
    if dateFormat?.isSome then .ok text
    else .ok (text ++ String.ofList (',' :: Decimal.zeroFilled 3 r.millis))

/-- The text of a failure: its own, its causes and its trace. -/
def formatException (f : Formatter) (e : ExceptionInfo) : String :=
  match f.exceptionHook? with
  | some hook => hook e
  | none =>
    let causes :=
      if e.causes.isEmpty then ""
      else "\nCaused by:" ++ String.join (e.causes.map fun c => "\n    " ++ c)
    let trace :=
      match e.trace? with
      | none => ""
      | some t => "\nStack backtrace:\n" ++ String.ofList (Text.trimEnd Text.isBlank t.toList)
    e.text ++ causes ++ trace

/-- The text of a call stack, without line ends at its end. -/
def formatStack (f : Formatter) (stack : String) : String :=
  match f.stackHook? with
  | some hook => hook stack
  | none => String.ofList (Text.trimEnd (· = '\n') stack.toList)

/-- The value under a name: the message and the readable time, then what the
    record knows, then the defaults of the formatter. -/
def lookup (f : Formatter) (r : Record) (message : String) (name : String) :
    Except LogError Value :=
  if name = "message" then .ok (.str message)
  else if name = "asctime" then (f.formatTime r f.dateFormat?).map .str
  else
    match (r.attribute? name).orElse fun _ => f.defaults.get? name with
    | some v => .ok v
    | none => .error (.missingAttribute name)

/-- The pieces of a template, each field written with its value. -/
def fill (f : Formatter) (r : Record) (message : String) :
    Fragments → Except LogError (List Char)
  | [] => .ok []
  | .literal text :: ps => (fill f r message ps).map (text ++ ·)
  | .field field :: ps => do
    let v ← f.lookup r message field.name
    let text ← field.rule.render v
    let rest ← fill f r message ps
    return text ++ rest

/-- The template filled in. -/
def formatMessage (f : Formatter) (r : Record) : Except LogError String := do
  let message ← r.message
  if f.usesTime then
    let _ ← f.formatTime r f.dateFormat?
  match f.fragments with
  | .error text => throw (.format text)
  | .ok ps =>
    let text ← fill f r.keepMessage message ps
    return String.ofList text

/-! ## The whole text -/

/-- Puts a text on a line of its own behind another. -/
def onNewLine (out text : String) : String :=
  if out.toList.getLast? = some '\n' then out ++ text else out ++ "\n" ++ text

/-- The text of the failure that a record shows: what has been rendered before,
    also for a failure that is gone, or else the failure rendered now. -/
def exceptionText? (f : Formatter) (r : Record) : Option String :=
  match r.cachedException? with
  | some text => some text
  | none => r.exception?.map f.formatException

/-- A record rendered. -/
def render (f : Formatter) (r : Record) : Except LogError String := do
  let out ← f.formatMessage r
  let out :=
    match f.exceptionText? r with
    | some text => if text.isEmpty then out else onNewLine out text
    | none => out
  match r.stack? with
  | some stack => return onNewLine out (f.formatStack stack)
  | none => return out

/-- The record after it has been rendered: what was expanded or rendered on the
    way is kept with it. -/
def keep (f : Formatter) (r : Record) : Record :=
  match f.formatMessage r with
  | .error _ => r.keepMessage
  | .ok _ => { r.keepMessage with cachedException? := f.exceptionText? r }

/-- For a developer. -/
def inspect (f : Formatter) : String :=
  let date :=
    match f.dateFormat? with
    | none => "None"
    | some d => s!"Some({Text.quoted d})"
  "Formatter \x7b fmt: " ++ Text.quoted f.format ++ s!", datefmt: {date}, style: {f.style.inspect}" ++
    s!", uses_time: {f.usesTime}, .. \x7d"

end Formatter

end Logbook
