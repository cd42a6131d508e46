import Logbook.Decimal.Power
import Logbook.Error
import Logbook.Json.Tree
import Logbook.Text.Blank

/-! # Severity levels

    A level is a number; only the six standard ones have names.  A level is
    read from a name in any letter case, from one of two older names, or from
    its number.
-/

namespace Logbook

/-- A severity. -/
structure Level where
  value : UInt32
  deriving Repr, DecidableEq, Inhabited

namespace Level

/-- The level of a logger that takes the level of its parent. -/
def notset : Level := ⟨0⟩
/-- Detail for whoever looks for a fault. -/
def debug : Level := ⟨10⟩
/-- Things go as expected. -/
def info : Level := ⟨20⟩
/-- Something unexpected, though the work goes on. -/
def warning : Level := ⟨30⟩
/-- Some work could not be done. -/
def error : Level := ⟨40⟩
/-- The program may not be able to go on. -/
def critical : Level := ⟨50⟩

/-- Levels are compared by their numbers. -/
instance : LE Level := ⟨fun a b => a.value ≤ b.value⟩
instance : LT Level := ⟨fun a b => a.value < b.value⟩

instance (a b : Level) : Decidable (a ≤ b) := inferInstanceAs (Decidable (a.value ≤ b.value))
instance (a b : Level) : Decidable (a < b) := inferInstanceAs (Decidable (a.value < b.value))

/-- A level that is not suppressed is above the threshold. -/
theorem not_le_iff {a b : Level} : ¬ a ≤ b ↔ b < a := UInt32.not_le

/-- The name of a standard level; other levels have an empty one. -/
def name (l : Level) : String :=
  if l = notset then "NOTSET"
  else if l = debug then "DEBUG"
  else if l = info then "INFO"
  else if l = warning then "WARNING"
  else if l = error then "ERROR"
  else if l = critical then "CRITICAL"
  else ""

/-- For a developer. -/
def inspect (l : Level) : String := s!"Level({l.value})"

/-- The capital form of a letter whose capital form is in the basic Latin
    alphabet; dotless i and long s are among them.  Other characters stay as they
    are: no name of a level holds any. -/
def capital (c : Char) : Char :=
  if c = 'ı' then 'I' else if c = 'ſ' then 'S' else c.toUpper

/-- The level with a name in capital letters; two older names are accepted. -/
def named? (s : String) : Option Level :=
  if s = "NOTSET" then some notset
  else if s = "DEBUG" then some debug
  else if s = "INFO" then some info
  else if s = "WARN" ∨ s = "WARNING" then some warning
  else if s = "ERROR" then some error
  else if s = "FATAL" ∨ s = "CRITICAL" then some critical
  else none

/-- A number in decimal digits, with a plus sign or without, below a bound. -/
def decimal? (bound : Nat) (s : List Char) : Option Nat :=
  let ds := match s with
    | '+' :: r => r
    | _ => s
  if ds.isEmpty || !ds.all Char.isDigit then none
  else
    let n := ds.foldl (fun n d => n * 10 + (d.toNat - '0'.toNat)) 0
    if n < bound then some n else none

/-- Reads a level from its name or number, white space around it ignored. -/
def parse (s : String) : Except LogError Level :=
  let text := (Text.trim s.toList).map capital
  match named? (String.ofList text) with
  | some l => .ok l
  | none =>
    match decimal? (twoTo 32) text with
    | some n => .ok ⟨n.toUInt32⟩
    | none => .error (.invalidLevel s)

/-! ## Documents -/

/-- A level in a document is a number below `2^32` or a text. -/
def ofTree : Json.Tree → Except Json.Fault Level
  | .number (.natural n) => if n < twoTo 32 then .ok ⟨n.toUInt32⟩ else .error unmatched
  | .string s =>
    match parse s with
    | .ok l => .ok l
    | .error e => .error (.misshapen e.message)
  | _ => .error unmatched
where
  unmatched : Json.Fault :=
    .misshapen "data did not match any variant of untagged enum LevelSpec"

/-- Reads the level that comes next in a document. -/
def reader (depth : Nat) : Json.Reader Level := do
  match ofTree (← Json.Reader.tree depth) with
  | .ok l => return l
  | .error f => throw f

/-- A document that consists of a level. -/
def ofText (text : String) : Except Json.Fault Level := Json.Reader.whole reader text

end Level

end Logbook
