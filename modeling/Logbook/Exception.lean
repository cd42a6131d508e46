import Logbook.Error

/-! # Failure data

    What a record keeps of a failure: the name of its type, its text, the texts
    of its causes, and optionally a trace.
-/

namespace Logbook

/-- A failure attached to a record. -/
structure ExceptionInfo where
  typeName : String
  message : String
  causes : List String := []
  trace? : Option String := none
  deriving Repr, DecidableEq

namespace ExceptionInfo

/-- The one-line text of a failure. -/
def text (e : ExceptionInfo) : String := s!"{e.typeName}: {e.message}"

/-- Splits at the last double colon, if there is one: what comes after it. -/
def afterLastColons : List Char → Option (List Char)
  | [] => none
  | c :: rest =>
    match afterLastColons rest with
    | some tail => some tail
    | none => if c = ':' && rest.head? == some ':' then some rest.tail else none

/-- The last part of a qualified type name.  A name with type arguments stays
    whole, because its last part may belong to an argument. -/
def shortTypeName (full : String) : String :=
  if full.toList.contains '<' then full
  else
    match afterLastColons full.toList with
    | some tail => String.ofList tail
    | none => full

/-- The failure data of an error of this library. -/
def ofError (e : LogError) : ExceptionInfo :=
  { typeName := "LoggerError", message := e.message, causes := e.causes }

end ExceptionInfo

end Logbook
