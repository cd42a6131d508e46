import Logbook.Path
import Logbook.Text.Quoted

/-! # Call sites

    Where in a program a record was made: file, line, function and module.
    The short file name and the module fall back on the path.
-/

namespace Logbook

/-- The place in a program that asked for a record. -/
structure CallSite where
  pathname : String
  line : UInt32
  function : String := "(unknown function)"
  moduleName? : Option String := none
  deriving Repr, DecidableEq

namespace CallSite

/-- No place is known. -/
def unknown : CallSite := { pathname := "(unknown file)", line := 0 }

/-- The last name of the path, or the whole path if it does not end in a name. -/
def fileName (s : CallSite) : String := (Path.mk s.pathname).fileName?.getD s.pathname

/-- The module given, or the file name without its extension. -/
def moduleName (s : CallSite) : String :=
  s.moduleName?.getD ((Path.mk s.pathname).fileStem?.getD "unknown")

/-- All fields of a call site, for a developer. -/
def inspect (s : CallSite) : String :=
  let owner :=
    match s.moduleName? with
    | none => "None"
    | some m => s!"Some({Text.quoted m})"
  "CallSite \x7b pathname: " ++ Text.quoted s.pathname ++ s!", lineno: {s.line}, func_name: " ++
    Text.quoted s.function ++ s!", module: {owner} \x7d"

end CallSite

end Logbook
