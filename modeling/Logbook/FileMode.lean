import Logbook.Error

/-! # Ways to open a file -/

namespace Logbook

/-- How the live file of a sink is opened. -/
inductive FileMode where
  /-- New text goes behind what the file holds. -/
  | append
  /-- What the file holds is dropped each time it is opened. -/
  | truncate
  deriving Repr, DecidableEq, Inhabited

namespace FileMode

/-- For a developer. -/
def inspect : FileMode → String
  | append => "Append"
  | truncate => "Truncate"

/-- The mode with a letter. -/
def parse (s : String) : Except LogError FileMode :=
  if s = "a" then .ok append
  else if s = "w" then .ok truncate
  else .error (.config "file handler" s!"unsupported mode '{s}'")

end FileMode

end Logbook
