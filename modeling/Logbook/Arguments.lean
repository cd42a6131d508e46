import Logbook.Template.Written

/-! # Arguments of a message

    A message is a percent template together with arguments: none, a row of
    values or values with names.  Without any argument the message is shown as
    it is, percent signs included.
-/

namespace Logbook

/-- The arguments of a message.  Named arguments are sorted by name, each name
    once. -/
inductive Arguments where
  | none
  | positional (values : List Value)
  | named (values : List (String × Value))
  deriving Repr, DecidableEq, Inhabited

namespace Arguments

/-- There is nothing to expand. -/
def isEmpty : Arguments → Bool
  | none => true
  | positional vs => vs.isEmpty
  | named vs => vs.isEmpty

/-- The visible text of arguments. -/
def text : Arguments → String
  | none => "None"
  | positional vs => "(" ++ String.intercalate ", " (vs.map Value.repr) ++ ")"
  | named vs =>
    "\x7b" ++ String.intercalate ", " (vs.map fun (k, v) => Text.quoted k ++ ": " ++ v.repr)
      ++ "\x7d"

end Arguments

namespace Message

open Template

/-- Writes the pieces of a message, each conversion taking the next value. -/
def expandRow : List (Piece Conversion) → List Value → Except LogError (List Char)
  | [], [] => .ok []
  | [], _ :: _ => .error (.format "not all arguments converted during string formatting")
  | .literal text :: ps, vs => (expandRow ps vs).map (text ++ ·)
  | .field c :: ps, vs =>
    if c.key?.isSome then .error (.format Fault.missingKey.message)
    else
      match vs with
      | [] => .error (.format "not enough arguments for format string")
      | v :: vs => do
        let text ← c.render v
        let rest ← expandRow ps vs
        return text ++ rest

/-- Writes the pieces of a message, each conversion taking the value it names. -/
def expandNamed (values : List (String × Value)) :
    List (Piece Conversion) → Except LogError (List Char)
  | [] => .ok []
  | .literal text :: ps => (expandNamed values ps).map (text ++ ·)
  | .field c :: ps =>
    match c.key? with
    | none => .error (.format "mapping arguments need %(key) specs")
    | some key =>
      match values.lookup key with
      | none => .error (.format s!"no argument named '{key}'")
      | some v => do
        let text ← c.render v
        let rest ← expandNamed values ps
        return text ++ rest

/-- A fault of a template as an error of this library. -/
def ofFault (f : Fault) : LogError := .format f.message

/-- A message with its arguments put in. -/
def expand (msg : String) (args : Arguments) : Except LogError String :=
  if args.isEmpty then .ok msg
  else do
    let pieces ← (percentPieces msg).mapError ofFault
    match args with
    | .none => return msg
    | .positional vs => return String.ofList (← expandRow pieces vs)
    | .named vs => return String.ofList (← expandNamed vs pieces)

end Message

end Logbook
