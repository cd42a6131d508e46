import Logbook.Decimal.Notation
import Logbook.Json.Tree
import Logbook.Table
import Logbook.Text.Quoted

/-! # Shapes of values

    Readers that expect a value of one shape: a number in a range, a text, a
    list, an object with known members.  What is found instead is named in the
    fault, and what was expected is named by the caller.
-/

namespace Logbook.Json

/-! ## Wording -/

/-- A word in grave accents. -/
def marked (s : String) : String := "\x60" ++ s ++ "\x60"

/-- What a number is called when it was not expected. -/
def Number.describe : Number → String
  | natural n => "integer " ++ marked (toString n)
  | negative i => "integer " ++ marked (toString i)
  | double f => "floating point " ++ marked ((Decimal.documentText? (Double.ofFloat f)).getD "NaN")

/-- What a value is called when it was not expected. -/
def Tree.describe : Tree → String
  | null => "null"
  | bool b => "boolean " ++ marked (if b then "true" else "false")
  | number n => n.describe
  | string s => "string " ++ Text.quoted s
  | list _ => "sequence"
  | object _ => "map"

/-- A value of another kind than expected. -/
def invalidType (found expected : String) : Fault :=
  .misshapen s!"invalid type: {found}, expected {expected}"

/-- A value of the right kind that is not allowed. -/
def invalidValue (found expected : String) : Fault :=
  .misshapen s!"invalid value: {found}, expected {expected}"

/-- A member that must be there. -/
def missingField (name : String) : Fault := .misshapen ("missing field " ++ marked name)

/-- A member that is there twice. -/
def duplicateField (name : String) : Fault := .misshapen ("duplicate field " ++ marked name)

/-- A word that is none of the allowed ones. -/
def unknownVariant (found : String) (allowed : List String) : Fault :=
  let expected :=
    match allowed.map marked with
    | [] => "nothing"
    | [a] => a
    | [a, b] => s!"{a} or {b}"
    | all => "one of " ++ String.intercalate ", " all
  .misshapen ("unknown variant " ++ marked found ++ ", expected " ++ expected)

/-! ## Values already read -/

namespace Tree

/-- A natural number below a bound; `expected` names its type. -/
def natural (expected : String) (bound : Nat) : Tree → Except Fault Nat
  | number (.natural n) =>
    if n < bound then .ok n else .error (invalidValue (Number.natural n).describe expected)
  | number (.negative i) => .error (invalidValue (Number.negative i).describe expected)
  | t => .error (invalidType t.describe expected)

/-- A truth value. -/
def truth : Tree → Except Fault Bool
  | bool b => .ok b
  | t => .error (invalidType t.describe "a boolean")

/-- A text; `expected` names what it is for. -/
def text (expected : String) : Tree → Except Fault String
  | string s => .ok s
  | t => .error (invalidType t.describe expected)

/-- A value or null. -/
def optional {α : Type} (read : Tree → Except Fault α) : Tree → Except Fault (Option α)
  | null => .ok none
  | t => (read t).map some

/-- A list of values. -/
def listOf {α : Type} (read : Tree → Except Fault α) : Tree → Except Fault (List α)
  | list items => items.mapM read
  | t => .error (invalidType t.describe "a sequence")

/-- One of some words, as a text or as an object whose only member is the word
    with nothing in it. -/
def word {α : Type} (words : List (String × α)) : Tree → Except Fault α
  | string s => choose s
  | object [(s, inner)] =>
    match choose s, inner with
    | .error f, _ => .error f
    | .ok a, null => .ok a
    | .ok a, object [] => .ok a
    | .ok _, t => .error (invalidType t.describe "unit")
  | object _ => .error (invalidValue "map" "map with a single key")
  | t => .error (invalidType t.describe "string or map")
where
  choose (s : String) : Except Fault α :=
    match words.lookup s with
    | some a => .ok a
    | none => .error (unknownVariant s (words.map Prod.fst))

end Tree

/-! ## Values still to be read -/

namespace Reader

/-- Gives a fault of a value already read to the reader. -/
def lift {α : Type} : Except Fault α → Reader α
  | .ok a => return a
  | .error f => throw f

/-- Fails because the value that comes next has another type than expected.  A
    scalar is consumed, a list or an object is not. -/
def unexpected {α : Type} (expected : String) : Reader α := located do
  match ← token with
  | some '[' => throw (invalidType "sequence" expected)
  | some '\x7b' => throw (invalidType "map" expected)
  | _ =>
    match ← scalar? with
    | some t => throw (invalidType t.describe expected)
    | none => failAhead .expectedValue

/-- The next character of a value that must be there. -/
def valueStart : Reader Char := do
  match ← token with
  | none => failAhead .endInValue
  | some c => return c

/-- A natural number below a bound. -/
def natural (expected : String) (bound : Nat) : Reader Nat := located do
  let c ← valueStart
  if c = '-' || c.isDigit then lift (Tree.natural expected bound (.number (← signedNumber c)))
  else unexpected expected

/-- A truth value. -/
def truth : Reader Bool := do
  let c ← valueStart
  if c = 't' || c = 'f' then
    match ← scalar? with
    | some t => lift (Tree.truth t)
    | none => failAhead .expectedValue
  else unexpected "a boolean"

/-- A text; `expected` names what it is for. -/
def text (expected : String) : Reader String := do
  if (← valueStart) = '"' then name else unexpected expected

/-- A value or null. -/
def optional {α : Type} (read : Reader α) : Reader (Option α) := do
  if (← token) = some 'n' then
    skip
    word ['u', 'l', 'l']
    return none
  else some <$> read

/-- A list of values. -/
def listOf {α : Type} (depth : Nat) (read : Nat → Reader α) : Reader (List α) := do
  if (← valueStart) = '[' then
    located (entering depth fun d => do
      (items (read d) (← itemBound) true []).closedBy listEnd)
  else unexpected "a sequence"

/-- An object whose members are folded into a state; `expected` names its type. -/
def objectOf {σ : Type} (expected : String) (depth : Nat) (start : σ)
    (member : Nat → String → σ → Reader σ) : Reader σ := do
  if (← valueStart) = '\x7b' then
    located (entering depth fun d => do
      (members (member d) (← itemBound) true start).closedBy objectEnd)
  else unexpected expected

/-- The value after the colon of a member. -/
def memberValue {α : Type} (read : Reader α) : Reader α := do
  colon
  read

/-- An object from names to values of one shape; a repeated name counts once, with
    its last value. -/
def tableOf {α : Type} (depth : Nat) (read : Nat → Reader α) : Reader (Table α) :=
  objectOf "a map" depth [] fun d key t => do
    let a ← memberValue (read d)
    return t.insert key a

/-- One of some words. -/
def wordOf {α : Type} (depth : Nat) (words : List (String × α)) : Reader α := do
  let choose : Reader α := located do
    let s ← text "variant identifier"
    lift (Tree.word.choose words s)
  match ← token with
  | some '"' => choose
  | some '\x7b' =>
    entering depth fun _ => do
      let a ← choose
      colon
      if (← valueStart) = 'n' then
        let _ ← scalar?
      else unexpected "unit"
      match ← token with
      | some '\x7d' =>
        skip
        return a
      | some _ => fail .expectedValue
      | none => fail .endInObject
  | some _ => failAhead .expectedValue
  | none => failAhead .endInValue

/-- A member of a record: takes the state that has been read so far, and says
    whether it has been there before. -/
structure Member (σ : Type) where
  seen : σ → Bool
  read : Nat → σ → Reader σ

/-- A record: an object with known members, others being passed over, or a list
    of the members' values in their order.  `finish` says what is missing. -/
def record {σ α : Type} (expected : String) (depth : Nat) (start : σ)
    (known : List (String × Member σ)) (finish : σ → Except Fault α)
    (finishList : σ → Except Fault α) : Reader α := do
  match ← valueStart with
  | '\x7b' =>
    located (entering depth fun d => do
      let member (key : String) (s : σ) : Reader σ := do
        match known.lookup key with
        | some m =>
          if m.seen s then throw (duplicateField key)
          else memberValue (m.read d s)
        | none =>
          memberValue skipValue
          return s
      let body : Reader α := do
        lift (finish (← members member (← itemBound) true start))
      body.closedBy objectEnd)
  | '[' =>
    located (entering depth fun d => do
      (listMembers d (known.map Prod.snd) true start).closedBy listEnd)
  | _ => unexpected expected
where
  listMembers (d : Nat) : List (Member σ) → Bool → σ → Reader α
    | [], _, s => lift (finish s)
    | m :: rest, first, s => do
      if ← nextItem first then
        let s ← m.read d s
        listMembers d rest false s
      else lift (finishList s)

end Reader

end Logbook.Json
