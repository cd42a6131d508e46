import Logbook.Json.Number
import Logbook.Json.Text

/-! # Documents

    A document as a tree, the readers for the places between its values, and
    the reader that passes over a value of no interest.

    Lists and objects nest at most `maxDepth` deep; a value that is passed
    over may nest deeper, because nothing of it is kept.
-/

namespace Logbook.Json

/-- A document.  Objects keep their members in order, repeated names included. -/
inductive Tree where
  | null
  | bool (b : Bool)
  | number (n : Number)
  | string (s : String)
  | list (items : List Tree)
  | object (members : List (String × Tree))

/-- The number of lists and objects that may nest. -/
def maxDepth : Nat := 127

namespace Reader

/-- Enters a list or an object, `depth` levels being left. -/
def entering {α : Type} (depth : Nat) (body : Nat → Reader α) : Reader α :=
  match depth with
  | 0 => failAhead .tooDeep
  | d + 1 => do
    skip
    body d

/-- Consumes the end of a list. -/
def listEnd : Reader Unit := do
  match ← token with
  | some ']' => skip
  | some ',' =>
    skip
    match ← token with
    | some ']' => failAhead .trailingComma
    | _ => failAhead .trailingCharacters
  | some _ => failAhead .trailingCharacters
  | none => failAhead .endInList

/-- Consumes the end of an object. -/
def objectEnd : Reader Unit := do
  match ← token with
  | some '\x7d' => skip
  | some ',' => failAhead .trailingComma
  | some _ => failAhead .trailingCharacters
  | none => failAhead .endInObject

/-- Goes to the next item of a list, if there is one. -/
def nextItem (first : Bool) : Reader Bool := do
  match ← token with
  | none => failAhead .endInList
  | some ']' => return false
  | some c =>
    if first then return true
    else if c = ',' then
      skip
      match ← token with
      | some ']' => failAhead .trailingComma
      | some _ => return true
      | none => failAhead .endInValue
    else failAhead .expectedListEnd

/-- Goes to the next name of an object, if there is one. -/
def nextName (first : Bool) : Reader Bool := do
  match ← token with
  | none => failAhead .endInObject
  | some '\x7d' => return false
  | some c =>
    if first then
      if c = '"' then return true else failAhead .keyNotString
    else if c = ',' then
      skip
      match ← token with
      | some '"' => return true
      | some '\x7d' => failAhead .trailingComma
      | some _ => failAhead .keyNotString
      | none => failAhead .endInValue
    else failAhead .expectedObjectEnd

/-- The name of a member, at its opening quote. -/
def name : Reader String := do
  skip
  string

/-- Consumes the colon after a name. -/
def colon : Reader Unit := do
  match ← token with
  | some ':' => skip
  | some _ => failAhead .expectedColon
  | none => failAhead .endInObject

/-- The items of a list. -/
def items {α : Type} (item : Reader α) : Nat → Bool → List α → Reader (List α)
  | 0, _, acc => return acc.reverse
  | fuel + 1, first, acc => do
    if ← nextItem first then
      let a ← item
      items item fuel false (a :: acc)
    else return acc.reverse

/-- The members of an object, folded into a state. -/
def members {σ : Type} (member : String → σ → Reader σ) : Nat → Bool → σ → Reader σ
  | 0, _, s => return s
  | fuel + 1, first, s => do
    if ← nextName first then
      let key ← name
      let s ← member key s
      members member fuel false s
    else return s

/-- More than the number of items that the rest of the text can hold. -/
def itemBound : Reader Nat := return (← cursor).rest.length + 1

/-- The value that comes next if it is neither a list nor an object. -/
def scalar? : Reader (Option Tree) := do
  match ← token with
  | none => failAhead .endInValue
  | some 'n' =>
    skip
    word ['u', 'l', 'l']
    return some .null
  | some 't' =>
    skip
    word ['r', 'u', 'e']
    return some (.bool true)
  | some 'f' =>
    skip
    word ['a', 'l', 's', 'e']
    return some (.bool false)
  | some '"' =>
    skip
    return some (.string (← string))
  | some c =>
    if c = '[' || c = '\x7b' then return none
    else if c = '-' || c.isDigit then return some (.number (← signedNumber c))
    else failAhead .expectedValue

/-- The value that comes next, `depth` levels of nesting being left. -/
def tree (depth : Nat) : Reader Tree := do
  match ← scalar? with
  | some t => return t
  | none =>
    match depth with
    | 0 => failAhead .tooDeep
    | d + 1 =>
      let opening ← peek
      skip
      let bound ← itemBound
      if opening = some '[' then
        return .list (← (items (tree d) bound true []).closedBy listEnd)
      else
        let member (key : String) (acc : List (String × Tree)) : Reader (List (String × Tree)) := do
          colon
          let value ← tree d
          return (key, value) :: acc
        let acc ← (members member bound true []).closedBy objectEnd
        return .object acc.reverse

/-- Passes over the digits of a number; its size does not matter. -/
def skipNumber : Reader Unit := do
  match ← peek with
  | some '0' =>
    skip
    if ((← peek).map Char.isDigit).getD false then failAhead .badNumber else fraction
  | some c =>
    if c.isDigit then
      let _ ← digits
      fraction
    else failAhead .badNumber
  | none => failAhead .badNumber
where
  fraction : Reader Unit := do
    match ← peek with
    | some '.' =>
      skip
      let ds ← digits
      if ds.isEmpty then failAhead .badNumber
      else
        match ← peek with
        | some 'e' | some 'E' => power
        | _ => return ()
    | some 'e' | some 'E' => power
    | _ => return ()
  power : Reader Unit := do
    skip
    let sign ← peek
    if sign = some '+' || sign = some '-' then skip
    let ds ← digits
    if ds.isEmpty then failAhead .badNumber else return ()

/-- Passes over the name and the colon of a member. -/
def skipName : Reader Unit := do
  match ← token with
  | some '"' =>
    skip
    skipString
    match ← token with
    | some ':' => skip
    | some _ => failAhead .expectedColon
    | none => failAhead .endInObject
  | some _ => failAhead .keyNotString
  | none => failAhead .endInObject

/-- What comes after an opening bracket or after an item: closes enclosing lists
    and objects (their opening brackets, innermost first) as long as they end,
    and says which are still open when another item follows. -/
def skipEnds : Nat → Bool → List Char → Reader (List Char)
  | 0, _, open_ => return open_
  | _, _, [] => return []
  | fuel + 1, afterItem, frame :: outer => do
    match ← token with
    | none => failAhead (if frame = '[' then .endInList else .endInObject)
    | some c =>
      if c = ',' && afterItem then
        skip
        return frame :: outer
      else if (c = ']' && frame = '[') || (c = '\x7d' && frame = '\x7b') then
        skip
        skipEnds fuel true outer
      else if afterItem then
        failAhead (if frame = '[' then .expectedListEnd else .expectedObjectEnd)
      else return frame :: outer

/-- Passes over values until all the given brackets are closed. -/
def skipItems : Nat → List Char → Reader Unit
  | 0, _ => return ()
  | fuel + 1, open_ => do
    let bound ← itemBound
    let frames ← match ← token with
      | none => failAhead .endInValue
      | some 'n' => do
        skip
        word ['u', 'l', 'l']
        skipEnds bound true open_
      | some 't' => do
        skip
        word ['r', 'u', 'e']
        skipEnds bound true open_
      | some 'f' => do
        skip
        word ['a', 'l', 's', 'e']
        skipEnds bound true open_
      | some '"' => do
        skip
        skipString
        skipEnds bound true open_
      | some '-' => do
        skip
        skipNumber
        skipEnds bound true open_
      | some c =>
        if c = '[' || c = '\x7b' then do
          skip
          skipEnds bound false (c :: open_)
        else if c.isDigit then do
          skipNumber
          skipEnds bound true open_
        else failAhead .expectedValue
    match frames with
    | [] => return ()
    | frame :: _ =>
      if frame = '\x7b' then skipName
      skipItems fuel frames

/-- Passes over the value that comes next. -/
def skipValue : Reader Unit := do
  skipItems (← itemBound) []

/-- Nothing but blanks may follow the value of a document. -/
def documentEnd : Reader Unit := do
  if (← token).isSome then failAhead .trailingCharacters

/-- A text that consists of what a reader reads, given the depth it may go to. -/
def whole {α : Type} (r : Nat → Reader α) (text : String) : Except Fault α :=
  Reader.run (do
    let a ← r maxDepth
    documentEnd
    return a) text

/-- Why a text is no document, if it is none. -/
def fault? (text : String) : Option Fault :=
  match whole tree text with
  | .ok _ => none
  | .error f => some f

end Reader

end Logbook.Json
