import Logbook.Record
import Logbook.Template.Style

/-! # Filters

    A filter accepts a record or rejects it, and may add extra attributes to it.
    The name filter accepts the records of one logger and of all loggers below
    it in the dotted hierarchy of names.
-/

namespace Logbook

/-- The name `below` is `name` followed by a dot and more. -/
def isBelow (name below : String) : Bool :=
  Style.startsWith (name.toList ++ ['.']) below.toList

/-- Accepts the records of a logger and of those below it; the empty name stands
    for all loggers. -/
structure NameFilter where
  name : String := ""
  deriving Repr, DecidableEq

namespace NameFilter

/-- The record's logger has the name of the filter or a name below it. -/
def accepts (f : NameFilter) (r : Record) : Bool :=
  f.name = "" || f.name = r.name || isBelow f.name r.name

end NameFilter

/-- A filter and the number of records it has been asked about. -/
structure Filter where
  test : Record → Bool × Record
  calls : Nat := 0
  /-- A filter adds extras at most; what the record tells of stays. -/
  sameEvent : ∀ r : Record, r.SameEvent (test r).2

namespace Filter

/-- A filter that leaves records as they are. -/
def ofTest (p : Record → Bool) : Filter :=
  { test := fun r => (p r, r), sameEvent := Record.SameEvent.refl }

/-- The filter that accepts by logger name. -/
def ofName (f : NameFilter) : Filter := ofTest f.accepts

/-- The filter that adds an extra attribute, and rejects the record if it may
    not. -/
def addingExtra (key : String) (v : Value) : Filter :=
  { test := fun r =>
      match r.setExtra key v with
      | .ok r => (true, r)
      | .error _ => (false, r)
    sameEvent := fun r => by
      cases h : r.setExtra key v with
      | ok r' => exact Record.sameEvent_of_setExtra h
      | error e => exact Record.SameEvent.refl r }

/-- A text occurs in another one. -/
def occursIn (text : List Char) : List Char → Bool
  | [] => text.isEmpty
  | c :: rest => text.isPrefixOf (c :: rest) || occursIn text rest

/-- The filter that accepts messages in which a text occurs, arguments aside. -/
def mentioning (text : String) : Filter := ofTest fun r => occursIn text.toList r.msg.toList

/-- The filter that accepts records with an extra attribute of the given name. -/
def havingExtra (key : String) : Filter := ofTest fun r => (r.extra.get? key).isSome

/-- The filter that accepts records from a level on. -/
def atLeast (level : Level) : Filter := ofTest fun r => decide (level ≤ r.level)

end Filter

end Logbook
