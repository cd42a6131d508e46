import Logbook.Store

/-! # Closing handlers and letting them go

    A handler is held by names, loggers and listeners, which the store keeps a
    list of, and by the memory sinks whose target it is.  When the last of them
    lets it go, it is closed, and then its own target is let go in turn.

    A memory sink lets go of its target also when it is closed and when it gets
    another one.  Its handler is at work meanwhile, so that records which the
    target hands on then do not reach it.  As with records, each step down a
    chain of targets leaves fewer handlers that are not at work.
-/

namespace Logbook.Store

/-! ## Who holds a handler -/

/-- The handlers that others hold as their targets. -/
def targets (s : Store) : List HandlerId :=
  s.everyone.filterMap fun h =>
    if (s.handlers[h]?.map Handler.released).getD true then none else s.targetOf? h

/-- Something holds a handler. -/
def isHeld (s : Store) (h : HandlerId) : Bool := s.held.contains h || s.targets.contains h

/-- Something more holds a handler. -/
def hold (s : Store) (h : HandlerId) : Store := { s with held := h :: s.held }

/-! ## Closing and release -/

/-- Reports that a handler could not be closed. -/
def complainOfClose (s : Store) (h : HandlerId) (e : LogError) : Store :=
  s.complain s!"Failed to close handler '{s.nameOf h}': {e.message}"

/-- Reports that a handler that was let go could not be closed. -/
def complainOfRelease (s : Store) : Except LogError Unit → Store
  | .ok () => s
  | .error e => s.complain s!"Failed to close handler on drop: {e.message}"

mutual

/-- Closes a handler, when the handlers in the list are not at work.  Only the
    first call reaches the sink.  A memory sink hands on what it has, if it is
    meant to, and lets go of its target. -/
def closeAmong (s : Store) (idle : List HandlerId) (h : HandlerId) : Except LogError Unit × Store :=
  match s.handlers[h]? with
  | none => (.ok (), s)
  | some handler =>
    if handler.closed then (.ok (), s)
    else if _hidle : h ∈ idle then
      let s := s.modify h ({ · with closed := true })
      match handler.sink with
      | .memory sink =>
        let (job, drained) := if sink.flushOnClose then sink.drain else (none, sink)
        let s := (s.setSink h (.memory drained)).forward (others idle h) job
        let s := s.setSink h (.memory sink.closed)
        match sink.target? with
        | none => (.ok (), s)
        | some target => (.ok (), letGoAmong s (others idle h) target)
      | sink =>
        let (result, sink) := sink.close s.world
        (result, s.setSink h sink)
    else s.closeAtWork h handler
termination_by (idle.length, 0)
decreasing_by exact Prod.Lex.left _ _ (length_others_lt _hidle)

/-- A handler loses a holder, when the handlers in the list are not at work.
    Nothing happens as long as something else holds it. -/
def letGoAmong (s : Store) (idle : List HandlerId) (h : HandlerId) : Store :=
  if s.isHeld h || (s.handlers[h]?.map Handler.released).getD true then s
  else
    let (result, s) := closeAmong s idle h
    let s := s.complainOfRelease result
    let target? := s.targetOf? h
    let s := s.modify h ({ · with released := true })
    match target? with
    | none => s
    | some target => if _hidle : h ∈ idle then letGoAmong s (others idle h) target else s
termination_by (idle.length, 1)
decreasing_by
  · exact Prod.Lex.right _ Nat.zero_lt_one
  · exact Prod.Lex.left _ _ (length_others_lt _hidle)

end

/-- Closes a handler while none is at work. -/
def close (s : Store) (h : HandlerId) : Except LogError Unit × Store := s.closeAmong s.everyone h

/-- Flushes a handler, and closes it if that went well. -/
def flushAndClose (s : Store) (h : HandlerId) : Except LogError Unit × Store :=
  match s.flush h with
  | (.error e, s) => (.error e, s)
  | (.ok (), s) => s.close h

/-- Gives a memory sink another target and lets go of the one it had.  The answer
    is false for a sink of another kind. -/
def setTarget (s : Store) (h : HandlerId) (target? : Option HandlerId) : Bool × Store :=
  match s.handlers[h]?.map Handler.sink with
  | some (.memory sink) =>
    let s := s.setSink h (.memory { sink with target? })
    match sink.target? with
    | none => (true, s)
    | some old => (true, s.letGoAmong (others s.everyone h) old)
  | _ => (false, s)

/-! ## Letting go -/

/-- A handler loses a holder while none is at work. -/
def letGo (s : Store) (h : HandlerId) : Store := s.letGoAmong s.everyone h

/-- One of those that hold a handler gives it up. -/
def giveUp (s : Store) (h : HandlerId) : Store := { s with held := s.held.erase h }.letGo h

/-- Gives up handlers one after the other, until only the given ones are held;
    those that are still to come are held until their turn. -/
def giveUpAll (kept : List HandlerId) : List HandlerId → Store → Store
  | [], s => { s with held := kept }
  | h :: rest, s => giveUpAll kept rest ({ s with held := kept ++ rest }.letGo h)

/-- From now on only the given handlers are held from outside, and a handler that
    nothing holds is let go.  Those that were held until now come first, in their
    order. -/
def holdOnly (s : Store) (kept : List HandlerId) : Store :=
  let s := giveUpAll kept (s.held.filter (!kept.contains ·)) s
  s.everyone.foldl letGo s

end Logbook.Store
