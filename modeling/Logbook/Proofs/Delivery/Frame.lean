import Logbook.Proofs.Delivery.Steps

/-! # What handling a record leaves alone

    A record that goes through a handler changes the sink and the counters of that
    handler, of those it is handed on to, and whether they are closed.  Names,
    levels, formatters and filters of all handlers stay.  The record itself goes
    on to tell of the same event, however often it was rendered or filtered.
-/

namespace Logbook

/-- A rendered record tells of the same event. -/
theorem Formatter.sameEvent_keep (f : Formatter) (r : Record) : r.SameEvent (f.keep r) := by
  unfold keep
  split
  · exact r.sameEvent_keepMessage
  · refine r.sameEvent_keepMessage.trans ?_
    rfl

namespace Store

variable {s s' s'' : Store} {h k : HandlerId} {r r' : Record} {handler : Handler}

/-- **Kept**: every handler is set up as it was. -/
def Kept (s s' : Store) : Prop :=
  ∀ h : HandlerId, s'.handlers[h]?.map Handler.settings = s.handlers[h]?.map Handler.settings

theorem Kept.refl (s : Store) : Kept s s := fun _ => rfl

theorem Kept.trans (h : Kept s s') (h' : Kept s' s'') : Kept s s'' := fun k => (h' k).trans (h k)

/-- Handlers that are set up in the same way have the same level. -/
theorem Kept.levelOf_eq (h : Kept s s') (k : HandlerId) : s'.levelOf k = s.levelOf k := by
  have hlevel : ∀ s : Store, s.levelOf k =
      ((s.handlers[k]?.map Handler.settings).map Handler.level).getD Level.notset := by
    intro s
    rw [levelOf, Option.map_map]
    rfl
  rw [hlevel, hlevel, h k]

/-- The same handlers are set up in the same way. -/
theorem kept_of_handlers_eq (h : s'.handlers = s.handlers) : Kept s s' := fun k => by rw [h]

theorem kept_setSink (s : Store) (h : HandlerId) (sink : Sink) : Kept s (s.setSink h sink) := by
  intro k
  rw [setSink, modify, Array.getElem?_modify]
  split
  · rw [Option.map_map]
    rfl
  · rfl

/-- A step of a handler concerns no setting. -/
theorem Step.kept (hstep : Step Handler.Remains h s s') : Kept s s' := by
  intro k
  cases hk : s.handlers[k]? with
  | none =>
    have hsize : s'.handlers.size ≤ k := hstep.size ▸ Array.getElem?_eq_none_iff.mp hk
    rw [Array.getElem?_eq_none hsize]
  | some x =>
    obtain ⟨y, hy, hremains⟩ := hstep.handler .refl hk
    rw [hy]
    exact congrArg some hremains.settings

/-! ## The event of a record -/

/-- A record that a probe gives to its own handler is screened or rendered at most. -/
theorem sameEvent_callOwn (s : Store) (h : HandlerId) (handler : Handler) (r : Record)
    (c : OwnCall) : r.SameEvent (s.callOwn h handler r c).1 := by
  cases c with
  | handle =>
    have hscreen := (screen_frame handler.filters r s).1
    unfold callOwn handleAtWork
    dsimp only
    split <;> next heq =>
      rw [heq] at hscreen
      exact hscreen
  | format => exact handler.formatter.sameEvent_keep r
  | name | flush | close | reachSink => exact Record.SameEvent.refl r

/-- A record tells of the same event, whatever a sink does with it. -/
theorem sameEvent_emit (s : Store) (h : HandlerId) (handler : Handler) (r : Record) :
    r.SameEvent (s.emit h handler r).2.1 := by
  have hkeep := handler.formatter.sameEvent_keep r
  have htext : r.SameEvent (s.emitText h handler r).2.1 := by
    unfold emitText
    split <;> exact hkeep
  unfold emit
  split
  · exact Record.SameEvent.refl r
  · exact Record.SameEvent.refl r
  · exact htext
  · exact htext
  · exact htext
  · unfold emitQueued
    split
    · exact hkeep
    · dsimp only
      split <;> exact hkeep
  · unfold emitProbe
    split
    · dsimp only
      split <;> exact hkeep
    · exact Record.SameEvent.refl r
    · exact Record.SameEvent.refl r
    · exact Record.SameEvent.refl r
    · exact s.sameEvent_callOwn h handler r _

/-- A record tells of the same event after it was handled. -/
theorem sameEvent_handle (idle : List HandlerId) (s : Store) (h : HandlerId) (r : Record) :
    r.SameEvent (s.handle idle h r).2.1 := by
  rw [handle_eq]
  split
  · exact Record.SameEvent.refl r
  · next handler _ =>
    have hscreen := (screen_frame handler.filters r s).1
    split
    · next heq =>
      rw [heq] at hscreen
      exact hscreen
    · next r' s' heq =>
      rw [heq] at hscreen
      refine hscreen.trans ?_
      split
      · split
        · exact Record.SameEvent.refl r'
        · exact s'.sameEvent_emit h handler r'
      · exact Record.SameEvent.refl r'

/-! ## The frame -/

/-- **Frame**: a record tells of the same event as before, and the handlers are set
    up as they were. -/
structure Frame (r : Record) (s : Store) (r' : Record) (s' : Store) : Prop where
  event : r.SameEvent r'
  kept : Kept s s'

/-- Filters keep the frame. -/
theorem frame_screen (filters : List FilterId) (r : Record) (s : Store) :
    Frame r s (screen filters r s).2.1 (screen filters r s).2.2 :=
  ⟨(screen_frame filters r s).1, kept_of_handlers_eq (handlers_screen filters r s)⟩

/-- A handler keeps the frame. -/
theorem frame_handle (idle : List HandlerId) (s : Store) (h : HandlerId) (r : Record) :
    Frame r s (s.handle idle h r).2.1 (s.handle idle h r).2.2 :=
  ⟨s.sameEvent_handle idle h r, handle_keeps .refl .trans Step.kept idle s h r⟩

/-- A delivery keeps the frame. -/
theorem frame_deliver (s : Store) (h : HandlerId) (r : Record) :
    Frame r s (s.deliver h r).2.1 (s.deliver h r).2.2 :=
  frame_handle s.everyone s h r

end Store

end Logbook
