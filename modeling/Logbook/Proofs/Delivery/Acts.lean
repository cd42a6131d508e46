import Logbook.Proofs.Delivery.Apart

/-! # The acts of a memory sink

    The handler of a memory sink asks its filters, keeps a record, hands records on one
    by one, counts, aims at another target and lets go of the one it had.  An act changes
    that handler in a way of its own and, as long as the targets do not reach it, in no
    other; and to all other handlers only what is handed on, or let go, makes a difference.
-/

namespace Logbook

/-- Changes the memory sink of a handler. -/
def Handler.onMemory (f : MemorySink → MemorySink) (x : Handler) : Handler :=
  match x.sink with
  | .memory m => { x with sink := .memory (f m) }
  | _ => x

/-- What the handler of a memory sink does at a time. -/
inductive Act where
  /-- The filters are asked about a record. -/
  | ask (r : Record)
  /-- The sink keeps a record. -/
  | keep (r : Record)
  /-- The records are taken out of the sink. -/
  | empty
  /-- A target is handed a record. -/
  | hand (target : HandlerId) (r : Record)
  /-- The outcome of a record is counted. -/
  | count (f : Fate)
  /-- The sink gets another target, or none. -/
  | aim (target? : Option HandlerId)
  /-- A former target is let go. -/
  | letGo (target : HandlerId)
  /-- The handler counts as closed. -/
  | mark

namespace Act

/-- The other handlers that an act concerns. -/
def concerns : Act → List HandlerId
  | .hand target _ | .letGo target => [target]
  | .aim target? => target?.toList
  | _ => []

/-- What an act does to the handler itself. -/
def onHandler : Act → Handler → Handler
  | .keep r => Handler.onMemory (·.push r)
  | .empty => Handler.onMemory ({ · with buffer := [] })
  | .aim target? => Handler.onMemory ({ · with target? })
  | .count f => (Handler.count · f)
  | .mark => ({ · with closed := true })
  | .ask _ | .hand _ _ | .letGo _ => id

/-- What several acts do to the handler itself. -/
def allOnHandler (acts : List Act) (x : Handler) : Handler :=
  acts.foldl (fun x a => a.onHandler x) x

/-- The records that targets are handed in some acts, each with its target. -/
def handed (acts : List Act) : List (HandlerId × Record) :=
  acts.filterMap fun
    | .hand target r => some (target, r)
    | _ => none

theorem handed_append (acts acts' : List Act) : handed (acts ++ acts') = handed acts ++ handed acts' :=
  List.filterMap_append

end Act

namespace Store

variable {s s' s'' t t' : Store} {h k : HandlerId} {r : Record} {a : Act} {acts : List Act}
  {f f' : Handler → Handler}

/-- The filters of a handler. -/
def filtersOf (s : Store) (h : HandlerId) : List FilterId :=
  (s.handlers[h]?.map Handler.filters).getD []

/-- The store after an act, during which the handler is at work. -/
def act (s : Store) (h : HandlerId) : Act → Store
  | .ask r => (screen (s.filtersOf h) r s).2.2
  | .hand target r => (s.handle (others s.everyone h) target r).2.2
  | .letGo target => s.letGoAmong (others s.everyone h) target
  | a => s.modify h a.onHandler

/-- The store after several acts. -/
def perform (s : Store) (h : HandlerId) (acts : List Act) : Store :=
  acts.foldl (fun s a => s.act h a) s

theorem perform_append (s : Store) (h : HandlerId) (acts acts' : List Act) :
    s.perform h (acts ++ acts') = (s.perform h acts).perform h acts' := List.foldl_append

/-! ## The handler itself -/

/-- **Changes**: one handler has changed in a given way, the filters test what they tested,
    and no handler reaches that one which did not before. -/
structure Changes (h : HandlerId) (f : Handler → Handler) (s s' : Store) : Prop where
  handler : s'.handlers[h]? = s.handlers[h]?.map f
  size : s'.handlers.size = s.handlers.size
  reaches : ∀ k, s'.Reaches k h → s.Reaches k h
  tests : s'.tests = s.tests

namespace Changes

theorem refl (h : HandlerId) (s : Store) : Changes h id s s :=
  ⟨by rw [Option.map_id_fun, id_eq], rfl, fun _ => id, rfl⟩

theorem trans (hs : Changes h f s s') (hs' : Changes h f' s' s'') :
    Changes h (fun x => f' (f x)) s s'' := by
  refine ⟨?_, hs'.size.trans hs.size, fun k hk => hs.reaches k (hs'.reaches k hk),
    hs'.tests.trans hs.tests⟩
  rw [hs'.handler, hs.handler, Option.map_map]
  rfl

/-- What spares a handler does not change it. -/
theorem of_spares (hs : Spares h s s') : Changes h id s s' :=
  ⟨by rw [hs.handler, Option.map_id_fun, id_eq], hs.size, fun _ => hs.reaches, hs.tests⟩

theorem modify (h : HandlerId) (s : Store) (f : Handler → Handler) :
    Changes h f s (s.modify h f) := by
  refine ⟨?_, by simp [Store.modify], ?_, rfl⟩
  · rw [Store.modify, Array.getElem?_modify, if_pos rfl]
  · intro k hk
    refine hk.of_elsewhere ?_
    intro a ha
    rw [targetOf?_eq, targetOf?_eq, Store.modify, Array.getElem?_modify, if_neg ha.symm]

/-- The handlers of the store are as many as before. -/
theorem everyone (hs : Changes h f s s') : s'.everyone = s.everyone := by
  rw [Store.everyone, Store.everyone, hs.size]

end Changes

/-- **An act changes the handler in its own way**, if what it concerns does not reach the
    handler. -/
theorem changes_act (hfar : ∀ k ∈ a.concerns, ¬ s.Reaches k h) :
    Changes h a.onHandler s (s.act h a) := by
  cases a with
  | ask r => exact .of_spares (.screen h _ r s)
  | hand target r => exact .of_spares (spares_handle _ s r (hfar target (List.mem_singleton_self _)))
  | letGo target => exact .of_spares (spares_letGoAmong _ s (hfar target (List.mem_singleton_self _)))
  | keep | empty | count | aim | mark => exact .modify h s _

/-- So do several acts. -/
theorem changes_perform (hfar : ∀ a ∈ acts, ∀ k ∈ a.concerns, ¬ s.Reaches k h) :
    Changes h (Act.allOnHandler acts) s (s.perform h acts) := by
  induction acts generalizing s with
  | nil => exact .refl h s
  | cons a acts ih =>
    have hone := changes_act (hfar a List.mem_cons_self)
    refine hone.trans (ih ?_)
    intro b hb k hk hreach
    exact hfar b (List.mem_cons_of_mem a hb) k hk (hone.reaches k hreach)

/-! ## All other handlers -/

/-- Records go to handlers, one after the other, while none is at work. -/
def deliverAll (s : Store) (jobs : List (HandlerId × Record)) : Store :=
  jobs.foldl (fun s job => (s.deliver job.1 job.2).2.2) s

theorem deliverAll_append (s : Store) (jobs jobs' : List (HandlerId × Record)) :
    s.deliverAll (jobs ++ jobs') = (s.deliverAll jobs).deliverAll jobs' := List.foldl_append

/-- **To everyone else, acts are what is handed on**: the rest of the store is as if each
    record had gone to its target directly. -/
theorem Apart.perform (hs : Apart h t s) (hfar : ∀ a ∈ acts, ∀ k ∈ a.concerns, ¬ s.Reaches k h)
    (hholds : ∀ k, Act.letGo k ∉ acts) :
    Apart h (t.deliverAll (Act.handed acts)) (s.perform h acts) := by
  induction acts generalizing s t with
  | nil => exact hs
  | cons a acts ih =>
    have hone := changes_act (hfar a List.mem_cons_self)
    have hlater : ∀ b ∈ acts, ∀ k ∈ b.concerns, ¬ (s.act h a).Reaches k h :=
      fun b hb k hk hreach => hfar b (List.mem_cons_of_mem a hb) k hk (hone.reaches k hreach)
    have hrest : ∀ k, Act.letGo k ∉ acts := fun k hk => hholds k (List.mem_cons_of_mem a hk)
    cases a with
    | hand target r =>
      -- The record finds the same on its way, whether the handler is at work or not.
      have htarget : ¬ s.Reaches target h :=
        hfar _ List.mem_cons_self target (List.mem_singleton_self _)
      have heveryone : t.everyone = s.everyone := by rw [everyone, everyone, hs.size]
      have hsame := (hs.symm.handle (sameButOne_others h s.everyone) r htarget).store.symm
      have hdirect : Apart h (t.deliver target r).2.2 (s.act h (.hand target r)) := by
        rw [deliver, heveryone]
        exact hsame
      exact ih hdirect hlater hrest
    | letGo target => exact absurd List.mem_cons_self (hholds target)
    | ask r => exact ih (hs.trans (.screen h _ r s)) hlater hrest
    | keep | empty | count | aim | mark => exact ih (hs.trans (.modify_self h s _)) hlater hrest

end Store

end Logbook
