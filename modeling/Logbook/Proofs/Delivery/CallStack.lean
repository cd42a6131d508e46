import Logbook.Proofs.Delivery.Frame
import Mathlib.Logic.Relation

/-! # Calls within calls

    A memory sink hands its records on to a handler that may be the one it belongs to, or
    may lead back to it.  Whether such a call goes on forever cannot be seen from any one
    handler: each of them calls the next and waits for it.

    Here the calls are laid open as a stack machine.  A handler is on the stack while its
    sink is at work; a handler that is given a record looks there, and nowhere else,
    whether it may go to work.  No bound and no measure is built in.

    * **One call at a time**: no handler is on the stack twice.
    * **Every call returns**: the machine stops, with the store that `deliver` and `flush`
      compute.  The handlers that are not on the stack become fewer with each call
      inside another, and one activation hands on a given number of records.
    * **A call on the way round is dropped**: it is counted where it arrives, and changes
      nothing else.
-/

namespace Logbook

namespace Store

/-! ## The machine -/

/-- What a sink is doing. -/
inductive Task where
  /-- A sink that hands nothing on writes a record. -/
  | write (handler : Handler) (r : Record)
  /-- A sink that hands nothing on is flushed. -/
  | sync (sink : Sink)
  /-- A memory sink hands records on: because it was given the record, or because it was
      flushed. -/
  | forward (r? : Option Record) (job : Option (HandlerId × List Record))

/-- **Activation**: a call of a sink that has not returned. -/
structure Activation where
  handler : HandlerId
  task : Task

/-- What is to be done next. -/
inductive Control where
  /-- A handler is given a record. -/
  | handle (h : HandlerId) (r : Record)
  /-- A handler is flushed. -/
  | flush (h : HandlerId)
  /-- The innermost sink goes on. -/
  | resume
  /-- A handler has answered that it accepted the record or not. -/
  | handled (accepted : Bool) (r : Record)
  /-- A handler has been flushed. -/
  | flushed (result : Except LogError Unit)

/-- **Machine**: the store, the calls of sinks that have not returned, the innermost first,
    and what is to be done next. -/
structure Machine where
  store : Store
  stack : List Activation
  control : Control

namespace Machine

/-- The handlers whose sinks are at work. -/
def active (m : Machine) : List HandlerId := m.stack.map Activation.handler

/-- A handler is given a record.  Its filters are asked first; the sink is called unless it
    is at work. -/
def callHandle (m : Machine) (h : HandlerId) (r : Record) : Machine :=
  match m.store.handlers[h]? with
  | none => { m with control := .handled true r }
  | some handler =>
    match screen handler.filters r m.store with
    | (false, r, s) => { m with store := s.count h .filtered, control := .handled false r }
    | (true, r, s) =>
      if h ∈ m.active then { m with store := s.count h .dropped, control := .handled true r }
      else
        match handler.sink with
        | .memory sink =>
          { store := s.setSink h (.memory (sink.receive r).2),
            stack := ⟨h, .forward (some r) (sink.receive r).1⟩ :: m.stack, control := .resume }
        | _ => { store := s, stack := ⟨h, .write handler r⟩ :: m.stack, control := .resume }

/-- A handler is flushed; nothing is done if its sink is at work. -/
def callFlush (m : Machine) (h : HandlerId) : Machine :=
  match m.store.handlers[h]? with
  | none => { m with control := .flushed (.ok ()) }
  | some handler =>
    if h ∈ m.active then { m with control := .flushed (.ok ()) }
    else
      match handler.sink with
      | .memory sink =>
        { store := m.store.setSink h (.memory sink.drain.2),
          stack := ⟨h, .forward none sink.drain.1⟩ :: m.stack, control := .resume }
      | sink => { m with stack := ⟨h, .sync sink⟩ :: m.stack, control := .resume }

/-- A memory sink that has nothing left to hand on returns. -/
def finish (s : Store) (h : HandlerId) (rest : List Activation) : Option Record → Machine
  | some r => { store := s.count h .emitted, stack := rest, control := .handled true r }
  | none => { store := s, stack := rest, control := .flushed (.ok ()) }

/-- The innermost sink goes on: it hands on its next record, or it is done and returns. -/
def goOn (s : Store) (h : HandlerId) (rest : List Activation) : Task → Machine
  | .write handler r =>
    let (result, r, s) := s.emit h handler r
    { store := s.settle h r result, stack := rest, control := .handled true r }
  | .sync sink => { store := s, stack := rest, control := .flushed (sink.flush s.world) }
  | .forward r? (some (target, r :: rs)) =>
    { store := s, stack := ⟨h, .forward r? (some (target, rs))⟩ :: rest,
      control := .handle target r }
  | .forward r? _ => finish s h rest r?

/-- One step; none if nothing is at work any more. -/
def step? (m : Machine) : Option Machine :=
  match m.control, m.stack with
  | .handle h r, _ => some (m.callHandle h r)
  | .flush h, _ => some (m.callFlush h)
  | .resume, ⟨h, task⟩ :: rest => some (goOn m.store h rest task)
  | .handled _ _, _ :: _ | .flushed _, _ :: _ => some { m with control := .resume }
  | _, [] => none

/-- One machine becomes another in some number of steps. -/
def Runs : Machine → Machine → Prop := Relation.ReflTransGen fun m m' => m.step? = some m'

variable {m m' m'' : Machine}

theorem Runs.refl (m : Machine) : Runs m m := Relation.ReflTransGen.refl

theorem Runs.trans (h : Runs m m') (h' : Runs m' m'') : Runs m m'' :=
  Relation.ReflTransGen.trans h h'

/-- A step in front of a run. -/
theorem Runs.head (h : m.step? = some m') (h' : Runs m' m'') : Runs m m'' :=
  Relation.ReflTransGen.head h h'

/-- There is one run only: what a machine becomes on its way to a machine that has stopped
    will become that machine. -/
theorem Runs.through (h : Runs m m') (hend : Runs m m'') (hstop : m''.step? = none) :
    Runs m' m'' := by
  have hone : Relator.RightUnique fun m m' : Machine => m.step? = some m' := by
    intro a b c hab hac
    exact Option.some.inj (hab.symm.trans hac)
  rcases Relation.ReflTransGen.total_of_right_unique hone h hend with hon | hback
  · exact hon
  · -- Nothing comes after a machine that has stopped.
    rcases Relation.ReflTransGen.cases_head hback with heq | ⟨next, hnext, -⟩
    · exact heq ▸ Runs.refl m''
    · rw [hstop] at hnext
      cases hnext

/-! ## One call at a time -/

/-- No sink is at work twice. -/
def Apart (m : Machine) : Prop := m.active.Nodup

/-- A handler goes to work only if it is not at work. -/
theorem Apart.callHandle (hm : m.Apart) (h : HandlerId) (r : Record) :
    (m.callHandle h r).Apart := by
  unfold Machine.callHandle
  split
  · exact hm
  · split
    · exact hm
    · split
      · exact hm
      · next hfree => split <;> exact List.nodup_cons.mpr ⟨hfree, hm⟩

/-- A handler is flushed only if it is not at work. -/
theorem Apart.callFlush (hm : m.Apart) (h : HandlerId) : (m.callFlush h).Apart := by
  unfold Machine.callFlush
  split
  · exact hm
  · split
    · exact hm
    · next hfree => split <;> exact List.nodup_cons.mpr ⟨hfree, hm⟩

/-- A sink that goes on stays where it is or leaves the stack. -/
theorem active_goOn (s : Store) (h : HandlerId) (rest : List Activation) (task : Task) :
    (goOn s h rest task).active = h :: rest.map Activation.handler ∨
      (goOn s h rest task).active = rest.map Activation.handler := by
  unfold goOn
  split
  · exact .inr rfl
  · exact .inr rfl
  · exact .inl rfl
  · next r? _ _ =>
    refine .inr ?_
    cases r? <;> rfl

/-- **A step calls no sink that is at work.** -/
theorem Apart.step (hm : m.Apart) (hstep : m.step? = some m') : m'.Apart := by
  obtain ⟨s, stack, control⟩ := m
  cases control with
  | handle h r =>
    obtain rfl : Machine.callHandle ⟨s, stack, .handle h r⟩ h r = m' := Option.some.inj hstep
    exact hm.callHandle h r
  | flush h =>
    obtain rfl : Machine.callFlush ⟨s, stack, .flush h⟩ h = m' := Option.some.inj hstep
    exact hm.callFlush h
  | resume =>
    cases stack with
    | nil => cases hstep
    | cons a rest =>
      obtain rfl : goOn s a.handler rest a.task = m' := Option.some.inj hstep
      rcases active_goOn s a.handler rest a.task with hsame | hless
      · exact (congrArg List.Nodup hsame).mpr hm
      · exact (congrArg List.Nodup hless).mpr (List.nodup_cons.mp hm).2
  | handled accepted r =>
    cases stack with
    | nil => cases hstep
    | cons a rest =>
      cases hstep
      exact hm
  | flushed result =>
    cases stack with
    | nil => cases hstep
    | cons a rest =>
      cases hstep
      exact hm

/-- Along a run no sink is at work twice. -/
theorem Apart.runs (hm : m.Apart) (h : Runs m m') : m'.Apart := by
  induction h with
  | refl => exact hm
  | tail _ hstep ih => exact ih.step hstep

end Machine

/-! ## Every call returns -/

/-- Handlers that are set up in the same way are as many. -/
theorem Kept.everyone_eq {s s' : Store} (h : Kept s s') : s'.everyone = s.everyone := by
  have hnone : ∀ k : HandlerId, s'.handlers.size ≤ k ↔ s.handlers.size ≤ k := by
    intro k
    rw [← Array.getElem?_eq_none_iff, ← Array.getElem?_eq_none_iff,
      ← Option.map_eq_none_iff (f := Handler.settings), h k, Option.map_eq_none_iff]
  have hsize : s'.handlers.size = s.handlers.size :=
    Nat.le_antisymm ((hnone _).mpr (Nat.le_refl _)) ((hnone _).mp (Nat.le_refl _))
  rw [everyone, everyone, hsize]

/-- The handlers whose sinks are not at work. -/
def atRest (s : Store) (stack : List Activation) : List HandlerId :=
  s.everyone.filter fun k => k ∉ stack.map Activation.handler

/-- A handler that goes to work is no longer at rest, and all others are as they were. -/
theorem atRest_cons (s : Store) (a : Activation) (stack : List Activation) :
    s.atRest (a :: stack) = others (s.atRest stack) a.handler := by
  unfold atRest others
  rw [List.filter_filter]
  refine List.filter_congr fun k _ => ?_
  simp only [List.map_cons, List.mem_cons, not_or, Bool.decide_and]

/-- While nothing is at work everyone is at rest. -/
theorem atRest_nil (s : Store) : s.atRest [] = s.everyone := by
  unfold atRest
  exact List.filter_eq_self.mpr fun k _ => decide_eq_true List.not_mem_nil

/-- A handler of the store is at rest unless it is at work. -/
theorem mem_atRest {s : Store} {h : HandlerId} {handler : Handler} {stack : List Activation}
    (hh : s.handlers[h]? = some handler) :
    h ∈ s.atRest stack ↔ h ∉ stack.map Activation.handler := by
  have hmem : h ∈ s.everyone := mem_everyone hh
  simp only [atRest, List.mem_filter, hmem, true_and, decide_eq_true_eq]

/-- Who is at rest depends on who there is. -/
theorem Kept.atRest_eq {s s' : Store} (h : Kept s s') (stack : List Activation) :
    s'.atRest stack = s.atRest stack := by
  unfold atRest
  rw [h.everyone_eq]

namespace Machine

variable {s : Store} {h : HandlerId} {stack : List Activation}

/-- A memory sink hands on all its records and returns, if each record that it hands on
    comes back from its target. -/
theorem runs_forward (r? : Option Record) (idle : List HandlerId)
    (job : Option (HandlerId × List Record))
    (hone : ∀ s' target r rs, Kept s s' →
      Runs ⟨s', ⟨h, .forward r? (some (target, rs))⟩ :: stack, .handle target r⟩
        ⟨(s'.handle idle target r).2.2, ⟨h, .forward r? (some (target, rs))⟩ :: stack,
          .handled (s'.handle idle target r).1 (s'.handle idle target r).2.1⟩) :
    Runs ⟨s, ⟨h, .forward r? job⟩ :: stack, .resume⟩ (finish (s.forward idle job) h stack r?) := by
  cases job with
  | none => exact Runs.head rfl (Runs.refl _)
  | some job =>
    obtain ⟨target, records⟩ := job
    -- The store changes with each record, so the induction is for every store as it may be.
    suffices hall : ∀ s', Kept s s' →
        Runs ⟨s', ⟨h, .forward r? (some (target, records))⟩ :: stack, .resume⟩
          (finish (s'.forward idle (some (target, records))) h stack r?) from
      hall s (Kept.refl s)
    induction records with
    | nil => exact fun s' _ => Runs.head rfl (Runs.refl _)
    | cons r rs ih =>
      intro s' hkept
      have hnext : Kept s (s'.handle idle target r).2.2 :=
        hkept.trans (s'.frame_handle idle target r).kept
      have hcall := hone s' target r rs hkept
      have hrest := ih (s'.handle idle target r).2.2 hnext
      refine Runs.head rfl (hcall.trans (Runs.head rfl ?_))
      exact hrest

/-- **A handler that is given a record returns**, with what `handle` computes for the
    handlers that are not at work. -/
theorem runs_handle (s : Store) (stack : List Activation) (h : HandlerId) (r : Record) :
    Runs ⟨s, stack, .handle h r⟩
      ⟨(s.handle (s.atRest stack) h r).2.2, stack,
        .handled (s.handle (s.atRest stack) h r).1 (s.handle (s.atRest stack) h r).2.1⟩ := by
  induction hn : (s.atRest stack).length using Nat.strongRecOn generalizing s stack h r with
  | _ n ih =>
    refine Runs.head rfl ?_
    rw [handle_eq, callHandle]
    cases hh : s.handlers[h]? with
    | none => exact Runs.refl _
    | some handler =>
      have hscreen := (frame_screen handler.filters r s).kept
      dsimp only
      rcases hasked : screen handler.filters r s with ⟨_ | _, r', s'⟩
      · exact Runs.refl _
      · rw [hasked] at hscreen
        dsimp only at hscreen ⊢
        by_cases hbusy : h ∈ active ⟨s, stack, .handle h r⟩
        · have hrest : h ∉ s.atRest stack := fun hin => (mem_atRest hh).mp hin hbusy
          rw [if_neg hrest, if_pos hbusy]
          exact Runs.refl _
        · have hrest : h ∈ s.atRest stack := (mem_atRest hh).mpr hbusy
          rw [if_pos hrest, if_neg hbusy]
          cases handler.sink with
          | memory sink =>
            dsimp only
            have hset : Kept s (s'.setSink h (.memory (sink.receive r').2)) :=
              hscreen.trans (kept_setSink s' h _)
            refine runs_forward (some r') _ _ fun t target r rs ht => ?_
            have hothers : t.atRest (⟨h, .forward (some r') (some (target, rs))⟩ :: stack) =
                others (s.atRest stack) h := by
              rw [atRest_cons, (hset.trans ht).atRest_eq]
            -- The handler is at work now, so there are fewer at rest.
            have hless : (others (s.atRest stack) h).length < n := hn ▸ length_others_lt hrest
            have hreturn := ih _ hless t
              (⟨h, .forward (some r') (some (target, rs))⟩ :: stack) target r
              (congrArg List.length hothers)
            rwa [hothers] at hreturn
          | _ => exact Runs.head rfl (Runs.refl _)

/-- **A handler that is flushed returns**, with what `flush` computes. -/
theorem runs_flush (s : Store) (h : HandlerId) :
    Runs ⟨s, [], .flush h⟩ ⟨(s.flush h).2, [], .flushed (s.flush h).1⟩ := by
  refine Runs.head rfl ?_
  rw [Store.flush, callFlush]
  cases s.handlers[h]? with
  | none => exact Runs.refl _
  | some handler =>
    dsimp only
    have hfree : h ∉ active ⟨s, [], .flush h⟩ := List.not_mem_nil
    rw [if_neg hfree]
    cases handler.sink with
    | memory sink =>
      dsimp only
      refine runs_forward none _ _ fun t target r rs ht => ?_
      have hothers : t.atRest [⟨h, .forward none (some (target, rs))⟩] = others s.everyone h := by
        rw [atRest_cons, ((kept_setSink s h _).trans ht).atRest_eq, atRest_nil]
      have hreturn := runs_handle t [⟨h, .forward none (some (target, rs))⟩] target r
      rwa [hothers] at hreturn
    | _ => exact Runs.head rfl (Runs.refl _)

end Machine

/-! ## No way round -/

/-- What a handler of the store is asked from outside. -/
inductive Errand where
  | handle (r : Record)
  | flush

namespace Errand

/-- The machine at the beginning: nothing is at work. -/
def start (s : Store) (h : HandlerId) : Errand → Machine
  | handle r => { store := s, stack := [], control := .handle h r }
  | flush => { store := s, stack := [], control := .flush h }

/-- The machine at the end, as the store computes it. -/
def answered (s : Store) (h : HandlerId) : Errand → Machine
  | handle r =>
    { store := (s.deliver h r).2.2, stack := [],
      control := .handled (s.deliver h r).1 (s.deliver h r).2.1 }
  | flush => { store := (s.flush h).2, stack := [], control := .flushed (s.flush h).1 }

variable (s : Store) (h : HandlerId) (q : Errand)

/-- At the beginning nothing is at work. -/
theorem apart_start : (q.start s h).Apart := by
  cases q <;> exact List.nodup_nil

/-- At the end there is nothing left to do. -/
theorem step?_answered : (q.answered s h).step? = none := by
  cases q <;> rfl

/-- From the beginning the machine comes to the end. -/
theorem runs_answered : (q.start s h).Runs (q.answered s h) := by
  cases q with
  | handle r =>
    have hrun := Machine.runs_handle s [] h r
    rwa [atRest_nil] at hrun
  | flush => exact Machine.runs_flush s h

end Errand

/-- A record that its filters accept and whose handler is at work is counted as dropped
    there, and no sink is touched. -/
theorem Machine.callHandle_active {m : Machine} {k : HandlerId} {r : Record} {handler : Handler}
    (hk : m.store.handlers[k]? = some handler)
    (haccepts : (screen handler.filters r m.store).1 = true) (hactive : k ∈ m.active) :
    ∃ s', m.callHandle k r =
        { store := s', stack := m.stack,
          control := .handled true (screen handler.filters r m.store).2.1 } ∧
      s'.handlers = m.store.handlers.modify k (·.count .dropped) ∧
      s'.world = m.store.world ∧ s'.queues = m.store.queues := by
  refine ⟨(screen handler.filters r m.store).2.2.count k .dropped, ?_, ?_,
    world_screen _ _ _, queues_screen _ _ _⟩
  · unfold callHandle
    rw [hk]
    dsimp only
    rcases hasked : screen handler.filters r m.store with ⟨accepted, r', s'⟩
    rw [hasked] at haccepts
    subst haccepts
    dsimp only
    rw [if_pos hactive]
  · unfold count modify
    rw [handlers_screen]

/-- **Handler graphs do not loop.**  Whatever handlers there are, wherever their memory
    sinks lead and whatever these have kept: a handler that is given a record or flushed
    returns, on the only way that there is, with what `deliver` or `flush` computes.  On
    the way no sink is at work twice.  A handler that is given a record while it is at
    work, and whose filters accept it, counts it as dropped, changes nothing of any sink,
    of the world or of any queue, and answers that it accepted it. -/
theorem handler_graph_returns (s : Store) (h : HandlerId) (q : Errand) :
    (q.answered s h).step? = none ∧
      (∀ m, (q.start s h).Runs m → m.Runs (q.answered s h)) ∧
      (∀ m, (q.start s h).Runs m → m.active.Nodup) ∧
      ∀ m k r handler, (q.start s h).Runs m → m.control = .handle k r →
        m.store.handlers[k]? = some handler →
        (screen handler.filters r m.store).1 = true → k ∈ m.active →
        ∃ s', m.step? =
            some { store := s', stack := m.stack,
                   control := .handled true (screen handler.filters r m.store).2.1 } ∧
          s'.handlers = m.store.handlers.modify k (·.count .dropped) ∧
          s'.world = m.store.world ∧ s'.queues = m.store.queues := by
  have hstop := q.step?_answered s h
  refine ⟨hstop, ?_, ?_, ?_⟩
  · intro m hm
    exact hm.through (q.runs_answered s h) hstop
  · intro m hm
    exact (q.apart_start s h).runs hm
  · intro m k r handler _ hcontrol hk haccepts hactive
    obtain ⟨s', hcall, hrest⟩ := Machine.callHandle_active hk haccepts hactive
    refine ⟨s', ?_, hrest⟩
    unfold Machine.step?
    rw [hcontrol, ← hcall]

/-- Two memory sinks that lead to each other: the record comes round to the first, is
    counted as dropped there, and everything returns. -/
theorem handler_graph_returns_two_cycle :
    let s : Store :=
      { origin := Inhabited.default,
        handlers := #[{ sink := .memory { capacity := 1, target? := some 1 } },
          { sink := .memory { capacity := 1, target? := some 0 } }] }
    let r : Record := Record.simple "app" Level.info "m" Inhabited.default
    ∃ m, (Errand.start s 0 (.handle r)).Runs m ∧ m.control = .handle 0 r ∧ m.active = [1, 0] ∧
      (∃ s', m.step? = some { store := s', stack := m.stack, control := .handled true r } ∧
        s'.handlers = m.store.handlers.modify 0 (·.count .dropped)) ∧
      m.Runs (Errand.answered s 0 (.handle r)) ∧
      (s.deliver 0 r).2.2.handlers.toList.map (fun x => (x.metrics.emitted, x.metrics.dropped)) =
        [(1, 1), (1, 0)] := by
  intro s r
  -- The first goes to work and calls the second, which does the same.
  obtain ⟨m, hruns, hcontrol, hactive, handler, hfound, hnofilter⟩ :
      ∃ m, (Errand.start s 0 (.handle r)).Runs m ∧ m.control = .handle 0 r ∧
        m.active = [1, 0] ∧
        ∃ handler, m.store.handlers[0]? = some handler ∧ handler.filters = [] :=
    ⟨_, .head rfl (.head rfl (.head rfl (.head rfl (.refl _)))), rfl, rfl, _, rfl, rfl⟩
  obtain ⟨-, hreturns, -, hdropped⟩ := handler_graph_returns s 0 (.handle r)
  have haccepts : screen handler.filters r m.store = (true, r, m.store) := by
    rw [hnofilter]
    rfl
  have hback : 0 ∈ m.active := by simp only [hactive, List.mem_cons, true_or, or_true]
  obtain ⟨s', hstep, hcounted, -⟩ :=
    hdropped m 0 r handler hruns hcontrol hfound (by rw [haccepts]) hback
  rw [haccepts] at hstep
  exact ⟨m, hruns, hcontrol, hactive, ⟨s', hstep, hcounted⟩, hreturns m hruns,
    by decide +kernel⟩

end Store

end Logbook
