import Logbook.Proofs.Delivery.Screening
import Logbook.Proofs.Delivery.Sinks
import Mathlib.Logic.Relation

/-! # What handlers do to the store

    Whatever becomes of a record, the store changes in three ways only: around the
    handlers, as the world does or the number of times that a filter was asked; in a
    queue, which takes a record; or in the handler that is at work, which is the same
    handler afterwards.

    * **Each sink takes such steps**, of its own handler alone.
    * **Handling takes such steps**, of handlers to which a chain of targets leads.

    So what each of the three ways keeps, a record keeps, wherever it goes.
-/

namespace Logbook

/-- What a handler is set up with: everything but its sink, its counters and whether
    it is closed. -/
def Handler.settings (h : Handler) : Handler :=
  { h with sink := .null, metrics := {}, closed := false }

/-- What a handler is known by: its settings, whoever holds it, and the name of its sink. -/
def Handler.identity (h : Handler) : Handler × String :=
  ({ h.settings with released := false }, h.sink.name)

namespace Handler

/-- **Remains**: a handler is set up as it was, its sink has the same name and the same
    target, and it is closed if it was. -/
structure Remains (x y : Handler) : Prop where
  settings : y.settings = x.settings
  name : y.sink.name = x.sink.name
  target : y.sink.target? = x.sink.target?
  closed : x.closed = true → y.closed = true

/-- **Lasts**: a handler is known by the same, it has no target that it had not, and it is
    closed if it was. -/
structure Lasts (x y : Handler) : Prop where
  identity : y.identity = x.identity
  target : ∀ t, y.sink.target? = some t → x.sink.target? = some t
  closed : x.closed = true → y.closed = true

variable {x y z : Handler}

theorem Remains.refl (x : Handler) : x.Remains x := ⟨rfl, rfl, rfl, id⟩

theorem Remains.trans (h : x.Remains y) (h' : y.Remains z) : x.Remains z :=
  ⟨h'.settings.trans h.settings, h'.name.trans h.name, h'.target.trans h.target,
    h'.closed ∘ h.closed⟩

theorem Lasts.refl (x : Handler) : x.Lasts x := ⟨rfl, fun _ => id, id⟩

theorem Lasts.trans (h : x.Lasts y) (h' : y.Lasts z) : x.Lasts z :=
  ⟨h'.identity.trans h.identity, fun t ht => h.target t (h'.target t ht), h'.closed ∘ h.closed⟩

theorem Remains.lasts (h : x.Remains y) : x.Lasts y where
  identity := by rw [identity, identity, h.settings, h.name]
  target t ht := h.target ▸ ht
  closed := h.closed

end Handler

namespace Store

variable {C C' : Handler → Handler → Prop} {P : HandlerId → Prop} {s s' s'' : Store}
  {h k : HandlerId} {x : Handler}

/-! ## Handlers of the store -/

/-- A handler of the store is one of all. -/
theorem mem_everyone (hk : s.handlers[k]? = some x) : k ∈ s.everyone :=
  List.mem_range.mpr (Array.getElem?_eq_some_iff.mp hk).1

/-- The handler that is changed. -/
theorem handlers_modify (hk : s.handlers[k]? = some x) (f : Handler → Handler) :
    (s.modify k f).handlers[k]? = some (f x) := by
  rw [modify, Array.getElem?_modify, if_pos rfl, hk]
  rfl

/-! ## Steps -/

/-- **Step**: one of the three ways in which a handler changes the store.  What may become
    of the handler itself is left open. -/
inductive Step (C : Handler → Handler → Prop) (h : HandlerId) : Store → Store → Prop where
  | around {s s' : Store} (hhandlers : s'.handlers = s.handlers) (htests : s'.tests = s.tests)
      (hqueues : s'.queues = s.queues) : Step C h s s'
  | put {s : Store} {q : QueueId} {queue : LogQueue} {r : Record}
      (hput : (s.queueAt q).put (.record r) = .ok queue) : Step C h s (s.setQueue q queue)
  | change {s : Store} {f : Handler → Handler}
      (hf : ∀ x, s.handlers[h]? = some x → C x (f x)) : Step C h s (s.modify h f)

/-- **Steps**: one after the other, each of a handler of which something is true. -/
def Steps (C : Handler → Handler → Prop) (P : HandlerId → Prop) : Store → Store → Prop :=
  Relation.ReflTransGen fun s s' => ∃ h, P h ∧ Step C h s s'

namespace Step

/-- Another handler is as it was. -/
theorem handler_of_ne (hstep : Step C h s s') (hne : h ≠ k) : s'.handlers[k]? = s.handlers[k]? := by
  cases hstep with
  | around hhandlers => rw [hhandlers]
  | put => rfl
  | change => rw [Store.modify, Array.getElem?_modify, if_neg hne]

/-- A handler of the store is one that became of it. -/
theorem handler (hrefl : ∀ x, C x x) (hstep : Step C h s s') (hk : s.handlers[k]? = some x) :
    ∃ y, s'.handlers[k]? = some y ∧ C x y := by
  by_cases hne : h = k
  · subst hne
    cases hstep with
    | around hhandlers => exact ⟨x, hhandlers ▸ hk, hrefl x⟩
    | put => exact ⟨x, hk, hrefl x⟩
    | change hf => exact ⟨_, handlers_modify hk _, hf x hk⟩
  · exact ⟨x, (hstep.handler_of_ne hne).trans hk, hrefl x⟩

/-- No handler comes or goes. -/
theorem size (hstep : Step C h s s') : s'.handlers.size = s.handlers.size := by
  cases hstep with
  | around hhandlers => rw [hhandlers]
  | put => rfl
  | change => exact Array.size_modify

/-- The filters test what they tested. -/
theorem tests (hstep : Step C h s s') : s'.tests = s.tests := by
  cases hstep with
  | around _ htests => exact htests
  | put | change => rfl

theorem mono (hC : ∀ x y, C x y → C' x y) (hstep : Step C h s s') : Step C' h s s' := by
  cases hstep with
  | around hhandlers htests hqueues => exact .around hhandlers htests hqueues
  | put hput => exact .put hput
  | change hf => exact .change fun x hx => hC x _ (hf x hx)

end Step

namespace Steps

theorem refl (s : Store) : Steps C P s s := Relation.ReflTransGen.refl

theorem trans (hs : Steps C P s s') (hs' : Steps C P s' s'') : Steps C P s s'' :=
  Relation.ReflTransGen.trans hs hs'

theorem one (hP : P h) (hstep : Step C h s s') : Steps C P s s' := .single ⟨h, hP, hstep⟩

/-- **What each step keeps, all keep**: by induction on the steps. -/
theorem keeps {R : Store → Store → Prop} (hrefl : ∀ s, R s s)
    (htrans : ∀ {s s' s''}, R s s' → R s' s'' → R s s'')
    (hone : ∀ {h s s'}, P h → Step C h s s' → R s s') (hs : Steps C P s s') : R s s' := by
  induction hs with
  | refl => exact hrefl _
  | tail _ hstep ih =>
    obtain ⟨h, hP, hstep⟩ := hstep
    exact htrans ih (hone hP hstep)

theorem mono (hC : ∀ x y, C x y → C' x y) (hs : Steps C P s s') : Steps C' P s s' :=
  hs.keeps refl trans fun hP hstep => one hP (hstep.mono hC)

/-- No handler comes or goes. -/
theorem size (hs : Steps C P s s') : s'.handlers.size = s.handlers.size :=
  hs.keeps (R := fun s s' => s'.handlers.size = s.handlers.size) (fun _ => rfl)
    (fun h h' => h'.trans h) fun _ hstep => hstep.size

/-- The filters test what they tested. -/
theorem tests (hs : Steps C P s s') : s'.tests = s.tests :=
  hs.keeps (R := fun s s' => s'.tests = s.tests) (fun _ => rfl) (fun h h' => h'.trans h)
    fun _ hstep => hstep.tests

/-- A handler of the store is one that became of it. -/
theorem handler (hrefl : ∀ x, C x x) (htrans : ∀ {x y z}, C x y → C y z → C x z)
    (hs : Steps C P s s') (hk : s.handlers[k]? = some x) :
    ∃ y, s'.handlers[k]? = some y ∧ C x y := by
  refine hs.keeps (R := fun s s' => ∀ x, s.handlers[k]? = some x →
    ∃ y, s'.handlers[k]? = some y ∧ C x y) (fun _ x hx => ⟨x, hx, hrefl x⟩) ?_ ?_ x hk
  · intro s s' s'' h h' x hx
    obtain ⟨y, hy, hxy⟩ := h x hx
    obtain ⟨z, hz, hyz⟩ := h' y hy
    exact ⟨z, hz, htrans hxy hyz⟩
  · exact fun _ hstep x hx => hstep.handler hrefl hx

end Steps

/-! ## Targets -/

/-- The target of a handler is that of its sink. -/
theorem targetOf?_eq (s : Store) (k : HandlerId) :
    s.targetOf? k = (s.handlers[k]?.map Handler.sink).bind Sink.target? := by
  unfold targetOf?
  cases s.handlers[k]? with
  | none => rfl
  | some x =>
    cases hsink : x.sink <;> simp [hsink, Sink.target?]

theorem targetOf?_memory {m : MemorySink} (hk : s.handlers[k]? = some x)
    (hsink : x.sink = .memory m) : s.targetOf? k = m.target? := by
  rw [targetOf?, hk]
  simp [hsink]

/-- A handler has no target that it had not. -/
theorem Steps.target {t : HandlerId} (hs : Steps Handler.Lasts P s s')
    (ht : s'.targetOf? k = some t) : s.targetOf? k = some t := by
  rw [targetOf?_eq] at ht ⊢
  cases hk : s.handlers[k]? with
  | none =>
    have hsize : s'.handlers.size ≤ k := hs.size ▸ Array.getElem?_eq_none_iff.mp hk
    rw [Array.getElem?_eq_none hsize] at ht
    cases ht
  | some x =>
    obtain ⟨y, hy, hlasts⟩ := hs.handler .refl .trans hk
    rw [hy] at ht
    exact hlasts.target t ht

/-- **Encloses**: no target leads out of some handlers. -/
def Encloses (P : HandlerId → Prop) (s : Store) : Prop :=
  ∀ k t, P k → s.targetOf? k = some t → P t

theorem Encloses.steps {Q : HandlerId → Prop} (henc : s.Encloses Q)
    (hs : Steps Handler.Lasts P s s') : s'.Encloses Q :=
  fun k t hk ht => henc k t hk (hs.target ht)

/-! ## One sink -/

theorem steps_screen (hP : P h) (filters : List FilterId) (r : Record) (s : Store) :
    Steps C P s (screen filters r s).2.2 :=
  .one hP (.around (handlers_screen filters r s) (tests_screen filters r s)
    (queues_screen filters r s))

section Sinks

variable (s : Store) (r : Record) (hP : P h)

include hP

/-- A sink of the same name and target. -/
theorem steps_setSink {sink : Sink} (hh : s.handlers[h]? = some x) (hname : sink.name = x.sink.name)
    (htarget : sink.target? = x.sink.target?) :
    Steps Handler.Remains P s (s.setSink h sink) := by
  refine .one hP (.change fun y hy => ?_)
  obtain rfl : x = y := Option.some.inj (hh.symm.trans hy)
  exact ⟨rfl, hname, htarget, id⟩

omit r in
theorem steps_count (f : Fate) : Steps Handler.Remains P s (s.count h f) :=
  .one hP (.change fun _ _ => ⟨rfl, rfl, rfl, id⟩)

omit r in
theorem steps_mark : Steps Handler.Remains P s (s.modify h ({ · with closed := true })) :=
  .one hP (.change fun _ _ => ⟨rfl, rfl, rfl, fun _ => rfl⟩)

omit r in
theorem steps_note (line : String) : Steps Handler.Remains P s (s.note h line) := by
  refine .one hP (.change fun x _ => ?_)
  split
  · next p hsink =>
    refine ⟨rfl, ?_, ?_, id⟩
    · rw [hsink]
      rfl
    · rw [hsink]
      rfl
  · exact .refl x

theorem steps_emitText (hh : s.handlers[h]? = some x) :
    Steps Handler.Remains P s (s.emitText h x r).2.2 := by
  unfold emitText
  split
  · exact .refl s
  · next text _ =>
    have hworld : Steps Handler.Remains P s { s with world := (x.sink.writeText text s.world).2.2 } :=
      .one hP (.around rfl rfl rfl)
    exact hworld.trans (steps_setSink _ hP hh (x.sink.name_writeText text s.world)
      (x.sink.target?_writeText text s.world))

theorem steps_emitQueued {sink : QueueSink} (hh : s.handlers[h]? = some x)
    (hsink : x.sink = .queue sink) : Steps Handler.Remains P s (s.emitQueued h x sink r).2.2 := by
  unfold emitQueued
  split
  · exact .refl s
  · dsimp only
    split
    · next hput => exact .one hP (.put hput)
    · exact steps_setSink s hP hh (by rw [hsink]; rfl) (by rw [hsink]; rfl)

theorem steps_handleAtWork : Steps Handler.Remains P s (s.handleAtWork h x r).2.2 := by
  have hscreen := steps_screen (C := Handler.Remains) hP x.filters r s
  unfold handleAtWork
  split <;> next heq =>
    rw [heq] at hscreen
    exact hscreen.trans (steps_count _ hP _)

omit r in
theorem steps_closeAtWork : Steps Handler.Remains P s (s.closeAtWork h x).2 := by
  unfold closeAtWork
  split
  · exact .refl s
  · exact steps_mark s hP

theorem steps_callOwn (c : OwnCall) : Steps Handler.Remains P s (s.callOwn h x r c).2 := by
  cases c with
  | handle => exact (steps_handleAtWork s r hP).trans (steps_note _ hP _)
  | close => exact (steps_closeAtWork s hP).trans (steps_note _ hP _)
  | format | name | flush | reachSink => exact steps_note s hP _

theorem steps_emitProbe (p : Probe) : Steps Handler.Remains P s (s.emitProbe h x p r).2.2 := by
  unfold emitProbe
  split
  · dsimp only
    split
    · exact .refl s
    · exact steps_note s hP _
  · exact .refl s
  · exact .refl s
  · exact .refl s
  · exact steps_callOwn s r hP _

/-- **Each sink takes steps of its own handler**, whatever it does with the record. -/
theorem steps_emit (hh : s.handlers[h]? = some x) :
    Steps Handler.Remains P s (s.emit h x r).2.2 := by
  unfold emit
  split
  · exact .refl s
  · exact .refl s
  · exact steps_emitText s r hP hh
  · exact steps_emitText s r hP hh
  · exact steps_emitText s r hP hh
  · next hsink => exact steps_emitQueued s r hP hh hsink
  · exact steps_emitProbe s r hP _

/-- Counting a result, a failure or a panic among them. -/
theorem steps_settle (result : Except LogError Delivery) :
    Steps Handler.Remains P s (s.settle h r result) := by
  unfold settle
  split
  · exact (steps_count s hP .failed).trans (.one hP (.around rfl rfl rfl))
  · exact steps_count s hP _

/-- A memory sink that is given a record keeps its target. -/
theorem steps_receive {sink : MemorySink} (hh : s.handlers[h]? = some x)
    (hsink : x.sink = .memory sink) :
    Steps Handler.Remains P s (s.setSink h (.memory (sink.receive r).2)) := by
  refine steps_setSink s hP hh ?_ ?_
  · rw [hsink]
    rfl
  · rw [hsink]
    exact sink.target?_receive r

end Sinks

/-! ## Handling -/

/-- Handling, with one case for a memory sink. -/
theorem handle_eq (s : Store) (idle : List HandlerId) (k : HandlerId) (r : Record) :
    s.handle idle k r =
      match s.handlers[k]? with
      | none => (true, r, s)
      | some handler =>
        match screen handler.filters r s with
        | (false, r, s) => (false, r, s.count k .filtered)
        | (true, r, s) =>
          if k ∈ idle then
            match handler.sink with
            | .memory sink =>
              (true, r, ((s.setSink k (.memory (sink.receive r).2)).forward (others idle k)
                (sink.receive r).1).count k .emitted)
            | _ =>
              (true, (s.emit k handler r).2.1,
                (s.emit k handler r).2.2.settle k (s.emit k handler r).2.1 (s.emit k handler r).1)
          else (true, r, s.count k .dropped) := by
  rw [handle]
  cases s.handlers[k]? with
  | none => rfl
  | some handler =>
    dsimp only
    rcases screen handler.filters r s with ⟨_ | _, r', s'⟩
    · rfl
    · dsimp only
      split
      · cases handler.sink with
        | memory sink =>
          dsimp only
          unfold MemorySink.receive
          split
          · split <;> next hdrain => rw [hdrain]; rfl
          · rfl
        | _ => rfl
      · rfl

/-- Records that are handed on one by one take the steps that each of them takes. -/
theorem steps_forward_of {idle : List HandlerId} {job : Option (HandlerId × List Record)}
    (hone : ∀ s t r, P t → s.Encloses P → Steps Handler.Remains P s (s.handle idle t r).2.2)
    (henc : s.Encloses P) (hjob : ∀ t records, job = some (t, records) → P t) :
    Steps Handler.Remains P s (s.forward idle job) := by
  cases job with
  | none => exact .refl s
  | some job =>
    obtain ⟨t, records⟩ := job
    have hP := hjob t records rfl
    unfold forward
    clear hjob
    induction records generalizing s with
    | nil => exact .refl s
    | cons r rs ih =>
      have hfirst := hone s t r hP henc
      exact hfirst.trans (ih (henc.steps (hfirst.mono fun _ _ h => h.lasts)))

/-- **Handling takes such steps**, of the handler and of those to which its targets lead: by
    induction on the number of handlers that are not at work, since a record is only handed
    on to others. -/
theorem steps_handle (idle : List HandlerId) (s : Store) (r : Record) (hP : P k)
    (henc : s.Encloses P) : Steps Handler.Remains P s (s.handle idle k r).2.2 := by
  induction hn : idle.length using Nat.strongRecOn generalizing idle s k r with
  | _ n ih =>
    rw [handle_eq]
    split
    · exact .refl s
    · next handler hk =>
      have hscreen := steps_screen (C := Handler.Remains) hP handler.filters r s
      have hhandlers := handlers_screen handler.filters r s
      split
      · next r' s' heq =>
        rw [heq] at hscreen
        exact hscreen.trans (steps_count s' hP _)
      · next r' s' heq =>
        rw [heq] at hscreen hhandlers
        have hk' : s'.handlers[k]? = some handler := hhandlers ▸ hk
        refine hscreen.trans ?_
        split
        · next hmem =>
          -- The handler is at work now, and records go to the others only.
          have hless : (others idle k).length < n := hn ▸ length_others_lt hmem
          split
          · next sink hsink =>
            have hset := steps_receive s' r' hP hk' hsink
            have henc' := henc.steps ((hscreen.trans hset).mono fun _ _ h => h.lasts)
            have hjob : ∀ t records, (sink.receive r').1 = some (t, records) → P t :=
              fun t _ hjob => henc k t hP ((targetOf?_memory hk hsink).trans (sink.target_of_receive hjob))
            have hforward := steps_forward_of (fun s t r hP henc => ih _ hless _ s r hP henc rfl)
              henc' hjob
            exact (hset.trans hforward).trans (steps_count _ hP _)
          · -- Every other sink writes, drops, fails or panics, and is settled.
            exact (steps_emit s' r' hP hk').trans (steps_settle _ _ hP _)
        · exact steps_count s' hP _

theorem steps_forward (idle : List HandlerId) {job : Option (HandlerId × List Record)}
    (henc : s.Encloses P) (hjob : ∀ t records, job = some (t, records) → P t) :
    Steps Handler.Remains P s (s.forward idle job) :=
  steps_forward_of (fun s _ r => steps_handle idle s r) henc hjob

/-- What each step keeps, a record keeps, wherever it goes. -/
theorem handle_keeps {R : Store → Store → Prop} (hrefl : ∀ s, R s s)
    (htrans : ∀ {s s' s''}, R s s' → R s' s'' → R s s'')
    (hone : ∀ {h s s'}, Step Handler.Remains h s s' → R s s') (idle : List HandlerId) (s : Store)
    (h : HandlerId) (r : Record) : R s (s.handle idle h r).2.2 :=
  (steps_handle (P := fun _ => True) idle s r trivial fun _ _ _ _ => trivial).keeps hrefl htrans
    fun _ => hone

end Store

end Logbook
