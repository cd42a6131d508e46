import Logbook.Proofs.Delivery.Keeping

/-! # Records that wait in memory

    A memory sink loses no record and makes none up: what its targets were handed, with
    what still waits, is what it was given, in that order.  With one target from the start
    it never keeps more than its capacity allows, and nothing as severe as its flush level;
    and once it is flushed, everyone else has seen what they would have seen if each record
    had gone to the target at once.
-/

namespace Logbook

namespace Store

open Act MemorySink

variable {s s₀ : Store} {h k : HandlerId} {r : Record} {q : Request} {x : Handler} {m m₀ : MemorySink}

/-! ## The acts of a request -/

/-- The store after a request. -/
def request (s : Store) (h : HandlerId) : Request → Store
  | .emit r => (s.deliver h r).2.2
  | .flush => (s.flush h).2
  | .setTarget target? => (s.setTarget h target?).2

/-- The memory sink of a handler. -/
def memoryOf? (s : Store) (h : HandlerId) : Option MemorySink :=
  match s.handlers[h]?.map Handler.sink with
  | some (.memory m) => some m
  | _ => none

theorem memoryOf?_eq (hx : s.handlers[h]? = some x) (hm : x.sink = .memory m) :
    s.memoryOf? h = some m := by
  rw [memoryOf?, hx, Option.map_some, hm]

/-- The record that is left of one when the filters of a handler have accepted it. -/
def accepted? (s : Store) (h : HandlerId) (r : Record) : Option Record :=
  match screen (s.filtersOf h) r s with
  | (true, r, _) => some r
  | (false, _, _) => none

/-- What a handler with a memory sink does on a request. -/
def actsOn (s : Store) (h : HandlerId) (q : Request) : List Act :=
  match s.memoryOf? h with
  | some m => m.acts (s.accepted? h) q
  | none => []

/-- Changes that do the same to the handler concerned. -/
theorem modify_congr {f g : Handler → Handler} (hx : s.handlers[h]? = some x) (hfg : f x = g x) :
    s.modify h f = s.modify h g := by
  have hhandlers : s.handlers.modify h f = s.handlers.modify h g := by
    refine Array.ext_getElem? fun i => ?_
    rw [Array.getElem?_modify, Array.getElem?_modify]
    split
    · next heq =>
      rw [← heq, hx]
      exact congrArg some hfg
    · rfl
  rw [modify, modify, hhandlers]

theorem modify_modify (s : Store) (h : HandlerId) (f g : Handler → Handler) :
    (s.modify h f).modify h g = s.modify h fun x => g (f x) := by
  have hhandlers : (s.handlers.modify h f).modify h g = s.handlers.modify h fun x => g (f x) := by
    refine Array.ext_getElem? fun i => ?_
    simp only [Array.getElem?_modify]
    split
    · rw [Option.map_map]
      rfl
    · rfl
  rw [modify, modify, modify, ← hhandlers]

/-- To set a sink is to change the memory sink that is there. -/
theorem modify_onMemory (hx : s.handlers[h]? = some x) (hm : x.sink = .memory m)
    (f : MemorySink → MemorySink) : s.modify h (Handler.onMemory f) = s.setSink h (.memory (f m)) := by
  refine modify_congr hx ?_
  simp [Handler.onMemory, hm]

theorem setSink_setSink (s : Store) (h : HandlerId) (a b : Sink) :
    (s.setSink h a).setSink h b = s.setSink h b := modify_modify s h _ _

/-- A change that leaves the handler concerned as it is. -/
theorem modify_same {f : Handler → Handler} (hx : s.handlers[h]? = some x) (hf : f x = x) :
    s.modify h f = s := by
  have hhandlers : s.handlers.modify h id = s.handlers := by
    refine Array.ext_getElem? fun i => ?_
    rw [Array.getElem?_modify]
    split
    · rw [Option.map_id_fun, id_eq]
    · rfl
  rw [modify_congr (g := id) hx hf, modify, hhandlers]

theorem setSink_self (hx : s.handlers[h]? = some x) (hm : x.sink = .memory m) :
    s.setSink h (.memory m) = s := by
  refine modify_same hx ?_
  rw [← hm]

/-- The handler with another sink. -/
theorem handlers_setSink (hx : s.handlers[h]? = some x) (sink : Sink) :
    (s.setSink h sink).handlers[h]? = some { x with sink } := handlers_modify hx _

theorem everyone_setSink (s : Store) (h : HandlerId) (sink : Sink) :
    (s.setSink h sink).everyone = s.everyone := (Changes.modify h s _).everyone

/-- A handler with another sink is not reached by more than before. -/
theorem far_setSink (hfar : ¬ s.Reaches k h) (sink : Sink) : ¬ (s.setSink h sink).Reaches k h :=
  fun hreach => hfar ((Changes.modify h s _).reaches k hreach)

/-- Records that are handed on one by one. -/
theorem perform_hand (hfar : ¬ s.Reaches k h) (records : List Record) :
    s.perform h (records.map (.hand k)) = s.forward (others s.everyone h) (some (k, records)) := by
  unfold perform forward
  dsimp only
  induction records generalizing s with
  | nil => rfl
  | cons r rs ih =>
    have hone := spares_handle (others s.everyone h) s r hfar
    have heveryone : (s.handle (others s.everyone h) k r).2.2.everyone = s.everyone :=
      (Changes.of_spares hone).everyone
    have hrest := ih (hone.far hfar)
    rw [heveryone] at hrest
    exact hrest

/-- To hand on what there is. -/
theorem perform_handing (hx : s.handlers[h]? = some x) (hm : x.sink = .memory m)
    (hfar : ∀ k, m.target? = some k → ¬ s.Reaches k h) :
    s.perform h m.handing =
      (s.setSink h (.memory m.drain.2)).forward (others s.everyone h) m.drain.1 := by
  cases htarget : m.target? with
  | none =>
    obtain ⟨hdrain, hhanding⟩ := drain_of_none htarget
    rw [hdrain, hhanding, setSink_self hx hm]
    rfl
  | some target =>
    obtain ⟨hdrain, hhanding⟩ := drain_of_some htarget
    have hempty : s.act h .empty = s.setSink h (.memory { m with buffer := [] }) :=
      modify_onMemory hx hm _
    rw [hdrain, hhanding]
    show (s.act h .empty).perform h _ = _
    rw [hempty, perform_hand (far_setSink (hfar target htarget) _), everyone_setSink]

/-- To keep a record, and to hand on what there is if that is due. -/
theorem perform_keeping (hx : s.handlers[h]? = some x) (hm : x.sink = .memory m)
    (hfar : ∀ k, m.target? = some k → ¬ s.Reaches k h) (r : Record) :
    s.perform h (m.keeping r) =
      (s.setSink h (.memory (m.receive r).2)).forward (others s.everyone h) (m.receive r).1 := by
  have hkeep : s.act h (.keep r) = s.setSink h (.memory (m.push r)) := modify_onMemory hx hm _
  unfold keeping receive
  show (s.act h (.keep r)).perform h _ = _
  rw [hkeep]
  split
  · have hhanding := perform_handing (m := m.push r) (handlers_setSink hx _) rfl
      fun k hk => far_setSink (hfar k hk) _
    rw [hhanding, setSink_setSink, everyone_setSink]
  · rfl

/-- To let go of handlers. -/
theorem perform_letGo (hs : Option HandlerId) :
    s.perform h (hs.toList.map .letGo) = s.letGoAll (others s.everyone h) hs.toList := by
  cases hs <;> rfl

/-- **What a request does**: the acts of the handler, one after the other. -/
theorem request_eq_perform (hx : s.handlers[h]? = some x) (hm : x.sink = .memory m)
    (hfar : ∀ k, m.target? = some k → ¬ s.Reaches k h) (q : Request) :
    s.request h q = s.perform h (s.actsOn h q) := by
  have hfilters : s.filtersOf h = x.filters := by
    rw [filtersOf, hx]
    rfl
  have hacts : s.actsOn h q = m.acts (s.accepted? h) q := by
    rw [actsOn, memoryOf?_eq hx hm]
  rw [hacts]
  cases q with
  | emit r =>
    have hidle : h ∈ s.everyone := mem_everyone hx
    have hask : s.act h (.ask r) = (screen x.filters r s).2.2 := by rw [act, hfilters]
    have hspares := Spares.screen h x.filters r s
    rw [request, deliver, handle_eq, hx]
    unfold accepted? acts
    dsimp only
    rw [hfilters]
    rcases hscreen : screen x.filters r s with ⟨_ | _, r', s'⟩
    · -- Rejected: the filters were asked and the call is counted, and that is all.
      show _ = (s.act h (.ask r)).act h (.count .filtered)
      rw [hask, hscreen]
      rfl
    · rw [hscreen] at hask hspares
      dsimp only
      -- Accepted: the filters have left the handler and what its target reaches as they were.
      rw [if_pos hidle, hm]
      have hkeeping := perform_keeping (hspares.handler.trans hx) hm
        (fun k hk => hspares.far (hfar k hk)) r'
      have heveryone : s'.everyone = s.everyone := (Changes.of_spares hspares).everyone
      show _ = (s.act h (.ask r)).perform h _
      rw [hask, perform_append, hkeeping, heveryone]
      rfl
  | flush =>
    rw [request, flush, hx]
    dsimp only
    rw [hm]
    exact (perform_handing hx hm hfar).symm
  | setTarget target? =>
    -- The new target is set first, and only then is the old one let go of.
    have haim : s.act h (.aim target?) = s.setSink h (.memory { m with target? }) :=
      modify_onMemory hx hm _
    rw [request, setTarget, hx, Option.map_some, hm]
    show _ = (s.act h (.aim target?)).perform h _
    rw [haim, perform_letGo, everyone_setSink]
    dsimp only
    cases m.target? with
    | none => rfl
    | some old =>
      dsimp only
      rw [everyone_setSink]
      rfl

/-- To forget the records and the target. -/
theorem perform_forget (hx : s.handlers[h]? = some x) (hm : x.sink = .memory m) :
    (s.act h .empty).act h (.aim none) = s.setSink h (.memory m.closed) := by
  refine (modify_modify s h _ _).trans (modify_congr hx ?_)
  simp [onHandler, Handler.onMemory, hm, closed]

/-- **What closing does**: the acts of the handler, one after the other. -/
theorem close_eq_perform (hx : s.handlers[h]? = some x) (hm : x.sink = .memory m)
    (hopen : x.closed = false) (hfar : ∀ k, m.target? = some k → ¬ s.Reaches k h) :
    s.close h = (.ok (), s.perform h m.closing) := by
  have hidle : h ∈ s.everyone := mem_everyone hx
  rw [close, closeAmong_memory hx hopen hidle hm]
  dsimp only
  -- The handler counts as closed before the sink hands anything on.
  have hmark := Changes.modify h s ({ · with closed := true })
  have hperform : s.perform h m.closing = (((s.modify h ({ · with closed := true })).perform h
      (if m.flushOnClose then m.handing else [])).perform h
        (.empty :: .aim none :: m.target?.toList.map .letGo)) := perform_append s h (.mark :: _) _
  have hx₁ : (s.modify h ({ · with closed := true })).handlers[h]? = some { x with closed := true } := by
    rw [hmark.handler, hx]
    rfl
  have hfar₁ : ∀ k, m.target? = some k → ¬ (s.modify h ({ · with closed := true })).Reaches k h :=
    fun k hk hreach => hfar k hk (hmark.reaches k hreach)
  rw [hperform, ← hmark.everyone]
  generalize s.modify h ({ · with closed := true }) = s₁ at hx₁ hfar₁
  have hhand : s₁.perform h (if m.flushOnClose then m.handing else []) =
      (s₁.setSink h (.memory m.finish.2)).forward (others s₁.everyone h) m.finish.1 := by
    unfold finish
    split
    · exact perform_handing hx₁ hm hfar₁
    · rw [setSink_self hx₁ hm]
      rfl
  -- Nothing but what waits has changed in the sink, and that is forgotten now.
  have hchanges : Changes h (allOnHandler (if m.flushOnClose then m.handing else [])) s₁
      (s₁.perform h (if m.flushOnClose then m.handing else [])) := by
    refine changes_perform ?_
    intro a ha k hk
    split at ha
    · exact hfar₁ k (concerns_handing ha hk)
    · cases ha
  obtain ⟨hsink, -, -⟩ := allOnHandler_eq (x := { x with closed := true })
    (if m.flushOnClose then m.handing else []) hm
  have hx₂ := hchanges.handler
  have heveryone := hchanges.everyone
  rw [hx₁, Option.map_some] at hx₂
  rw [← hhand]
  generalize s₁.perform h (if m.flushOnClose then m.handing else []) = s₂ at hx₂ heveryone
  have hforget := perform_forget hx₂ hsink
  rw [m.closed_finishing] at hforget
  have hlast : s₂.perform h (.empty :: .aim none :: m.target?.toList.map .letGo) =
      ((s₂.act h .empty).act h (.aim none)).perform h (m.target?.toList.map .letGo) := rfl
  rw [hlast, hforget, perform_letGo, everyone_setSink, heveryone]

/-! ## Runs -/

/-- **Served**: the handler of a memory sink was served requests, and did certain acts on
    the way.  No target that it was given led back to it. -/
inductive Served (h : HandlerId) (s₀ : Store) : List Request → List Act → Store → Prop where
  | start : Served h s₀ [] [] s₀
  | request {qs : List Request} {acts : List Act} {s : Store} (before : Served h s₀ qs acts s)
      (q : Request) (hfar : ∀ k ∈ q.concerns, ¬ s.Reaches k h) :
      Served h s₀ (qs ++ [q]) (acts ++ s.actsOn h q) (s.request h q)

/-- The records that a sink is given on requests, as the filters of its handler leave them. -/
def given (s₀ : Store) (h : HandlerId) (qs : List Request) : List Record :=
  qs.filterMap (Request.given? (s₀.accepted? h))

/-- **Waiting**: what holds of a memory sink all along. -/
structure Waiting (h : HandlerId) (s₀ : Store) (m₀ : MemorySink) (qs : List Request)
    (acts : List Act) (s : Store) (m : MemorySink) : Prop where
  handler : ∃ x, s.handlers[h]? = some x ∧ x.sink = .memory m ∧ x.closed = false ∧
    x.filters = s₀.filtersOf h
  tests : s.tests = s₀.tests
  far : ∀ k, m.target? = some k → ¬ s.Reaches k h
  settings : m = { m₀ with target? := m.target?, buffer := m.buffer }
  performed : s = s₀.perform h acts
  conserved : (handed acts).map Prod.snd ++ m.buffer = given s₀ h qs

variable {qs : List Request} {acts : List Act} {x₀ : Handler}

namespace Waiting

/-- The filters accept what they accepted in the beginning. -/
theorem accepted?_eq (hw : Waiting h s₀ m₀ qs acts s m) : s.accepted? h = s₀.accepted? h := by
  obtain ⟨x, hx, -, -, hfilters⟩ := hw.handler
  have hsame : s.filtersOf h = s₀.filtersOf h := by
    rw [← hfilters, filtersOf, hx]
    rfl
  funext r
  -- The answer depends on the tests of the filters alone, and these stay as they are.
  obtain ⟨hanswer, hrecord⟩ := screen_congr hw.tests (s₀.filtersOf h) r
  unfold accepted?
  rw [hsame]
  rcases hone : screen (s₀.filtersOf h) r s₀ with ⟨a, r₁, t⟩
  rcases hother : screen (s₀.filtersOf h) r s with ⟨a', r₁', t'⟩
  rw [hone, hother] at hanswer hrecord
  dsimp only at hanswer hrecord
  rw [hanswer, hrecord]
  cases a <;> rfl

/-- What the handler does on the next request. -/
theorem actsOn_eq (hw : Waiting h s₀ m₀ qs acts s m) (q : Request) :
    s.actsOn h q = m.acts (s₀.accepted? h) q := by
  obtain ⟨x, hx, hm, -, -⟩ := hw.handler
  rw [actsOn, memoryOf?_eq hx hm, hw.accepted?_eq]

/-- **One request** keeps all that. -/
theorem request (hw : Waiting h s₀ m₀ qs acts s m) (hfar : ∀ k ∈ q.concerns, ¬ s.Reaches k h) :
    Waiting h s₀ m₀ (qs ++ [q]) (acts ++ s.actsOn h q) (s.request h q)
      (m.serve (s₀.accepted? h) q) := by
  obtain ⟨x, hx, hm, hopen, hfilters⟩ := hw.handler
  have hperform := request_eq_perform hx hm hw.far q
  -- Neither the old target nor the new one reaches this handler, so no act comes back to it.
  have hconcerns : ∀ a ∈ m.acts (s₀.accepted? h) q, ∀ k ∈ a.concerns, ¬ s.Reaches k h := by
    intro a ha k hk
    rcases concerns_acts ha hk with htarget | hnew
    · exact hw.far k htarget
    · exact hfar k hnew
  have hchanges := changes_perform hconcerns
  obtain ⟨hsink, hfilters', hclosed⟩ := allOnHandler_eq (m.acts (s₀.accepted? h) q) hm
  rw [allOnSink_acts] at hsink
  rw [hw.actsOn_eq] at hperform ⊢
  rw [hperform]
  refine ⟨⟨allOnHandler (m.acts (s₀.accepted? h) q) x, ?_, hsink, ?_, hfilters'.trans hfilters⟩,
    hchanges.tests.trans hw.tests, ?_, ?_, ?_, ?_⟩
  · rw [hchanges.handler, hx]
    rfl
  · exact (hclosed mark_notMem_acts).trans hopen
  · intro k hk hreach
    rcases target_of_serve hk with htarget | hnew
    · exact hw.far k htarget (hchanges.reaches k hreach)
    · exact hfar k hnew (hchanges.reaches k hreach)
  · rw [settings_serve m (s₀.accepted? h) q, hw.settings]
  · rw [perform_append, ← hw.performed]
  · have hone := handed_acts_append m (s₀.accepted? h) q
    rw [handed_append, List.map_append, List.append_assoc, hone, ← List.append_assoc, hw.conserved,
      given, given, List.filterMap_append]
    rfl

end Waiting

/-- **Steady**: what holds of a memory sink besides, as long as it has one and the same
    target. -/
structure Steady (h : HandlerId) (s₀ : Store) (m₀ : MemorySink) (target : HandlerId)
    (qs : List Request) (acts : List Act) (s : Store) (m : MemorySink) : Prop where
  aimed : m.target? = some target
  room : m.buffer.length < max m₀.capacity 1
  below : ∀ r ∈ m.buffer, r.level < m₀.flushLevel
  flushed : qs.getLast? = some .flush → m.buffer = []
  one : ∀ job ∈ handed acts, job.1 = target
  apart : Apart h (s₀.deliverAll (handed acts)) s

/-- One request keeps that too, unless it names another target. -/
theorem Steady.request {target : HandlerId} (hs : Steady h s₀ m₀ target qs acts s m)
    (hw : Waiting h s₀ m₀ qs acts s m) (hkeeps : ∀ target?, q ≠ .setTarget target?) :
    Steady h s₀ m₀ target (qs ++ [q]) (acts ++ s.actsOn h q) (s.request h q)
      (m.serve (s₀.accepted? h) q) := by
  obtain ⟨x, hx, hm, -, -⟩ := hw.handler
  have hcapacity : m.capacity = m₀.capacity := by rw [hw.settings]
  have hlevel : m.flushLevel = m₀.flushLevel := by rw [hw.settings]
  obtain ⟨haimed, hroom, hbelow, hflushed⟩ := m.bounds_serve (s₀.accepted? h) hs.aimed hkeeps
    (hcapacity ▸ hs.room) (hlevel ▸ hs.below)
  rw [hcapacity] at hroom
  rw [hlevel] at hbelow
  rw [request_eq_perform hx hm hw.far q, hw.actsOn_eq]
  refine ⟨haimed, hroom, hbelow, ?_, ?_, ?_⟩
  · rw [List.getLast?_concat]
    intro hq
    exact hflushed (Option.some.inj hq)
  · intro job hjob
    rw [handed_append, List.mem_append] at hjob
    rcases hjob with hold | hnew
    · exact hs.one job hold
    · exact Option.some.inj ((target_of_handed hkeeps hnew).symm.trans hs.aimed)
  · rw [handed_append, deliverAll_append]
    refine hs.apart.perform ?_ (letGo_notMem_acts hkeeps)
    intro a ha k hk
    rcases concerns_acts ha hk with htarget | hnew
    · exact hw.far k htarget
    · -- To concern another handler a request has to name a new target.
      cases q with
      | setTarget target? => exact absurd rfl (hkeeps target?)
      | emit | flush => cases hnew

/-- **A run** keeps all that. -/
theorem Served.waiting (hx₀ : s₀.handlers[h]? = some x₀) (hm₀ : x₀.sink = .memory m₀)
    (hempty : m₀.buffer = []) (hopen : x₀.closed = false)
    (hfar : ∀ k, m₀.target? = some k → ¬ s₀.Reaches k h) (hrun : Served h s₀ qs acts s) :
    ∃ m, Waiting h s₀ m₀ qs acts s m ∧
      ∀ target, m₀.target? = some target → (∀ target?, Request.setTarget target? ∉ qs) →
        Steady h s₀ m₀ target qs acts s m := by
  induction hrun with
  | start =>
    refine ⟨m₀, ⟨⟨x₀, hx₀, hm₀, hopen, ?_⟩, rfl, hfar, rfl, rfl, ?_⟩, ?_⟩
    · rw [filtersOf, hx₀]
      rfl
    · rw [hempty]
      rfl
    · intro target htarget _
      refine ⟨htarget, ?_, ?_, fun _ => hempty, fun job hjob => absurd hjob List.not_mem_nil,
        .refl h s₀⟩
      · rw [hempty]
        exact Nat.lt_of_lt_of_le Nat.one_pos (Nat.le_max_right _ _)
      · rw [hempty]
        exact fun r hr => absurd hr List.not_mem_nil
  | request before q hnew ih =>
    obtain ⟨m, hw, hsteady⟩ := ih
    refine ⟨_, hw.request hnew, ?_⟩
    intro target htarget hkeeps
    have hearlier := hsteady target htarget fun target? hq =>
      hkeeps target? (List.mem_append_left _ hq)
    -- The target is kept by the requests before this one, and by this one.
    refine hearlier.request hw ?_
    rintro target? rfl
    exact hkeeps target? (List.mem_append_right _ (List.mem_singleton_self _))

/-- **Records that wait in memory.**  A memory sink starts with nothing and is served
    requests, none of which names a target that leads back to it.  What it does then is a
    number of acts; what they hand on, with what still waits, is what the sink was given,
    in order and each once.  With the same target all along, less waits than the capacity,
    or nothing if that is zero, and all of it below the flush level; and right after a flush
    the rest of the store is as if each record had gone to the target directly.  When it
    is closed, the sink hands on what waits, if that is wanted and there is a target, and
    in any case it has neither records nor a target then. -/
theorem Served.buffering (hx₀ : s₀.handlers[h]? = some x₀) (hm₀ : x₀.sink = .memory m₀)
    (hempty : m₀.buffer = []) (hopen : x₀.closed = false)
    (hfar : ∀ k, m₀.target? = some k → ¬ s₀.Reaches k h) (hrun : Served h s₀ qs acts s) :
    ∃ m, s.memoryOf? h = some m ∧ s = s₀.perform h acts ∧
      (handed acts).map Prod.snd ++ m.buffer = given s₀ h qs ∧
      (∀ target, m₀.target? = some target → (∀ target?, Request.setTarget target? ∉ qs) →
        m.buffer.length < max m₀.capacity 1 ∧ (∀ r ∈ m.buffer, r.level < m₀.flushLevel) ∧
        (qs.getLast? = some .flush →
          Apart h (s₀.deliverAll ((given s₀ h qs).map fun r => (target, r))) s)) ∧
      s.close h = (.ok (), s.perform h m.closing) ∧
      handed m.closing = (if m₀.flushOnClose then
        m.target?.toList.flatMap fun target => m.buffer.map fun r => (target, r) else []) ∧
      (s.close h).2.memoryOf? h = some { m with target? := none, buffer := [] } := by
  obtain ⟨m, hw, hsteady⟩ := hrun.waiting hx₀ hm₀ hempty hopen hfar
  obtain ⟨x, hx, hm, hstill, -⟩ := hw.handler
  have hclose := close_eq_perform hx hm hstill hw.far
  refine ⟨m, memoryOf?_eq hx hm, hw.performed, hw.conserved, ?_, hclose, ?_, ?_⟩
  · intro target htarget hkeeps
    have hs := hsteady target htarget hkeeps
    refine ⟨hs.room, hs.below, ?_⟩
    intro hflush
    -- Nothing waits, so every record that the sink was given has gone to the target.
    have hgiven : (given s₀ h qs).map (fun r => (target, r)) = handed acts := by
      rw [← hw.conserved, hs.flushed hflush, List.append_nil, List.map_map]
      refine (List.map_congr_left ?_).trans (List.map_id _)
      intro job hjob
      exact Prod.ext (hs.one job hjob).symm rfl
    rw [hgiven]
    exact hs.apart
  · rw [handed_closing, hw.settings]
  · have hchanges : Changes h (allOnHandler m.closing) s (s.perform h m.closing) :=
      changes_perform fun a ha k hk => hw.far k (concerns_closing ha hk)
    obtain ⟨hsink, -, -⟩ := allOnHandler_eq m.closing hm
    rw [allOnSink_closing] at hsink
    rw [hclose]
    refine memoryOf?_eq (x := allOnHandler m.closing x) ?_ hsink
    rw [hchanges.handler, hx]
    rfl

/-- Two records of which the second makes the sink full, and a third that is flushed: the
    target has them all. -/
theorem three_records_after_flush :
    let a := Record.simple "mem" Level.info "first" default
    let b := Record.simple "mem" Level.info "second" default
    let c := Record.simple "mem" Level.info "third" default
    let s₀ : Store :=
      { origin := default
        handlers := #[{ sink := .probe {} }, { sink := .memory { capacity := 2, target? := some 0 } }] }
    ∃ acts s, Served 1 s₀ [.emit a, .emit b, .emit c, .flush] acts s ∧
      Apart 1 (s₀.deliverAll [(0, a), (0, b), (0, c)]) s := by
  intro a b c s₀
  have hfar : ∀ k, some 0 = some k → ¬ s₀.Reaches k 1 := by
    intro k hk hreach
    cases hk
    -- A probe has no target.
    cases hreach.cases_head with
    | inl heq => cases heq
    | inr hstep =>
      obtain ⟨k, hk, -⟩ := hstep
      cases hk
  have hnone : ∀ {q : Request} {s : Store}, q.concerns = [] → ∀ k ∈ q.concerns, ¬ s.Reaches k 1 := by
    intro q s hq k hk
    rw [hq] at hk
    cases hk
  have hstart : Served 1 s₀ [] [] s₀ := .start
  have hrun := (((hstart.request (.emit a) (hnone rfl)).request (.emit b) (hnone rfl)).request
    (.emit c) (hnone rfl)).request .flush (hnone rfl)
  obtain ⟨m, -, -, -, hsteady, -⟩ := hrun.buffering rfl rfl rfl rfl hfar
  obtain ⟨-, -, hflush⟩ := hsteady 0 rfl (by simp)
  exact ⟨_, _, hrun, hflush rfl⟩

end Store

end Logbook
