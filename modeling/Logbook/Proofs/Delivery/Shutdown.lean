import Logbook.Logging
import Logbook.Proofs.Configuration.Loggers
import Logbook.Proofs.Delivery.Persistence

/-! # Shutdown

    A shutdown visits the handlers of a registry one after the other.  A visit flushes the
    handler and then closes it, but a handler that cannot be flushed is not closed.  No
    failure ends the sweep.

    What happens at a visit is written down in an account of it, so that one can tell
    which of the two steps failed and whether the sink was told to close.  A sink is told
    so at most once, however many shutdowns there are.
-/

namespace Logbook

namespace Store

/-! ## Handlers that are open -/

section

variable {s s' s₁ : Store} {h : HandlerId} {e : LogError}

/-- The handler is there and not closed. -/
def isOpen (s : Store) (h : HandlerId) : Bool := (s.handlers[h]?.map (!·.closed)).getD false

/-- The handler is there and closed. -/
def IsClosed (s : Store) (h : HandlerId) : Prop :=
  ∃ x, s.handlers[h]? = some x ∧ x.closed = true

theorem IsClosed.isOpen_eq (hclosed : s.IsClosed h) : s.isOpen h = false := by
  obtain ⟨x, hx, hx'⟩ := hclosed
  simp [isOpen, hx, hx']

/-- What is closed stays closed. -/
theorem IsClosed.persists (hclosed : s.IsClosed h) (hp : s.Persists s') : s'.IsClosed h := by
  obtain ⟨x, hx, hx'⟩ := hclosed
  obtain ⟨y, hy, -, hkept⟩ := hp.handler h x hx
  exact ⟨y, hy, hkept hx'⟩

theorem isClosed_of_isOpen_eq (hh : h < s.handlers.size) (hopen : s.isOpen h = false) :
    s.IsClosed h := by
  refine ⟨s.handlers[h], Array.getElem?_eq_getElem hh, ?_⟩
  simpa [isOpen, Array.getElem?_eq_getElem hh] using hopen

/-- To close a handler that is not open has no effect. -/
theorem close_of_not_isOpen (hopen : s.isOpen h = false) : s.close h = (.ok (), s) := by
  rw [close, closeAmong]
  cases hx : s.handlers[h]? with
  | none => rfl
  | some x =>
    have hclosed : x.closed = true := by simpa [isOpen, hx] using hopen
    simp only [hclosed, if_true]

/-- A flush that fails leaves everything as it is. -/
theorem eq_of_flush_error (hflush : s.flush h = (.error e, s₁)) : s₁ = s := by
  unfold flush at hflush
  split at hflush
  · cases hflush
  · split at hflush
    · cases hflush
    · exact (Prod.mk.inj hflush).2.symm

theorem persists_flush (s : Store) (h : HandlerId) : s.Persists (s.flush h).2 := by
  unfold flush
  split
  · exact .refl s
  · next x hx =>
    split
    · next m hsink =>
      have hdrain : Steps Handler.Remains (fun _ => True) s (s.setSink h (.memory m.drain.2)) :=
        steps_setSink s trivial hx (by rw [hsink]; rfl) (by rw [hsink]; exact m.target?_drain)
      refine .of_steps ((hdrain.trans ?_).mono fun _ _ hr => hr.lasts)
      exact steps_forward _ (encloses_true _) fun _ _ _ => trivial
    · exact .refl s

end

end Store

/-! ## Visits -/

/-- The account of a visit. -/
structure Visit where
  handler : HandlerId
  /-- What came of the flush. -/
  flush : Except LogError Unit
  /-- What came of closing, if the sink was told to close. -/
  close? : Option (Except LogError Unit)

namespace Visit

/-- The failure of a visit. -/
def fault? (v : Visit) : Option LogError :=
  match v.flush, v.close? with
  | .error e, _ => some e
  | .ok (), some (.error e) => some e
  | .ok (), _ => none

/-- The answer to visits: their first failure, if there is one. -/
def answer (visits : List Visit) : Except LogError Unit :=
  match visits.findSome? fault? with
  | some e => .error e
  | none => .ok ()

end Visit

namespace Store

/-- A store after a handler has been closed; a failure is reported. -/
def reportClose (s : Store) (h : HandlerId) : Except LogError Unit → Store
  | .ok () => s
  | .error e => s.complainOfClose h e

/-- **A visit** to a handler.  If the flush fails, that is all.  Otherwise the sink is told
    to close, unless it has been told before. -/
inductive Visited : Store → Visit → Store → Prop where
  | unflushed {s : Store} {h : HandlerId} {e : LogError} (hflush : s.flush h = (.error e, s)) :
      Visited s ⟨h, .error e, none⟩ (s.complainOfClose h e)
  | again {s s₁ : Store} {h : HandlerId} (hflush : s.flush h = (.ok (), s₁)) (hshut : s₁.isOpen h = false) :
      Visited s ⟨h, .ok (), none⟩ s₁
  | closed {s s₁ s₂ : Store} {h : HandlerId} {r : Except LogError Unit}
      (hflush : s.flush h = (.ok (), s₁)) (hopen : s₁.isOpen h = true)
      (hclose : s₁.close h = (r, s₂)) :
      Visited s ⟨h, .ok (), some r⟩ (s₂.reportClose h r)

/-- **A sweep**: visits one after the other. -/
inductive Swept : Store → List Visit → Store → Prop where
  | nil (s : Store) : Swept s [] s
  | cons {s s₁ s₂ : Store} {v : Visit} {vs : List Visit} (hvisit : Visited s v s₁)
      (hrest : Swept s₁ vs s₂) : Swept s (v :: vs) s₂

variable {s s' t t' : Store} {h : HandlerId}

theorem persists_reportClose (s : Store) (h : HandlerId) (r : Except LogError Unit) :
    s.Persists (s.reportClose h r) := by
  cases r <;> exact .of_eq rfl rfl

namespace Visited

variable {v : Visit}

theorem persists (hvisit : Visited s v s') : s.Persists s' := by
  cases hvisit with
  | unflushed => exact .of_eq rfl rfl
  | @again _ h hflush hshut =>
    have hp := persists_flush s h
    rwa [hflush] at hp
  | @closed s₁ s₂ h r hflush hopen hclose =>
    have hp := (persists_flush s h).trans (persists_close (s.flush h).2 h)
    rw [hflush] at hp
    rw [hclose] at hp
    exact hp.trans (persists_reportClose s₂ h r)

/-- After a visit whose flush went well the handler is closed. -/
theorem isClosed (hvisit : Visited s v s') (hh : v.handler < s.handlers.size)
    (hflush : v.flush = .ok ()) : s'.IsClosed v.handler := by
  cases hvisit with
  | unflushed => cases hflush
  | again hflush' hshut =>
    have hp := (Visited.again hflush' hshut).persists
    exact isClosed_of_isOpen_eq (Nat.lt_of_lt_of_le hh hp.size_handlers) hshut
  | @closed s₁ s₂ h r hflush' hopen hclose =>
    have hp := persists_flush s h
    rw [hflush'] at hp
    have hsize := Nat.lt_of_lt_of_le hh hp.size_handlers
    have hclosed := isClosed_close (Array.getElem?_eq_getElem hsize)
    rw [hclose] at hclosed
    exact IsClosed.persists hclosed (persists_reportClose s₂ h r)

/-- The sink of a closed handler is not told to close. -/
theorem close?_eq_none (hvisit : Visited s v s') (hclosed : s.IsClosed v.handler) :
    v.close? = none := by
  cases hvisit with
  | unflushed => rfl
  | again => rfl
  | @closed s₁ s₂ h r hflush hopen hclose =>
    have hp := persists_flush s h
    rw [hflush] at hp
    rw [(hclosed.persists hp).isOpen_eq] at hopen
    cases hopen

end Visited

namespace Swept

variable {v : Visit} {vs ws : List Visit}

theorem persists (hswept : Swept s vs s') : s.Persists s' := by
  induction hswept with
  | nil s => exact .refl s
  | cons hvisit _ ih => exact hvisit.persists.trans ih

/-- Whatever else fails, a handler that could be flushed is closed in the end. -/
theorem isClosed (hswept : Swept s vs s') (hknown : ∀ v ∈ vs, v.handler < s.handlers.size)
    (hv : v ∈ vs) (hflush : v.flush = .ok ()) : s'.IsClosed v.handler := by
  induction hswept with
  | nil => cases hv
  | @cons s s₁ s₂ u us hvisit hrest ih =>
    have hsize := hvisit.persists.size_handlers
    rcases List.mem_cons.mp hv with rfl | hin
    · -- What comes after its visit does not open it again.
      exact (hvisit.isClosed (hknown _ List.mem_cons_self) hflush).persists hrest.persists
    · exact ih (fun w hw => Nat.lt_of_lt_of_le (hknown w (List.mem_cons_of_mem _ hw)) hsize) hin

/-- A sweep does not tell the sink of a closed handler to close. -/
theorem close?_eq_none (hswept : Swept s vs s') (hv : v ∈ vs) (hclosed : s.IsClosed v.handler) :
    v.close? = none := by
  induction hswept with
  | nil => cases hv
  | cons hvisit _ ih =>
    rcases List.mem_cons.mp hv with rfl | hin
    · exact hvisit.close?_eq_none hclosed
    · exact ih hin (hclosed.persists hvisit.persists)

end Swept

end Store

namespace Registry

open Store

variable {g : Registry} {s s' : Store}

/-- The handlers of the root and then of the loggers by name, as often as they are
    attached. -/
def attachments (g : Registry) : List HandlerId := g.all.flatMap fun i => (g.logger i).handlers

/-- Members that are adjoined one by one stand in the order in which they first occur. -/
theorem pairwise_foldl_adjoin (l : List HandlerId) :
    (l.foldl Handler.adjoin []).Pairwise fun a b => l.idxOf a < l.idxOf b := by
  induction l using List.reverseRecOn with
  | nil => exact .nil
  | append_singleton l a ih =>
    have hmem : ∀ b, b ∈ l.foldl Handler.adjoin [] ↔ b ∈ l := by
      intro b
      rw [Handler.foldl_adjoin_nil, List.mem_eraseDups]
    have hbefore : (l.foldl Handler.adjoin []).Pairwise fun b c =>
        (l ++ [a]).idxOf b < (l ++ [a]).idxOf c := by
      refine ih.imp_of_mem ?_
      intro b c hb hc hlt
      rwa [List.idxOf_append_of_mem ((hmem b).mp hb), List.idxOf_append_of_mem ((hmem c).mp hc)]
    rw [List.foldl_append, List.foldl_cons, List.foldl_nil, Handler.adjoin]
    split
    · exact hbefore
    · next hnew =>
      refine List.pairwise_append.mpr ⟨hbefore, List.pairwise_singleton _ _, ?_⟩
      intro b hb c hc
      obtain rfl := List.mem_singleton.mp hc
      have hb' := (hmem b).mp hb
      have hc' : c ∉ l := fun hin => hnew ((hmem c).mpr hin)
      rw [List.idxOf_append_of_mem hb', List.idxOf_append_of_notMem hc']
      have hlt := List.idxOf_lt_length_of_mem hb'
      omega

/-- One handler is flushed and closed, and then the others are. -/
theorem closeAll_cons (h : HandlerId) (hs : List HandlerId) (s : Store) :
    ∃ v s₁, Visited s v s₁ ∧ v.handler = h ∧
      closeAll (h :: hs) s =
        (match v.fault? with
          | some e => .error e
          | none => (closeAll hs s₁).1, (closeAll hs s₁).2) := by
  rw [closeAll, flushAndClose]
  rcases hflush : s.flush h with ⟨e | ⟨⟩, s₁⟩
  · obtain rfl := eq_of_flush_error hflush
    exact ⟨_, _, .unflushed hflush, rfl, rfl⟩
  · cases hopen : s₁.isOpen h with
    | false =>
      refine ⟨_, _, .again hflush hopen, rfl, ?_⟩
      simp only [close_of_not_isOpen hopen]
      rfl
    | true =>
      rcases hclose : s₁.close h with ⟨e | ⟨⟩, s₂⟩
      · exact ⟨_, _, .closed hflush hopen hclose, rfl, by simp only [hclose]; rfl⟩
      · exact ⟨_, _, .closed hflush hopen hclose, rfl, by simp only [hclose]; rfl⟩

/-- Handlers that are flushed and closed one after the other are visited in this order, and
    the first failure is the answer. -/
theorem closeAll_swept (hs : List HandlerId) (s : Store) :
    ∃ visits s', Swept s visits s' ∧ visits.map Visit.handler = hs ∧
      closeAll hs s = (Visit.answer visits, s') := by
  induction hs generalizing s with
  | nil => exact ⟨[], s, .nil s, rfl, rfl⟩
  | cons h hs ih =>
    obtain ⟨v, s₁, hvisit, rfl, heq⟩ := closeAll_cons h hs s
    obtain ⟨visits, s', hswept, rfl, hrest⟩ := ih s₁
    refine ⟨v :: visits, s', .cons hvisit hswept, rfl, ?_⟩
    rw [heq, hrest]
    simp only [Visit.answer, List.findSome?_cons]
    cases v.fault? <;> rfl

/-- **A shutdown** visits every handler that is attached to the root or to a logger exactly
    once, those that are attached first last.  Its answer is the first failure.  Each
    handler whose flush goes well is closed in the end, whatever else fails, but a flush
    that fails is all of a visit: it leaves the handler as open as it was.  A sink that was
    told to close is not told so again, at whatever time another sweep follows. -/
theorem shutdown_swept (g : Registry) (s : Store)
    (hknown : ∀ h ∈ g.attachments, h < s.handlers.size) :
    ∃ visits s', Swept s visits s' ∧ g.shutdown s = (Visit.answer visits, s') ∧
      visits.map Visit.handler = g.distinctHandlers.reverse ∧ (visits.map Visit.handler).Nodup ∧
      (∀ h, h ∈ visits.map Visit.handler ↔ ∃ i ∈ g.all, h ∈ (g.logger i).handlers) ∧
      ((visits.map Visit.handler).Pairwise fun a b =>
        g.attachments.idxOf b < g.attachments.idxOf a) ∧
      (∀ v ∈ visits, v.flush = .ok () → s'.IsClosed v.handler) ∧
      ∀ t t' again, s'.Persists t → Swept t again t' →
        ∀ v ∈ visits, v.flush = .ok () → ∀ w ∈ again, w.handler = v.handler → w.close? = none := by
  obtain ⟨visits, s', hswept, hhandlers, heq⟩ := closeAll_swept g.distinctHandlers.reverse s
  have hmem : ∀ h, h ∈ g.distinctHandlers ↔ h ∈ g.attachments := by
    intro h
    rw [distinctHandlers, Handler.foldl_adjoin_nil, List.mem_eraseDups, attachments]
  have horder := pairwise_foldl_adjoin g.attachments
  have hclosed : ∀ v ∈ visits, v.flush = .ok () → s'.IsClosed v.handler := by
    intro v hv hflush
    refine hswept.isClosed ?_ hv hflush
    intro u hu
    have hin : u.handler ∈ g.distinctHandlers.reverse := hhandlers ▸ List.mem_map_of_mem hu
    exact hknown _ ((hmem _).mp (List.mem_reverse.mp hin))
  refine ⟨visits, s', hswept, heq, hhandlers, ?_, ?_, ?_, hclosed, ?_⟩
  · rw [hhandlers, List.nodup_reverse]
    exact horder.imp fun hlt heq => absurd (heq ▸ hlt) (Nat.lt_irrefl _)
  · intro h
    rw [hhandlers, List.mem_reverse, hmem, attachments, List.mem_flatMap]
  · rw [hhandlers, List.pairwise_reverse]
    exact horder
  · intro t t' again hp hagain v hv hflush w hw hsame
    refine hagain.close?_eq_none hw ?_
    rw [hsame]
    exact (hclosed v hv hflush).persists hp

/-- The root and a logger share a handler; the handler that cannot be closed is visited
    first. -/
theorem shutdown_swept_shared :
    let fails : Probe := { onClose := .error .queueClosed }
    let a := (({} : Registry).getLogger "a").1
    let g := ((({} : Registry).getLogger "a").2.addHandler a 0).addHandler a 1 |>.addHandler rootId 0
    let s : Store := { origin := default, handlers := #[{ sink := .null }, { sink := .probe fails }] }
    ∃ visits s', Swept s visits s' ∧ g.shutdown s = (Visit.answer visits, s') ∧
      visits.map Visit.handler = [1, 0] := by
  intro fails a g s
  obtain ⟨visits, s', hswept, heq, hhandlers, -⟩ := shutdown_swept g s (by decide +kernel)
  refine ⟨visits, s', hswept, heq, ?_⟩
  rw [hhandlers]
  decide +kernel

/-- A handler that cannot be flushed is attached to the root, and open after a shutdown. -/
theorem shutdown_leaves_open :
    let fails : Probe := { onFlush := .error .queueClosed }
    let g := ({} : Registry).addHandler rootId 0
    let s : Store := { origin := default, handlers := #[{ sink := .probe fails }] }
    0 ∈ g.attachments ∧ ¬ (g.shutdown s).2.IsClosed 0 := by
  intro fails g s
  have hopen : (g.shutdown s).2.isOpen 0 = true := by decide +kernel
  refine ⟨by decide, fun hclosed => ?_⟩
  rw [hclosed.isOpen_eq] at hopen
  cases hopen

end Registry

end Logbook
