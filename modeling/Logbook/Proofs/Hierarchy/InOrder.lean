import Logbook.Logging
import Logbook.Proofs.Hierarchy.Placement

/-! # Registries in order

    A program that sets no parent itself keeps its registry in order: names stand for
    the loggers that have them, and every logger hangs below the nearest one.  To ask
    for a logger makes one at most, and of the others it changes the links at most.
    Where the link of a logger leads is a matter of the names above its own.
-/

namespace Logbook.Registry

variable {g g' g'' : Registry} {i j p p' : LoggerId} {f : Logger → Logger} {name n : String}
  {c : Call}

/-! ## The same but for links -/

/-- **The same but for the link** to a parent. -/
def SameButLink (x y : Logger) : Prop := y = { x with parent? := y.parent? }

theorem SameButLink.refl (x : Logger) : SameButLink x x := rfl

theorem SameButLink.trans {x y z : Logger} (h : SameButLink x y) (h' : SameButLink y z) :
    SameButLink x z := by
  unfold SameButLink at h h' ⊢
  rw [h', h]

/-- Loggers that differ in their links differ in them after a change of other parts. -/
theorem SameButLink.map {x y : Logger} (h : SameButLink x y)
    (hf : ∀ x link?, f { x with parent? := link? } = { f x with parent? := link? }) :
    SameButLink (f x) (f y) := by
  unfold SameButLink at h ⊢
  rw [h, hf]

/-! ## Order -/

theorem SameTree.trans (h : SameTree g g') (h' : SameTree g' g'') : SameTree g g'' where
  size := h'.size.trans h.size
  nodes := h'.nodes.trans h.nodes
  name j := (h'.name j).trans (h.name j)
  link j := (h'.link j).trans (h.link j)
  gone j := (h'.gone j).trans (h.gone j)

/-- **In order**: whole, registered, and with all loggers in place. -/
structure InOrder (g : Registry) : Prop where
  whole : g.Whole
  registered : g.Registered
  placed : g.Placed

theorem SameTree.inOrder (h : SameTree g g') (horder : g.InOrder) : g'.InOrder :=
  ⟨h.whole horder.whole, horder.registered.congr h.size h.nodes h.name, h.placed horder.placed⟩

/-! ## Asking for a named logger -/

/-- What a name stands for, or would be made as. -/
def former (g : Registry) (name : String) : Logger :=
  match g.loggerCalled? name with
  | some i => g.logger i
  | none => { name }

theorem former_of_called (h : g.loggerCalled? name = some i) : g.former name = g.logger i := by
  rw [former, h]

theorem former_of_missing (h : g.loggerCalled? name = none) : g.former name = { name } := by
  rw [former, h]

/-- **Asked**: a registry before and after it was asked for a proper name.  The loggers
    that were there keep everything but perhaps their links. -/
structure Asked (g g' : Registry) (name : String) (i : LoggerId) : Prop where
  order : g'.InOrder
  called : ∀ k, g'.loggerCalled? k = if k = name then some i else g.loggerCalled? k
  self : SameButLink (g.former name) (g'.logger i)
  old : ∀ j, j < g.loggers.size → SameButLink (g.logger j) (g'.logger j)
  root : g'.logger rootId = g.logger rootId

/-- To ask a registry in order for a proper name. -/
theorem InOrder.asked (h : g.InOrder) (hname : Proper name) :
    Asked g (g.getLogger name).2 name (g.getLogger name).1 := by
  have hnot : ¬ (name = "" ∨ name = rootName) := not_or.mpr hname
  cases hcalled : g.loggerCalled? name with
  | some i =>
    rw [getLogger_of_called h.registered hcalled]
    refine ⟨h, ?_, ?_, fun _ _ => rfl, rfl⟩
    · intro k
      split
      · next hk => rw [hk, hcalled]
      · rfl
    · rw [former_of_called hcalled]
      exact SameButLink.refl _
  | none =>
    have hcreated := h.registered.created h.whole name
    have hmade : g.getLogger name = g.create name (g.waiting name) := by
      rw [getLogger_eq, if_neg hnot, hcalled]
    have hid : (g.getLogger name).1 = g.loggers.size := by rw [hmade]; rfl
    rw [hid, hmade]
    refine ⟨⟨hcreated.whole h.whole h.registered,
      hcreated.registered h.whole h.registered hcalled hname.1 hname.2,
      hcreated.placed h.whole h.registered hcalled hname.1 h.placed⟩, hcreated.loggerCalled?_eq,
      ?_, ?_, ?_⟩
    · rw [former_of_missing hcalled, hcreated.new]
      rfl
    · intro j hj
      rw [hcreated.old j (Nat.ne_of_lt hj)]
      split <;> rfl
    · rw [hcreated.old rootId (Nat.ne_of_lt h.whole.root_lt), if_neg]
      -- The root waits for no name.
      rintro ⟨hwaits, -⟩
      exact (h.registered.waits name rootId hwaits).2.1 rfl

/-! ## Programs that set no parent -/

/-- A call that sets no parent keeps a registry in order. -/
theorem InOrder.call (h : g.InOrder) (hset : ∀ i p, c ≠ .setParent i p) : (g.call c).InOrder := by
  rcases g.call_cases c with ⟨name, rfl, hempty, hroot, -⟩ | ⟨i, p, hc, -⟩ | hsame
  · exact (h.asked ⟨hempty, hroot⟩).order
  · exact absurd hc (hset i p)
  · exact hsame.inOrder h

/-- To note that a record found no handler keeps the tree. -/
theorem sameTree_warned (g : Registry) : SameTree g { g with warned := true } :=
  ⟨rfl, rfl, fun _ => rfl, fun _ => rfl, fun _ => rfl⟩

/-- To give a record to the handlers on its way keeps the tree. -/
theorem sameTree_callHandlers (g : Registry) (i : LoggerId) (r : Record) (s : Store) :
    SameTree g (g.callHandlers i r s).1 := by
  unfold callHandlers
  split
  · unfold noHandlers
    dsimp only
    split <;> exact g.sameTree_warned
  · exact SameTree.refl g

/-- To give a record to a logger keeps the tree. -/
theorem sameTree_handle (g : Registry) (i : LoggerId) (r : Record) (s : Store) :
    SameTree g (g.handle i r s).1 := by
  unfold handle
  split
  · exact SameTree.refl g
  · split
    · exact SameTree.refl g
    · exact g.sameTree_callHandlers i _ _

/-- To log an event keeps the tree. -/
theorem sameTree_logEvent (g : Registry) (i : LoggerId) (level : Level) (e : Event)
    (caller : CallSite) (s : Store) : SameTree g (g.logEvent i level e caller s).2.1 := by
  have hasked := (g.sameButMemos_isEnabledFor i level).sameTree
  unfold logEvent
  split
  · next heq =>
    rw [heq] at hasked
    exact hasked
  · next g₁ heq =>
    rw [heq] at hasked
    refine hasked.trans ?_
    unfold dispatch
    split
    · exact SameTree.refl _
    · exact g₁.sameTree_handle i _ _

/-- **Grown**: a new registry after calls of a program that sets no parent, and after
    records that were logged or handed to a logger. -/
inductive Grown : Registry → Prop where
  | new (lastResort? : Option HandlerId) : Grown { lastResort? }
  | call {g : Registry} (c : Call) (before : Grown g) (hset : ∀ i p, c ≠ .setParent i p) :
      Grown (g.call c)
  | logEvent {g : Registry} (i : LoggerId) (level : Level) (e : Event) (caller : CallSite)
      (s : Store) (before : Grown g) : Grown (g.logEvent i level e caller s).2.1
  | handle {g : Registry} (i : LoggerId) (r : Record) (s : Store) (before : Grown g) :
      Grown (g.handle i r s).1
  | callHandlers {g : Registry} (i : LoggerId) (r : Record) (s : Store) (before : Grown g) :
      Grown (g.callHandlers i r s).1

/-- **Every grown registry is in order.** -/
theorem Grown.inOrder (h : g.Grown) : g.InOrder := by
  induction h with
  | new lastResort? =>
    obtain ⟨hwhole, hreg⟩ := whole_registered_new lastResort?
    exact ⟨hwhole, hreg, (Run.new lastResort?).placed (by simp)⟩
  | call c _ hset ih => exact ih.call hset
  | @logEvent g i level e caller s _ ih => exact (g.sameTree_logEvent i level e caller s).inOrder ih
  | @handle g i r s _ ih => exact (g.sameTree_handle i r s).inOrder ih
  | @callHandlers g i r s _ ih => exact (g.sameTree_callHandlers i r s).inOrder ih

/-! ## Links and names -/

/-- There is one nearest logger. -/
theorem Nearest.unique (h : g.Nearest n p) (h' : g.Nearest n p') : p = p' := by
  rcases h with ⟨q, hq, habove, hlongest⟩ | ⟨rfl, hnone⟩ <;>
    rcases h' with ⟨q', hq', habove', hlongest'⟩ | ⟨rfl, hnone'⟩
  · have hle := hlongest q' (hq' ▸ rfl) habove'
    have hle' := hlongest' q (hq ▸ rfl) habove
    rw [habove.eq_of_length_eq habove' (Nat.le_antisymm hle' hle), hq'] at hq
    exact Option.some.inj hq.symm
  · rw [hnone' q habove] at hq
    cases hq
  · rw [hnone q' habove'] at hq'
    cases hq'
  · rfl

/-- In two registries in order the link of a logger is the same if the names above its
    own stand for the same loggers. -/
theorem InOrder.link_eq (h : g.InOrder) (h' : g'.InOrder) (hi : g.loggerCalled? n = some i)
    (hi' : g'.loggerCalled? n = some i)
    (habove : ∀ k, NameAbove k n → g'.loggerCalled? k = g.loggerCalled? k) :
    (g'.logger i).parent? = (g.logger i).parent? := by
  obtain ⟨hlt, hi0, hname, -⟩ := h.registered.called n i hi
  obtain ⟨hlt', -, hname', -⟩ := h'.registered.called n i hi'
  obtain ⟨p, hp, hnear⟩ := h.placed i hlt hi0
  obtain ⟨p', hp', hnear'⟩ := h'.placed i hlt' hi0
  rw [hname] at hnear
  rw [hname'] at hnear'
  rw [hp, hp', (hnear.of_above habove).unique hnear']

end Logbook.Registry
