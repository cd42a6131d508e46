import Logbook.Proofs.Hierarchy.Links
import Logbook.Proofs.Hierarchy.Walk

/-! # The creation of a logger

    What a registry looks like after a logger was made.  The nearest logger above
    becomes the parent of the new one.  A logger that waited for the name is put
    under the new one, unless its parent is at or below the new name already.  No
    other link changes.
-/

namespace Logbook.Registry

variable {g : Registry} {i j : LoggerId} {name : String}

/-! ## Adoption -/

/-- A logger below a new name gets the new logger as its parent: its own parent is
    the root or not at or below the name. -/
def adopts (g : Registry) (name : String) (child : LoggerId) : Bool :=
  match g.parent? child with
  | none => false
  | some current => !(current ≠ rootId && hangsBelow name (g.logger current).name)

/-- Whether a logger is adopted depends on its parent and on names, on nothing
    else. -/
theorem adopts_congr {g' : Registry} {child : LoggerId}
    (hparent : g'.parent? child = g.parent? child)
    (hname : ∀ j, (g'.logger j).name = (g.logger j).name) :
    g'.adopts name child = g.adopts name child := by
  simp only [adopts, hparent, hname]

/-- A logger is adopted unless its parent is at or below the name. -/
theorem adopts_iff {child : LoggerId} (hname : name ≠ "") : g.adopts name child = true ↔
    ∃ p, g.parent? child = some p ∧
      (p = rootId ∨ (g.logger p).name ≠ name ∧ ¬ NameAbove name (g.logger p).name) := by
  unfold adopts
  cases g.parent? child with
  | none => simp
  | some p =>
    by_cases hroot : p = rootId
    · simp [hroot]
    · by_cases heq : (g.logger p).name = name
      · simp [hroot, hangsBelow, heq]
      · have hsym : name ≠ (g.logger p).name := Ne.symm heq
        simp [hroot, hangsBelow, heq, hsym, ← isBelow_iff hname]

/-- One step of an adoption. -/
theorem adoptOne_eq (g : Registry) (i child : LoggerId) :
    g.adoptOne i child =
      if g.adopts (g.logger i).name child then
        (g.modify i ({ · with parent? := g.parent? child })).modify child
          ({ · with parent? := some i })
      else g := by
  unfold adoptOne adopts
  cases g.parent? child with
  | none => simp
  | some current =>
    dsimp only
    split
    · next h => simp only [h, Bool.not_true, Bool.false_eq_true, if_false]
    · next h =>
      rw [Bool.not_eq_true] at h
      simp only [h, Bool.not_false, if_true]

/-- **An adoption** of loggers by another one: of those that are adopted the link
    changes, of the adopting one too, and nothing else. -/
structure Adopted (g g' : Registry) (i : LoggerId) (below : List LoggerId) : Prop where
  rest : { g' with loggers := g.loggers } = g
  size : g'.loggers.size = g.loggers.size
  self : ∃ link?, g'.logger i = { g.logger i with parent? := link? }
  other : ∀ j, j ≠ i → g'.logger j =
    if j ∈ below ∧ g.adopts (g.logger i).name j then { g.logger j with parent? := some i }
    else g.logger j

namespace Adopted

variable {g' g'' : Registry} {child : LoggerId} {below : List LoggerId}

/-- What does not depend on the link is the same for every logger. -/
theorem view_eq {α : Type} (h : Adopted g g' i below) (view : Logger → α)
    (hview : ∀ x link?, view { x with parent? := link? } = view x) (j : LoggerId) :
    view (g'.logger j) = view (g.logger j) := by
  by_cases hj : j = i
  · subst hj
    obtain ⟨link?, hself⟩ := h.self
    rw [hself, hview]
  · rw [h.other j hj]
    split
    · exact hview _ _
    · rfl

/-- Adoptions one after the other are one adoption. -/
theorem trans (h : Adopted g g' i [child]) (h' : Adopted g' g'' i below) :
    Adopted g g'' i (child :: below) where
  rest := calc
    { g'' with loggers := g.loggers }
      = { { g'' with loggers := g'.loggers } with loggers := g.loggers } := rfl
    _ = { g' with loggers := g.loggers } := by rw [h'.rest]
    _ = g := h.rest
  size := h'.size.trans h.size
  self := by
    obtain ⟨link?, hself⟩ := h.self
    obtain ⟨link?', hself'⟩ := h'.self
    exact ⟨link?', by rw [hself', hself]⟩
  other := by
    intro j hj
    have hname : ∀ k, (g'.logger k).name = (g.logger k).name := h.view_eq Logger.name fun _ _ => rfl
    have hgone : ∀ k, (g'.logger k).gone = (g.logger k).gone := h.view_eq Logger.gone fun _ _ => rfl
    rw [h'.other j hj, hname i]
    by_cases hchild : j = child ∧ g.adopts (g.logger i).name j
    · -- Adopted in the first step: a second time changes nothing.
      obtain ⟨rfl, hadopts⟩ := hchild
      have hset : g'.logger j = { g.logger j with parent? := some i } := by
        rw [h.other j hj, if_pos ⟨List.mem_singleton_self j, hadopts⟩]
      rw [hset]
      simp only [List.mem_cons_self, hadopts, true_and, if_true, ite_self]
    · -- Not adopted in the first step: the second finds the logger as it was.
      have hkept : g'.logger j = g.logger j := by
        rw [h.other j hj, if_neg (by simpa using hchild)]
      have hadopts : g'.adopts (g.logger i).name j = g.adopts (g.logger i).name j :=
        adopts_congr (parent?_congr h.size hgone (by rw [hkept])) hname
      rw [hkept, hadopts]
      have hmem : (j ∈ child :: below ∧ g.adopts (g.logger i).name j) ↔
          (j ∈ below ∧ g.adopts (g.logger i).name j) := by
        rw [List.mem_cons, or_and_right]
        exact or_iff_right hchild
      simp only [hmem]

end Adopted

/-- One step of an adoption is an adoption of one logger, and keeps the registry
    live. -/
theorem adoptOne_spec {child : LoggerId} (hlive : g.Live) (hi : i < g.loggers.size)
    (hchild : child < g.loggers.size) (hne : child ≠ i) :
    (g.adoptOne i child).Live ∧ Adopted g (g.adoptOne i child) i [child] := by
  rw [adoptOne_eq]
  split
  · next hadopts =>
    have hlogger : ∀ j, ((g.modify i ({ · with parent? := g.parent? child })).modify child
        ({ · with parent? := some i })).logger j =
          if j = child then { g.logger j with parent? := some i }
          else if j = i then { g.logger j with parent? := g.parent? child }
          else g.logger j := by
      intro j
      by_cases hj : j = child
      · subst hj
        rw [logger_modify_self (by simpa using hchild), logger_modify_of_ne (Ne.symm hne),
          if_pos rfl]
      · rw [logger_modify_of_ne (Ne.symm hj), if_neg hj]
        by_cases hji : j = i
        · subst hji
          rw [logger_modify_self hi, if_pos rfl]
        · rw [logger_modify_of_ne (Ne.symm hji), if_neg hji]
    -- First that the registry stays live, then that it is an adoption.
    refine ⟨⟨fun j => ?_, fun j p => ?_⟩, ⟨rfl, by simp, ?_, fun j hj => ?_⟩⟩
    · rw [hlogger]
      split
      · exact hlive.alive j
      · split <;> exact hlive.alive j
    · rw [hlogger]
      simp only [size_modify]
      split
      · intro hp
        injection hp with hp
        exact hp ▸ hi
      · split
        · exact parent?_lt
        · exact hlive.link_lt j p
    · exact ⟨g.parent? child, by rw [hlogger, if_neg (Ne.symm hne), if_pos rfl]⟩
    · rw [hlogger]
      by_cases hjc : j = child
      · subst hjc
        rw [if_pos rfl, if_pos ⟨List.mem_singleton_self j, hadopts⟩]
      · rw [if_neg hjc, if_neg hj, if_neg (by simp [hjc])]
  · next hadopts =>
    refine ⟨hlive, rfl, rfl, ⟨(g.logger i).parent?, rfl⟩, fun j _ => ?_⟩
    rw [if_neg]
    rintro ⟨hj, hj'⟩
    rw [List.mem_singleton.mp hj] at hj'
    exact hadopts hj'

/-- Loggers that wait for a name are adopted one after the other. -/
theorem adopt_spec (below : List LoggerId) : ∀ g : Registry, g.Live → i < g.loggers.size →
    (∀ c ∈ below, c < g.loggers.size ∧ c ≠ i) → Adopted g (g.adopt i below) i below := by
  induction below with
  | nil =>
    intro g _ _ _
    exact ⟨rfl, rfl, ⟨(g.logger i).parent?, rfl⟩, fun j _ => by rw [if_neg (by simp)]; rfl⟩
  | cons child below ih =>
    intro g hlive hi hbelow
    obtain ⟨hchild, hne⟩ := hbelow child List.mem_cons_self
    obtain ⟨hlive', hone⟩ := adoptOne_spec hlive hi hchild hne
    have hrest := ih (g.adoptOne i child) hlive' (hone.size ▸ hi) fun c hc => by
      rw [hone.size]
      exact hbelow c (List.mem_cons_of_mem _ hc)
    exact hone.trans hrest

/-! ## Creation -/

/-- **A creation**: a registry before and after a logger was made for a name. -/
structure Created (g g' : Registry) (name : String) : Prop where
  rest : g' = { g with loggers := g'.loggers, nodes := g'.nodes, epoch := g.epoch + 1 }
  size : g'.loggers.size = g.loggers.size + 1
  new : g'.logger g.loggers.size = { name, parent? := some ((g.above? name).getD rootId) }
  old : ∀ j, j ≠ g.loggers.size → g'.logger j =
    if j ∈ g.waiting name ∧ g.adopts name j then
      { g.logger j with parent? := some g.loggers.size }
    else g.logger j
  nodes : ∀ k, g'.nodes.get? k =
    if k ∈ passed g.nodes (dottedPrefixes name) then
      some (.placeholder (Handler.adjoin (g.waiting k) g.loggers.size))
    else if k = name then some (.logger g.loggers.size)
    else g.nodes.get? k
  sorted : g.nodes.Sorted → g'.nodes.Sorted

/-- The registry with a new logger that has no link yet. -/
private def pushed (g : Registry) (name : String) : Registry :=
  { g with
    loggers := g.loggers.push { name }, nodes := g.nodes.insert name (.logger g.loggers.size) }

private theorem logger_pushed (g : Registry) (name : String) (j : LoggerId) :
    (g.pushed name).logger j = if j = g.loggers.size then { name } else g.logger j := by
  simp only [pushed, logger, Array.getD_eq_getD_getElem?, Array.getElem?_push]
  split <;> rfl

private theorem size_pushed (g : Registry) (name : String) :
    (g.pushed name).loggers.size = g.loggers.size + 1 := by
  simp [pushed]

private theorem live_pushed (h : g.Live) (name : String) : (g.pushed name).Live where
  alive j := by
    rw [logger_pushed]
    split
    · rfl
    · exact h.alive j
  link_lt j p := by
    rw [logger_pushed, size_pushed]
    split
    · intro hp
      cases hp
    · intro hp
      exact Nat.lt_succ_of_lt (h.link_lt j p hp)

private theorem adopts_pushed (h : g.Live) (hj : j ≠ g.loggers.size) :
    (g.pushed name).adopts name j = g.adopts name j := by
  have hparent : (g.pushed name).parent? j = g.parent? j := by
    rw [(live_pushed h name).parent?_eq, h.parent?_eq, logger_pushed, if_neg hj]
  unfold adopts
  rw [hparent]
  cases hp : g.parent? j with
  | none => rfl
  | some p =>
    have hne : p ≠ g.loggers.size := Nat.ne_of_lt (parent?_lt hp)
    simp only [logger_pushed, hne, if_false]

/-- Making a logger, in three steps: the new logger, the adoption, the link. -/
private theorem create_eq (g : Registry) (name : String) (below : List LoggerId) :
    (g.create name below).2 =
      let h := (g.pushed name).adopt g.loggers.size below
      let walk := linkUpwards g.loggers.size (dottedPrefixes name) h.nodes
      ({ h with nodes := walk.2 }.modify g.loggers.size
        ({ · with parent? := some (walk.1.getD rootId) })).invalidate := rfl

/-- Making a logger does what a creation says, where those that wait for the name
    have their places in a live registry. -/
theorem created (hlive : g.Live) (hwait : ∀ c ∈ g.waiting name, c < g.loggers.size) :
    Created g (g.create name (g.waiting name)).2 name := by
  have hbelow : ∀ c ∈ g.waiting name,
      c < (g.pushed name).loggers.size ∧ c ≠ g.loggers.size := by
    intro c hc
    have hlt := hwait c hc
    rw [size_pushed]
    exact ⟨Nat.lt_succ_of_lt hlt, Nat.ne_of_lt hlt⟩
  have hadopted := adopt_spec (g.waiting name) (g.pushed name) (live_pushed hlive name)
    (by simp [size_pushed]) hbelow
  rw [create_eq]
  -- From here on the adoption is known by what it keeps and what it changes.
  generalize hh : (g.pushed name).adopt g.loggers.size (g.waiting name) = h at hadopted
  have hsize : h.loggers.size = g.loggers.size + 1 := hadopted.size.trans (size_pushed g name)
  have hnodes : h.nodes = g.nodes.insert name (.logger g.loggers.size) :=
    congrArg Registry.nodes hadopted.rest
  -- The names above get shorter, so the walk meets none twice.
  have hprefixes : (dottedPrefixes name).Nodup :=
    (pairwise_dottedPrefixes name).imp fun {a b} (hlt : b.length < a.length) (heq : a = b) =>
      Nat.lt_irrefl _ (heq ▸ hlt)
  obtain ⟨hfirst, htable⟩ := linkUpwards_spec g.loggers.size g.nodes (dottedPrefixes name) h.nodes
    hprefixes fun n hn => by
      rw [hnodes, Table.get?_insert, if_neg (mem_dottedPrefixes.mp hn).ne]
  dsimp only
  rw [hfirst]
  refine ⟨?_, by simpa using hsize, ?_, fun j hj => ?_, fun k => ?_, fun hsorted => ?_⟩
  · have hrest := hadopted.rest
    simp only [pushed, Registry.mk.injEq] at hrest
    simp only [modify, invalidate, hrest]
  · obtain ⟨link?, hself⟩ := hadopted.self
    rw [logger_invalidate, logger_modify_self (by simp [hsize])]
    change ({ h.logger g.loggers.size with
      parent? := some ((g.above? name).getD rootId) } : Logger) = _
    rw [hself, logger_pushed, if_pos rfl]
  · have hself : ((g.pushed name).logger g.loggers.size).name = name := by simp [logger_pushed]
    rw [logger_invalidate, logger_modify_of_ne (Ne.symm hj)]
    show h.logger j = _
    rw [hadopted.other j hj, hself, adopts_pushed hlive hj, logger_pushed, if_neg hj]
  · show (linkUpwards g.loggers.size (dottedPrefixes name) h.nodes).2.get? k = _
    rw [htable, hnodes, Table.get?_insert]
    rfl
  · refine sorted_linkUpwards _ _ ?_
    rw [hnodes]
    exact hsorted.insert _ _

namespace Created

variable {g' : Registry} {k : String}

/-- A creation gives the name a logger, and no other name. -/
theorem loggerCalled?_eq (h : Created g g' name) (k : String) :
    g'.loggerCalled? k = if k = name then some g.loggers.size else g.loggerCalled? k := by
  have hk := h.nodes k
  by_cases hpass : k ∈ passed g.nodes (dottedPrefixes name)
  · obtain ⟨habove, hnone, -⟩ := mem_passed_iff.mp hpass
    rw [if_neg habove.ne, hnone]
    rw [if_pos hpass] at hk
    simp [loggerCalled?, loggerAt?, hk]
  · rw [if_neg hpass] at hk
    by_cases hname : k = name
    · rw [if_pos hname] at hk ⊢
      exact loggerAt?_eq_some_iff.mpr hk
    · rw [if_neg hname] at hk ⊢
      simp only [loggerCalled?, loggerAt?, hk]

/-- Under the names that are passed the new logger is entered, and nobody waits
    for its own name any more. -/
theorem mem_waiting_iff (h : Created g g' name) :
    j ∈ g'.waiting k ↔ k ≠ name ∧ (j ∈ g.waiting k ∨
      k ∈ passed g.nodes (dottedPrefixes name) ∧ j = g.loggers.size) := by
  have hk := h.nodes k
  by_cases hpass : k ∈ passed g.nodes (dottedPrefixes name)
  · rw [if_pos hpass] at hk
    have hne : k ≠ name := (mem_passed_iff.mp hpass).1.ne
    have hwait : g'.waiting k = Handler.adjoin (g.waiting k) g.loggers.size := by
      simp [waiting, waitingAt, hk]
    rw [hwait]
    simp only [hne, hpass, ne_eq, not_false_eq_true, true_and]
    unfold Handler.adjoin
    split
    · next hmem =>
      refine (or_iff_left_of_imp ?_).symm
      rintro rfl
      exact hmem
    · simp
  · rw [if_neg hpass] at hk
    by_cases hname : k = name
    · rw [if_pos hname] at hk
      have hwait : g'.waiting k = [] := by simp [waiting, waitingAt, hk]
      rw [hwait]
      simp [hname]
    · rw [if_neg hname] at hk
      have hwait : g'.waiting k = g.waiting k := by simp [waiting, waitingAt, hk]
      simp [hwait, hname, hpass]

/-- What does not depend on the link stays for the loggers that were there. -/
theorem view_eq {α : Type} (h : Created g g' name) (view : Logger → α)
    (hview : ∀ x link?, view { x with parent? := link? } = view x) (hj : j ≠ g.loggers.size) :
    view (g'.logger j) = view (g.logger j) := by
  rw [h.old j hj]
  split
  · exact hview _ _
  · rfl

/-- The links after a creation. -/
theorem link_eq (h : Created g g' name) (j : LoggerId) : (g'.logger j).parent? =
    if j = g.loggers.size then some ((g.above? name).getD rootId)
    else if j ∈ g.waiting name ∧ g.adopts name j then some g.loggers.size
    else (g.logger j).parent? := by
  by_cases hj : j = g.loggers.size
  · subst hj
    rw [h.new, if_pos rfl]
  · rw [h.old j hj, if_neg hj]
    split <;> rfl

end Created

/-! ## Asking for a logger -/

/-- The root, the logger with the name, or a new one. -/
theorem getLogger_eq (g : Registry) (name : String) : g.getLogger name =
    if name = "" ∨ name = rootName then (rootId, g)
    else
      match g.loggerCalled? name with
      | some i => (i, g)
      | none => g.create name (g.waiting name) := by
  unfold getLogger
  by_cases hname : name = "" ∨ name = rootName
  · simp [hname]
  · simp only [hname, Bool.or_eq_true, decide_eq_true_eq, if_false, loggerCalled?, loggerAt?,
      waiting, waitingAt]
    split <;> simp_all

end Logbook.Registry
