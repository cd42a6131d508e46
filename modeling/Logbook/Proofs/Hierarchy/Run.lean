import Logbook.Proofs.Hierarchy.Creation

/-! # Runs of a registry

    The calls that a program makes on a registry and its loggers, one after the
    other, from a new registry on.  A call either makes a logger, or gives one
    another parent, or leaves the tree as it is; a question changes nothing but
    the answers that are kept.
-/

namespace Logbook

/-- What a program asks of a registry or of one of its loggers. -/
inductive Call where
  | getLogger (name : String)
  | setLevel (i : LoggerId) (level : Level)
  | setParent (i parent : LoggerId)
  | disable (level : Level)
  | effectiveLevel (i : LoggerId)
  | isEnabledFor (i : LoggerId) (level : Level)
  | setDisabled (i : LoggerId) (value : Bool)
  | setPropagate (i : LoggerId) (value : Bool)
  | addHandler (i : LoggerId) (h : HandlerId)
  | removeHandler (i : LoggerId) (h : HandlerId)
  | clearHandlers (i : LoggerId)
  | addFilter (i : LoggerId) (f : FilterId)
  | removeFilter (i : LoggerId) (f : FilterId)
  | clearFilters (i : LoggerId)
  | setLastResort (h? : Option HandlerId)
  | setFactory (factory : RecordParts → Origin → Except LogError Record)
  | setResolver (resolver : CallSite → CallSite)

/-- The loggers that a call is about. -/
def Call.loggers : Call → List LoggerId
  | .getLogger _ | .disable _ | .setLastResort _ | .setFactory _ | .setResolver _ => []
  | .setParent i parent => [i, parent]
  | .setLevel i _ | .effectiveLevel i | .isEnabledFor i _ | .setDisabled i _ | .setPropagate i _
  | .addHandler i _ | .removeHandler i _ | .clearHandlers i
  | .addFilter i _ | .removeFilter i _ | .clearFilters i => [i]

/-- A program can make a call on loggers that it has got from the registry. -/
def Call.Possible (c : Call) (g : Registry) : Prop := ∀ i ∈ c.loggers, i < g.loggers.size

instance (c : Call) (g : Registry) : Decidable (c.Possible g) :=
  inferInstanceAs (Decidable (∀ i ∈ c.loggers, i < g.loggers.size))

namespace Registry

variable {g g' : Registry} {i j : LoggerId} {name : String} {c : Call}

/-! ## Calls and runs -/

/-- The registry after a call.  A parent that is refused changes nothing. -/
def call (g : Registry) : Call → Registry
  | .getLogger name => (g.getLogger name).2
  | .setLevel i level => g.setLevel i level
  | .setParent i parent =>
    match g.setParent i parent with
    | .ok g' => g'
    | .error _ => g
  | .disable level => g.setDisable level
  | .effectiveLevel i => (g.effectiveLevel i).2
  | .isEnabledFor i level => (g.isEnabledFor i level).2
  | .setDisabled i value => g.modify i ({ · with disabled := value })
  | .setPropagate i value => g.modify i ({ · with propagate := value })
  | .addHandler i h => g.addHandler i h
  | .removeHandler i h => g.removeHandler i h
  | .clearHandlers i => g.clearHandlers i
  | .addFilter i f => g.addFilter i f
  | .removeFilter i f => g.removeFilter i f
  | .clearFilters i => g.modify i ({ · with filters := [] })
  | .setLastResort h? => { g with lastResort? := h? }
  | .setFactory factory => { g with factory }
  | .setResolver resolver => { g with resolver }

/-- **A run** from a new registry: the calls so far, each with the state that it
    met, and the state that they have led to. -/
inductive Run : List (Registry × Call) → Registry → Prop where
  | new (lastResort? : Option HandlerId) : Run [] { lastResort? }
  | call {steps : List (Registry × Call)} {g : Registry} (c : Call) (before : Run steps g)
      (possible : c.Possible g) : Run (steps ++ [(g, c)]) (g.call c)

/-- To ask for a logger is always possible. -/
theorem Run.getLogger {steps : List (Registry × Call)} (h : Run steps g) (name : String) :
    Run (steps ++ [(g, .getLogger name)]) (g.getLogger name).2 :=
  h.call (.getLogger name) fun _ hi => absurd hi List.not_mem_nil

/-! ## What a question changes -/

/-- **The same but for kept answers**: a registry before and after it was asked for
    a level. -/
structure SameButMemos (g g' : Registry) : Prop where
  rest : g' = { g with loggers := g'.loggers }
  size : g'.loggers.size = g.loggers.size
  logger : ∀ j, ∃ memo, g'.logger j = { g.logger j with memo }

theorem SameButMemos.refl (g : Registry) : SameButMemos g g :=
  ⟨rfl, rfl, fun j => ⟨(g.logger j).memo, rfl⟩⟩

/-- What does not depend on kept answers is the same for every logger. -/
theorem SameButMemos.view_eq {α : Type} (h : SameButMemos g g') (view : Logger → α)
    (hview : ∀ x memo, view { x with memo } = view x) (j : LoggerId) :
    view (g'.logger j) = view (g.logger j) := by
  obtain ⟨memo, hmemo⟩ := h.logger j
  rw [hmemo, hview]

/-- Answers that are kept on top of others. -/
theorem SameButMemos.keep (h : SameButMemos g g') (i : LoggerId) (memo : LevelMemo) :
    SameButMemos g (g'.modify i ({ · with memo })) := by
  have hrest := congrArg (fun x : Registry =>
    { x with loggers := (g'.modify i ({ · with memo })).loggers }) h.rest
  refine ⟨hrest, (size_modify g' i _).trans h.size, fun j => ?_⟩
  obtain ⟨memo', hmemo'⟩ := h.logger j
  rw [logger_modify]
  split
  · exact ⟨memo, by rw [hmemo']⟩
  · exact ⟨memo', hmemo'⟩

/-- To ask for the level of a logger changes what is kept with it. -/
theorem sameButMemos_effectiveLevel (g : Registry) (i : LoggerId) :
    SameButMemos g (g.effectiveLevel i).2 := by
  unfold effectiveLevel
  dsimp only
  split
  · exact SameButMemos.refl g
  · exact (SameButMemos.refl g).keep i _

/-- To ask whether a level is enabled changes what is kept with the logger. -/
theorem sameButMemos_isEnabledFor (g : Registry) (i : LoggerId) (level : Level) :
    SameButMemos g (g.isEnabledFor i level).2 := by
  unfold isEnabledFor
  split
  · exact SameButMemos.refl g
  · split
    · exact SameButMemos.refl g
    · by_cases hle : level ≤ g.disable
      · simp only [hle, if_true]
        exact (SameButMemos.refl g).keep i _
      · simp only [hle, if_false]
        exact (g.sameButMemos_effectiveLevel i).keep i _

/-! ## What a call does to the tree -/

/-- **The same tree**: names, links and lives of all loggers are as they were. -/
structure SameTree (g g' : Registry) : Prop where
  size : g'.loggers.size = g.loggers.size
  nodes : g'.nodes = g.nodes
  name : ∀ j, (g'.logger j).name = (g.logger j).name
  link : ∀ j, (g'.logger j).parent? = (g.logger j).parent?
  gone : ∀ j, (g'.logger j).gone = (g.logger j).gone

theorem SameTree.refl (g : Registry) : SameTree g g :=
  ⟨rfl, rfl, fun _ => rfl, fun _ => rfl, fun _ => rfl⟩

/-- The same tree has the same parents. -/
theorem SameTree.parent?_eq (h : SameTree g g') (j : LoggerId) : g'.parent? j = g.parent? j :=
  parent?_congr h.size h.gone (h.link j)

/-- A change that keeps name, link and life of a logger keeps the tree. -/
theorem sameTree_modify (g : Registry) (i : LoggerId) (f : Logger → Logger)
    (hname : ∀ x, (f x).name = x.name) (hlink : ∀ x, (f x).parent? = x.parent?)
    (hgone : ∀ x, (f x).gone = x.gone) : SameTree g (g.modify i f) :=
  ⟨size_modify g i f, rfl, logger_modify_congr Logger.name f hname g i,
    logger_modify_congr Logger.parent? f hlink g i, logger_modify_congr Logger.gone f hgone g i⟩

/-- What is kept with loggers is no part of the tree. -/
theorem SameButMemos.sameTree (h : SameButMemos g g') : SameTree g g' where
  size := h.size
  nodes := by rw [h.rest]
  name := h.view_eq Logger.name fun _ _ => rfl
  link := h.view_eq Logger.parent? fun _ _ => rfl
  gone := h.view_eq Logger.gone fun _ _ => rfl

/-- To ask for a logger changes nothing, or makes the one that is missing. -/
theorem call_getLogger (g : Registry) (name : String) :
    g.call (.getLogger name) = g ∨
    name ≠ "" ∧ name ≠ rootName ∧ g.loggerCalled? name = none ∧
      g.call (.getLogger name) = (g.create name (g.waiting name)).2 := by
  rw [call, getLogger_eq]
  by_cases hname : name = "" ∨ name = rootName
  · rw [if_pos hname]
    exact .inl rfl
  · rw [if_neg hname]
    obtain ⟨hempty, hroot⟩ := not_or.mp hname
    cases hcalled : g.loggerCalled? name with
    | none => exact .inr ⟨hempty, hroot, rfl, rfl⟩
    | some i => exact .inl rfl

/-- To set a parent is refused and changes nothing, or gives the logger the link. -/
theorem call_setParent (g : Registry) (i parent : LoggerId) :
    i ∈ g.line parent ∧ g.call (.setParent i parent) = g ∨
    i ∉ g.line parent ∧ g.call (.setParent i parent) =
      (g.modify i ({ · with parent? := some parent })).invalidate := by
  unfold call setParent
  dsimp only
  by_cases hline : i ∈ g.line parent
  · exact .inl ⟨hline, by rw [if_pos hline]⟩
  · exact .inr ⟨hline, by rw [if_neg hline]⟩

/-- A call makes a logger, gives one another parent, or keeps the tree. -/
theorem call_cases (g : Registry) (c : Call) :
    (∃ name, c = .getLogger name ∧ name ≠ "" ∧ name ≠ rootName ∧ g.loggerCalled? name = none ∧
      g.call c = (g.create name (g.waiting name)).2) ∨
    (∃ i parent, c = .setParent i parent ∧ i ∉ g.line parent ∧
      g.call c = (g.modify i ({ · with parent? := some parent })).invalidate) ∨
    SameTree g (g.call c) := by
  cases c with
  | getLogger name =>
    rcases call_getLogger g name with heq | hmade
    · refine .inr (.inr ?_)
      rw [heq]
      exact SameTree.refl g
    · exact .inl ⟨name, rfl, hmade⟩
  | setParent i parent =>
    rcases call_setParent g i parent with ⟨-, heq⟩ | hset
    · refine .inr (.inr ?_)
      rw [heq]
      exact SameTree.refl g
    · exact .inr (.inl ⟨i, parent, rfl, hset⟩)
  | effectiveLevel i => exact .inr (.inr (g.sameButMemos_effectiveLevel i).sameTree)
  | isEnabledFor i level => exact .inr (.inr (g.sameButMemos_isEnabledFor i level).sameTree)
  | disable _ | setLastResort _ | setFactory _ | setResolver _ =>
    exact .inr (.inr ⟨rfl, rfl, fun _ => rfl, fun _ => rfl, fun _ => rfl⟩)
  | setLevel i level =>
    have hset := sameTree_modify g i ({ · with level }) (fun _ => rfl) (fun _ => rfl) (fun _ => rfl)
    exact .inr (.inr ⟨hset.size, hset.nodes, hset.name, hset.link, hset.gone⟩)
  | setDisabled i _ | setPropagate i _ | addHandler i _ | removeHandler i _
  | clearHandlers i | addFilter i _ | removeFilter i _ | clearFilters i =>
    exact .inr (.inr (sameTree_modify g i _ (fun _ => rfl) (fun _ => rfl) (fun _ => rfl)))

end Registry

end Logbook
