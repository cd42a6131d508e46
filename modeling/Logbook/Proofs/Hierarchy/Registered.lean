import Logbook.Proofs.Hierarchy.Run

/-! # Names, loggers and placeholders

    In every state of a run each logger but the root is registered under its own
    name and linked to a logger.  A name without a logger knows the loggers that
    wait for it: all that are below it with no registered logger between.  The
    second part is what lets a logger that comes late find everyone who belongs
    under it.
-/

namespace Logbook.Registry

variable {g g' : Registry} {i j : LoggerId} {name : String} {steps : List (Registry × Call)}

/-- **Registered**: names stand for the loggers that have them, and the loggers
    below a missing name wait for it. -/
structure Registered (g : Registry) : Prop where
  sorted : g.nodes.Sorted
  root_name : (g.logger rootId).name = rootName
  called : ∀ n i, g.loggerCalled? n = some i →
    i < g.loggers.size ∧ i ≠ rootId ∧ (g.logger i).name = n ∧ n ≠ "" ∧ n ≠ rootName
  known : ∀ i, i < g.loggers.size → i ≠ rootId → g.loggerCalled? (g.logger i).name = some i
  waits : ∀ k c, c ∈ g.waiting k →
    c < g.loggers.size ∧ c ≠ rootId ∧ NameAbove k (g.logger c).name
  awaited : ∀ k c, g.loggerCalled? k = none → c < g.loggers.size → c ≠ rootId →
    NameAbove k (g.logger c).name →
    (∀ q, NameAbove k q → NameAbove q (g.logger c).name → g.loggerCalled? q = none) →
    c ∈ g.waiting k

/-- The walk upwards ends in the registry. -/
theorem Registered.above_lt (h : g.Registered) (hwhole : g.Whole) (name : String) :
    (g.above? name).getD rootId < g.loggers.size := by
  cases habove : g.above? name with
  | none => exact hwhole.root_lt
  | some p =>
    obtain ⟨q, hq, -⟩ := above?_eq_some_iff.mp habove
    exact (h.called q p hq).1

/-- Making a logger in a whole and registered state. -/
theorem Registered.created (h : g.Registered) (hwhole : g.Whole) (name : String) :
    Created g (g.create name (g.waiting name)).2 name :=
  Registry.created hwhole.toLive fun c hc => (h.waits name c hc).1

/-! ## A new logger -/

/-- The loggers after a creation are the new one and those from before. -/
theorem Created.lt_or_eq (h : Created g g' name) (hj : j < g'.loggers.size) :
    j < g.loggers.size ∨ j = g.loggers.size := by
  rw [h.size] at hj
  exact Nat.lt_succ_iff_lt_or_eq.mp hj

/-- A creation keeps a registry whole. -/
theorem Created.whole (h : Created g g' name) (hwhole : g.Whole) (hreg : g.Registered) :
    g'.Whole where
  alive j := by
    by_cases hj : j = g.loggers.size
    · rw [hj, h.new]
    · rw [h.view_eq Logger.gone (fun _ _ => rfl) hj]
      exact hwhole.alive j
  -- The link of a logger is new, or turned to the new logger, or the old one.
  link_lt j p hlink := by
    rw [h.link_eq] at hlink
    rw [h.size]
    split at hlink
    · injection hlink with hp
      exact hp ▸ Nat.lt_succ_of_lt (hreg.above_lt hwhole name)
    · split at hlink
      · injection hlink with hp
        exact hp ▸ Nat.lt_succ_self _
      · exact Nat.lt_succ_of_lt (hwhole.link_lt j p hlink)
  root_lt := h.size ▸ Nat.lt_succ_of_lt hwhole.root_lt
  linked j hj hj0 := by
    rw [h.link_eq]
    split
    · rfl
    · next hne =>
      split
      · rfl
      · exact hwhole.linked j ((h.lt_or_eq hj).resolve_right hne) hj0

/-- A creation enters the new logger, and leaves the old ones registered. -/
theorem Created.registered (h : Created g g' name) (hwhole : g.Whole) (hreg : g.Registered)
    (hfresh : g.loggerCalled? name = none) (hempty : name ≠ "") (hroot : name ≠ rootName) :
    g'.Registered := by
  have hsize : g'.loggers.size = g.loggers.size + 1 := h.size
  have hold : ∀ j, j ≠ g.loggers.size → (g'.logger j).name = (g.logger j).name :=
    fun j hj => h.view_eq Logger.name (fun _ _ => rfl) hj
  have hnew : (g'.logger g.loggers.size).name = name := by rw [h.new]
  have hmissing : ∀ k, g'.loggerCalled? k = none → k ≠ name ∧ g.loggerCalled? k = none := by
    intro k hk
    rw [h.loggerCalled?_eq] at hk
    split at hk
    · cases hk
    · next hne => exact ⟨hne, hk⟩
  refine ⟨h.sorted hreg.sorted, ?_, ?_, ?_, ?_, ?_⟩
  · rw [hold rootId (Nat.ne_of_lt hwhole.root_lt)]
    exact hreg.root_name
  · -- A name stands for the logger that has it.
    intro n i hi
    rw [h.loggerCalled?_eq] at hi
    split at hi
    · next heq =>
      injection hi with hi
      subst hi heq
      exact ⟨hsize ▸ Nat.lt_succ_self _, Ne.symm (Nat.ne_of_lt hwhole.root_lt), hnew, hempty, hroot⟩
    · obtain ⟨hlt, hi0, hname, hn⟩ := hreg.called n i hi
      exact ⟨hsize ▸ Nat.lt_succ_of_lt hlt, hi0, (hold i (Nat.ne_of_lt hlt)).trans hname, hn⟩
  · -- Every logger is known by its name.
    intro i hi hi0
    rw [h.loggerCalled?_eq]
    rcases h.lt_or_eq hi with hlt | rfl
    · have hknown := hreg.known i hlt hi0
      rw [hold i (Nat.ne_of_lt hlt), if_neg, hknown]
      intro heq
      rw [heq, hfresh] at hknown
      cases hknown
    · rw [hnew, if_pos rfl]
  · -- Whoever waits for a name is below it.
    intro k c hc
    obtain ⟨-, hwait | ⟨hpass, rfl⟩⟩ := h.mem_waiting_iff.mp hc
    · obtain ⟨hlt, hc0, habove⟩ := hreg.waits k c hwait
      exact ⟨hsize ▸ Nat.lt_succ_of_lt hlt, hc0, (hold c (Nat.ne_of_lt hlt)).symm ▸ habove⟩
    · refine ⟨hsize ▸ Nat.lt_succ_self _, Ne.symm (Nat.ne_of_lt hwhole.root_lt), ?_⟩
      rw [hnew]
      exact (mem_passed_iff.mp hpass).1
  · -- Whoever is below a missing name, with nothing between, waits for it.
    intro k c hk hc hc0 habove hbetween
    obtain ⟨hkname, hkold⟩ := hmissing k hk
    refine h.mem_waiting_iff.mpr ⟨hkname, ?_⟩
    rcases h.lt_or_eq hc with hlt | rfl
    · rw [hold c (Nat.ne_of_lt hlt)] at habove hbetween
      exact .inl (hreg.awaited k c hkold hlt hc0 habove fun q hkq hqc =>
        (hmissing q (hbetween q hkq hqc)).2)
    · -- The new logger itself: the walk passes all names up to the first logger.
      rw [hnew] at habove hbetween
      refine .inr ⟨mem_passed_iff.mpr ⟨habove, hkold, fun q hq hlen => ?_⟩, rfl⟩
      exact (hmissing q (hbetween q (habove.of_length_lt hq hlen) hq)).2

/-! ## Other calls -/

/-- Whether a registry is whole is a matter of its tree, up to a single link. -/
theorem SameTree.whole (h : SameTree g g') (hwhole : g.Whole) : g'.Whole where
  alive j := (h.gone j).trans (hwhole.alive j)
  link_lt j p hlink := by
    rw [h.size]
    exact hwhole.link_lt j p (h.link j ▸ hlink)
  root_lt := h.size ▸ hwhole.root_lt
  linked j hj hj0 := by
    rw [h.link]
    exact hwhole.linked j (h.size ▸ hj) hj0

/-- Names and placeholders do not depend on links. -/
theorem Registered.congr (h : g.Registered) (hsize : g'.loggers.size = g.loggers.size)
    (hnodes : g'.nodes = g.nodes) (hname : ∀ j, (g'.logger j).name = (g.logger j).name) :
    g'.Registered := by
  have hcalled := loggerCalled?_congr hnodes
  have hwaiting := waiting_congr hnodes
  obtain ⟨hsorted, hroot, hcall, hknown, hwaits, hawaited⟩ := h
  refine ⟨hnodes ▸ hsorted, ?_, ?_, ?_, ?_, ?_⟩ <;>
    simpa only [hsize, hcalled, hwaiting, hname]

/-- The links after another parent was set. -/
theorem link_setParent (hi : i < g.loggers.size) (p j : LoggerId) :
    ((g.modify i ({ · with parent? := some p })).invalidate.logger j).parent? =
      if j = i then some p else (g.logger j).parent? := by
  rw [logger_invalidate]
  by_cases hj : j = i
  · rw [hj, logger_modify_self hi, if_pos rfl]
  · rw [logger_modify_of_ne (Ne.symm hj), if_neg hj]

/-- Another parent keeps a registry whole. -/
theorem Whole.relinked (h : g.Whole) {p : LoggerId} (hi : i < g.loggers.size)
    (hp : p < g.loggers.size) : (g.modify i ({ · with parent? := some p })).invalidate.Whole where
  alive j := by
    rw [logger_invalidate,
      logger_modify_congr Logger.gone ({ · with parent? := some p }) fun _ => rfl]
    exact h.alive j
  link_lt j q hlink := by
    rw [link_setParent hi] at hlink
    rw [size_invalidate, size_modify]
    split at hlink
    · injection hlink with hq
      exact hq ▸ hp
    · exact h.link_lt j q hlink
  root_lt := by
    rw [size_invalidate, size_modify]
    exact h.root_lt
  linked j hj hj0 := by
    rw [size_invalidate, size_modify] at hj
    rw [link_setParent hi]
    -- Only the logger that gets the parent has another link.
    split
    · rfl
    · exact h.linked j hj hj0

/-! ## Runs -/

/-- A new registry has a root and nothing else. -/
theorem whole_registered_new (lastResort? : Option HandlerId) :
    Whole { lastResort? } ∧ Registered { lastResort? } := by
  have hroot : ∀ i, ((({ lastResort? } : Registry).logger i).name = rootName ∧
      (({ lastResort? } : Registry).logger i).gone = false ∧
      (({ lastResort? } : Registry).logger i).parent? = none) := by
    intro i
    cases i with
    | zero => exact ⟨rfl, rfl, rfl⟩
    | succ i => exact ⟨rfl, rfl, rfl⟩
  -- With the root alone every other case is void.
  have honly : ∀ i, i < ({ lastResort? } : Registry).loggers.size → i = rootId := fun i hi =>
    Nat.lt_one_iff.mp hi
  refine ⟨⟨⟨fun i => (hroot i).2.1, fun i p hp => ?_⟩, Nat.zero_lt_one, fun i hi hi0 => ?_⟩,
    Table.sorted_nil, rfl, fun n i h => ?_, fun i hi hi0 => ?_, fun k c h => ?_,
    fun k c _ hc hc0 => ?_⟩
  · rw [(hroot i).2.2] at hp
    cases hp
  · exact absurd (honly i hi) hi0
  · cases h
  · exact absurd (honly i hi) hi0
  · cases h
  · exact absurd (honly c hc) hc0

/-- A call keeps a registry whole and registered. -/
theorem whole_registered_call (hwhole : g.Whole) (hreg : g.Registered) {c : Call}
    (possible : c.Possible g) : (g.call c).Whole ∧ (g.call c).Registered := by
  rcases call_cases g c with ⟨name, -, hempty, hroot, hfresh, heq⟩ | ⟨i, p, rfl, -, heq⟩ | hsame
  · rw [heq]
    have hcreated := hreg.created hwhole name
    exact ⟨hcreated.whole hwhole hreg, hcreated.registered hwhole hreg hfresh hempty hroot⟩
  · have hi : i < g.loggers.size := possible i List.mem_cons_self
    have hp : p < g.loggers.size := possible p (by simp [Call.loggers])
    rw [heq]
    refine ⟨hwhole.relinked hi hp, hreg.congr ?_ rfl ?_⟩
    · rw [size_invalidate, size_modify]
    · exact logger_modify_congr Logger.name ({ · with parent? := some p }) (fun _ => rfl) g i
  · exact ⟨hsame.whole hwhole, hreg.congr hsame.size hsame.nodes hsame.name⟩

/-- **Every state of a run** is whole and registered. -/
theorem Run.whole_registered (h : Run steps g) : g.Whole ∧ g.Registered := by
  induction h with
  | new lastResort? => exact whole_registered_new lastResort?
  | call c _ possible ih => exact whole_registered_call ih.1 ih.2 possible

end Logbook.Registry
