import Logbook.Proofs.Hierarchy.InOrder

/-! # What names stand for

    Every name stands for a logger once it has been asked for: the empty name and the
    name of the root for the root, any other name for the logger that has it.  This
    needs no order among the parents, so it holds also where a program has set some of
    them itself.

    To be asked for a name, a registry makes one logger at most.  Of the others nothing
    changes but perhaps a link.
-/

namespace Logbook.Registry

variable {g g' : Registry} {i j : LoggerId} {name n : String}

/-- **Sound**: whole and registered. -/
structure Sound (g : Registry) : Prop where
  whole : g.Whole
  registered : g.Registered

/-- The same tree is as sound. -/
theorem SameTree.sound (h : SameTree g g') (hsound : g.Sound) : g'.Sound :=
  ⟨h.whole hsound.whole, hsound.registered.congr h.size h.nodes h.name⟩

/-- The logger that a name stands for. -/
def standing? (g : Registry) (name : String) : Option LoggerId :=
  if name = "" ∨ name = rootName then some rootId else g.loggerCalled? name

/-- What a name stands for, or would be made as. -/
def standing (g : Registry) (name : String) : Logger :=
  match g.standing? name with
  | some i => g.logger i
  | none => { name }

/-- What names stand for is a matter of the table. -/
theorem standing?_congr (h : g'.nodes = g.nodes) (name : String) :
    g'.standing? name = g.standing? name := by
  rw [standing?, standing?, loggerCalled?_congr h]

/-- A name that is not the root's stands for the logger that is called by it. -/
theorem standing?_of_called (h : g.Registered) (hi : g.loggerCalled? n = some i) :
    g.standing? n = some i := by
  obtain ⟨-, -, -, hproper⟩ := h.called n i hi
  rw [standing?, if_neg (not_or.mpr hproper), hi]

theorem standing_of_some (h : g.standing? name = some i) : g.standing name = g.logger i := by
  rw [standing, h]

/-- Names stand for loggers of the registry. -/
theorem Sound.standing_lt (h : g.Sound) (hi : g.standing? n = some i) : i < g.loggers.size := by
  unfold standing? at hi
  split at hi
  · cases hi
    exact h.whole.root_lt
  · exact (h.registered.called n i hi).1

/-- A name that stands for a logger is answered with it, and nothing is made. -/
theorem Sound.getLogger_of_standing (h : g.Sound) (hi : g.standing? n = some i) :
    g.getLogger n = (i, g) := by
  unfold standing? at hi
  split at hi
  · next hroot =>
    cases hi
    rw [getLogger_eq, if_pos hroot]
  · exact getLogger_of_called h.registered hi

/-- **Met**: a registry before and after it was asked for a name. -/
structure Met (g g' : Registry) (name : String) (i : LoggerId) : Prop where
  sound : g'.Sound
  standing : ∀ k, g'.standing? k = if k = name then some i else g.standing? k
  self : SameButLink (g.standing name) (g'.logger i)
  old : ∀ j, j < g.loggers.size → SameButLink (g.logger j) (g'.logger j)
  asked : g.standing? name = some i ∧ g' = g ∨
    g.standing? name = none ∧ i = g.loggers.size ∧ g'.loggers.size = g.loggers.size + 1

/-- To ask a sound registry for any name. -/
theorem Sound.met (h : g.Sound) (name : String) :
    Met g (g.getLogger name).2 name (g.getLogger name).1 := by
  cases hname : g.standing? name with
  | some i =>
    rw [h.getLogger_of_standing hname]
    refine ⟨h, ?_, ?_, fun _ _ => rfl, .inl ⟨hname, rfl⟩⟩
    · intro k
      split
      · next hk => rw [hk, hname]
      · rfl
    · rw [standing_of_some hname]
      exact SameButLink.refl _
  | none =>
    -- A name that stands for nothing is not the root's, so a logger is made for it.
    have hnot : ¬ (name = "" ∨ name = rootName) := by
      intro hroot
      rw [standing?, if_pos hroot] at hname
      cases hname
    have hmissing : g.loggerCalled? name = none := by rwa [standing?, if_neg hnot] at hname
    have hcreated := h.registered.created h.whole name
    have hmade : g.getLogger name = g.create name (g.waiting name) := by
      rw [getLogger_eq, if_neg hnot, hmissing]
    have hid : (g.getLogger name).1 = g.loggers.size := by rw [hmade]; rfl
    obtain ⟨hempty, hroot⟩ := not_or.mp hnot
    rw [hid, hmade]
    refine ⟨⟨hcreated.whole h.whole h.registered,
      hcreated.registered h.whole h.registered hmissing hempty hroot⟩, ?_, ?_, ?_,
      .inr ⟨hname, rfl, hcreated.size⟩⟩
    · intro k
      unfold standing?
      rw [hcreated.loggerCalled?_eq]
      split
      · next hk => rw [if_neg (by rintro rfl; exact hnot hk)]
      · rfl
    · rw [Registry.standing, hname, hcreated.new]
      rfl
    · intro j hj
      rw [hcreated.old j (Nat.ne_of_lt hj)]
      split <;> rfl

namespace Met

/-- The logger that was asked for is in the registry. -/
theorem lt (h : Met g g' name i) : i < g'.loggers.size :=
  h.sound.standing_lt ((h.standing name).trans (if_pos rfl))

/-- The loggers that were there stay, and no other one comes than the one asked for. -/
theorem size_le (h : Met g g' name i) : g.loggers.size ≤ g'.loggers.size := by
  rcases h.asked with ⟨-, rfl⟩ | ⟨-, -, hsize⟩
  · exact le_rfl
  · rw [hsize]
    exact Nat.le_succ _

/-- A name that stood for a logger goes on to do so. -/
theorem kept (h : Met g g' name i) (hj : g.standing? n = some j) : g'.standing? n = some j := by
  rw [h.standing]
  split
  · next hn =>
    subst hn
    rcases h.asked with ⟨hi, -⟩ | ⟨hnone, -⟩
    · exact hi.symm.trans hj
    · rw [hnone] at hj
      cases hj
  · exact hj

/-- What depends on neither name nor link is for every logger as before, also for the new
    one, which is made blank. -/
theorem view_eq {α : Type} (h : Met g g' name i) (view : Logger → α)
    (hview : ∀ x name' link?, view { x with name := name', parent? := link? } = view x)
    (j : LoggerId) : view (g'.logger j) = view (g.logger j) := by
  have hlink : ∀ {x y : Logger}, SameButLink x y → view y = view x := by
    intro x y hsame
    rw [hsame]
    exact hview x x.name y.parent?
  by_cases hj : j < g.loggers.size
  · exact hlink (h.old j hj)
  · rw [logger_of_size_le (Nat.le_of_not_lt hj)]
    rcases h.asked with ⟨-, rfl⟩ | ⟨hnone, rfl, hsize⟩
    · rw [logger_of_size_le (Nat.le_of_not_lt hj)]
    · by_cases hnew : j = g.loggers.size
      · rw [hnew, hlink h.self, Registry.standing, hnone]
        exact hview { name := rootName } name none
      · have hbeyond : g'.loggers.size ≤ j :=
          hsize ▸ Nat.lt_of_le_of_ne (Nat.le_of_not_lt hj) (Ne.symm hnew)
        rw [logger_of_size_le hbeyond]

end Met

end Logbook.Registry
