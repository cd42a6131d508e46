import Logbook.Proofs.Hierarchy.Trail
import Logbook.Registry

/-! # Loggers and their links

    Views of a registry: what a change of one logger does to the others, to whom
    the parent links lead, and the way that a record or a look-up of a level
    takes.  The registry walks upwards with a number of steps that is fixed in
    advance.  Without a loop in the parent links that number is never used up, so
    that the walk is the whole trail.
-/

namespace Logbook.Registry

variable {g g' : Registry} {i j p : LoggerId} {f : Logger → Logger}

/-! ## Single loggers -/

@[simp] theorem size_modify (g : Registry) (i : LoggerId) (f : Logger → Logger) :
    (g.modify i f).loggers.size = g.loggers.size := by
  simp [modify]

@[simp] theorem size_invalidate (g : Registry) :
    g.invalidate.loggers.size = g.loggers.size := rfl

@[simp] theorem logger_invalidate (g : Registry) (i : LoggerId) :
    g.invalidate.logger i = g.logger i := rfl

/-- A place without a logger shows a blank one. -/
theorem logger_of_size_le (h : g.loggers.size ≤ i) : g.logger i = { name := rootName } := by
  simp [logger, Array.getElem?_eq_none h]

/-- A change of one logger leaves the others alone. -/
theorem logger_modify (g : Registry) (i j : LoggerId) (f : Logger → Logger) :
    (g.modify i f).logger j =
      if i = j ∧ j < g.loggers.size then f (g.logger j) else g.logger j := by
  by_cases hj : j < g.loggers.size
  · by_cases hij : i = j
    · subst hij
      simp [logger, modify, Array.getElem_modify, hj]
    · simp [logger, modify, Array.getElem?_modify, hij]
  · rw [if_neg (fun h => hj h.2), logger_of_size_le (Nat.le_of_not_lt hj)]
    exact logger_of_size_le (by simpa using Nat.le_of_not_lt hj)

/-- The logger that is changed. -/
theorem logger_modify_self (h : i < g.loggers.size) (f : Logger → Logger) :
    (g.modify i f).logger i = f (g.logger i) := by
  rw [logger_modify, if_pos ⟨rfl, h⟩]

/-- A logger that is not changed. -/
theorem logger_modify_of_ne (h : i ≠ j) (f : Logger → Logger) :
    (g.modify i f).logger j = g.logger j := by
  rw [logger_modify, if_neg (fun hij => h hij.1)]

/-- What a change keeps of every logger, it keeps of each. -/
theorem logger_modify_congr {α : Type} (view : Logger → α) (f : Logger → Logger)
    (h : ∀ x, view (f x) = view x) (g : Registry) (i j : LoggerId) :
    view ((g.modify i f).logger j) = view (g.logger j) := by
  rw [logger_modify]
  split
  · exact h _
  · rfl

/-! ## Parents -/

/-- A parent is a logger that lives. -/
theorem parent?_eq_some_iff : g.parent? i = some p ↔
    (g.logger i).parent? = some p ∧ p < g.loggers.size ∧ (g.logger p).gone = false := by
  simp [parent?, Option.filter_eq_some_iff]

/-- A parent has its place in the registry. -/
theorem parent?_lt (h : g.parent? i = some p) : p < g.loggers.size :=
  (parent?_eq_some_iff.mp h).2.1

/-- A parent depends on the link and on who lives, on nothing else. -/
theorem parent?_congr (hsize : g'.loggers.size = g.loggers.size)
    (hgone : ∀ j, (g'.logger j).gone = (g.logger j).gone)
    (hlink : (g'.logger i).parent? = (g.logger i).parent?) : g'.parent? i = g.parent? i := by
  simp only [parent?, hsize, hlink, hgone]

/-- **Live**: every logger lives, and links lead to loggers of the registry. -/
structure Live (g : Registry) : Prop where
  alive : ∀ i, (g.logger i).gone = false
  link_lt : ∀ i p, (g.logger i).parent? = some p → p < g.loggers.size

/-- In a live registry the parent is the one that the link leads to. -/
theorem Live.parent?_eq (h : g.Live) (i : LoggerId) : g.parent? i = (g.logger i).parent? := by
  cases hlink : (g.logger i).parent? with
  | none => simp [parent?, hlink]
  | some p => exact parent?_eq_some_iff.mpr ⟨hlink, h.link_lt i p hlink, h.alive p⟩

/-- **Whole**: live, with a root, and with a link from every logger but the root. -/
structure Whole (g : Registry) : Prop extends Live g where
  root_lt : rootId < g.loggers.size
  linked : ∀ i, i < g.loggers.size → i ≠ rootId → (g.logger i).parent?.isSome

/-! ## The way upwards -/

/-- **Acyclic**: no logger is above itself. -/
def Acyclic (g : Registry) : Prop := Loopless g.parent?

/-- Where all parents are older than their children there is no loop. -/
theorem acyclic_of_parent_lt (h : ∀ i < g.loggers.size, ∀ p ∈ g.parent? i, p < i) : g.Acyclic := by
  have hstep : ∀ i p, g.parent? i = some p → p < i := by
    intro i p hp
    by_cases hi : i < g.loggers.size
    · exact h i hi p hp
    · have hblank := logger_of_size_le (Nat.le_of_not_lt hi)
      simp [parent?, hblank] at hp
  intro i hi
  -- Along any number of steps the places fall, so none comes back.
  have hlt : ∀ j, Relation.TransGen (Leads g.parent?) i j → j < i := by
    intro j hj
    induction hj with
    | single hp => exact hstep _ _ hp
    | tail _ hp ih => exact Nat.lt_trans (hstep _ _ hp) ih
  exact Nat.lt_irrefl i (hlt i hi)

/-- The logger that a record goes on to from a logger. -/
def onward? (g : Registry) (i : LoggerId) : Option LoggerId :=
  if (g.logger i).propagate then g.parent? i else none

/-- A record goes on to parents only. -/
theorem parent?_of_onward? (h : g.onward? i = some p) : g.parent? i = some p := by
  unfold onward? at h
  split at h
  · exact h
  · cases h

/-- A walk with enough steps takes the whole trail. -/
theorem lineUpTo_eq_of_trail {l : List LoggerId} (h : Trail g.parent? i l) :
    ∀ {n : Nat}, l.length ≤ n → g.lineUpTo n i = l := by
  induction h with
  | last hnone =>
    intro n hn
    obtain ⟨m, rfl⟩ := Nat.exists_eq_add_of_le' hn
    simp [lineUpTo, hnone]
  | step hsome _ ih =>
    intro n hn
    obtain ⟨m, rfl⟩ := Nat.exists_eq_add_of_le' (Nat.le_trans (Nat.succ_le_succ (Nat.zero_le _)) hn)
    simp only [lineUpTo, hsome]
    rw [ih (Nat.le_of_succ_le_succ hn)]

/-- The way of a record with enough steps is the whole trail. -/
theorem routeUpTo_eq_of_trail {l : List LoggerId} (h : Trail g.onward? i l) :
    ∀ {n : Nat}, l.length ≤ n → g.routeUpTo n i = l := by
  induction h with
  | @last i hnone =>
    intro n hn
    obtain ⟨m, rfl⟩ := Nat.exists_eq_add_of_le' hn
    by_cases hprop : (g.logger i).propagate
    · have hparent : g.parent? i = none := by simpa [onward?, hprop] using hnone
      simp [routeUpTo, hprop, hparent]
    · simp [routeUpTo, hprop]
  | @step i p l hsome _ ih =>
    intro n hn
    obtain ⟨m, rfl⟩ := Nat.exists_eq_add_of_le' (Nat.le_trans (Nat.succ_le_succ (Nat.zero_le _)) hn)
    have hprop : (g.logger i).propagate = true := by
      by_contra hoff
      simp [onward?, hoff] at hsome
    simp only [routeUpTo, hprop, if_true, parent?_of_onward? hsome]
    rw [ih (Nat.le_of_succ_le_succ hn)]

/-- Without a loop the line of a logger is its whole trail. -/
theorem Acyclic.trail_line (h : g.Acyclic) (i : LoggerId) : Trail g.parent? i (g.line i) := by
  obtain ⟨l, hl⟩ := Loopless.exists_trail h (fun _ _ => parent?_lt) i
  rw [line, lineUpTo_eq_of_trail hl (hl.length_le h fun _ _ => parent?_lt)]
  exact hl

/-- Without a loop the route of a record is its whole trail. -/
theorem Acyclic.trail_route (h : g.Acyclic) (i : LoggerId) : Trail g.onward? i (g.route i) := by
  have hloop : Loopless g.onward? := Loopless.mono h fun _ _ => parent?_of_onward?
  have hbound : ∀ i p, g.onward? i = some p → p < g.loggers.size :=
    fun _ _ hp => parent?_lt (parent?_of_onward? hp)
  obtain ⟨l, hl⟩ := hloop.exists_trail hbound i
  rw [route, routeUpTo_eq_of_trail hl (hl.length_le hloop hbound)]
  exact hl

/-- Without a loop the line of a logger holds whatever its links lead to. -/
theorem Acyclic.mem_line_iff (h : g.Acyclic) :
    j ∈ g.line i ↔ Relation.ReflTransGen (Leads g.parent?) i j :=
  (h.trail_line i).mem_iff

/-- Lines depend on the parents and on the number of loggers, on nothing else. -/
theorem line_congr (hsize : g'.loggers.size = g.loggers.size)
    (hparent : ∀ j, g'.parent? j = g.parent? j) (i : LoggerId) : g'.line i = g.line i := by
  have hup : ∀ n i, g'.lineUpTo n i = g.lineUpTo n i := by
    intro n
    induction n with
    | zero => intro i; rfl
    | succ n ih =>
      intro i
      simp only [lineUpTo, hparent]
      cases g.parent? i with
      | none => rfl
      | some p => simp only [ih]
  rw [line, line, hsize, hup]

/-- In a registry that is whole and without a loop, every logger hangs off the
    root. -/
theorem Acyclic.reaches_root (h : g.Acyclic) (hwhole : g.Whole) (hi : i < g.loggers.size) :
    Relation.ReflTransGen (Leads g.parent?) i rootId := by
  -- By induction on the trail: a last logger that is not the root would have a link.
  have htrail := h.trail_line i
  generalize g.line i = l at htrail
  induction htrail with
  | @last i hnone =>
    by_contra hreach
    have hne : i ≠ rootId := fun heq => hreach (heq ▸ .refl)
    have hlink := hwhole.linked i hi hne
    rw [← hwhole.parent?_eq, hnone] at hlink
    cases hlink
  | step hsome _ ih => exact .head hsome (ih (parent?_lt hsome))

end Logbook.Registry
