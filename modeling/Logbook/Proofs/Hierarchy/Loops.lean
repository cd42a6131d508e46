import Logbook.Proofs.Hierarchy.Registered

/-! # Loops in the tree

    Whoever sets a parent is refused if that would close a loop.  Whoever asks for
    a logger is not: a new logger gets its parent by its name, and takes under it
    loggers that waited for the name, wherever their parents were set to.  If the
    nearest logger above the new one hangs, by a parent that was set, below one of
    those, the new logger closes a loop.  Nothing else does.
-/

namespace Logbook.Registry

variable {g g' : Registry} {i j p : LoggerId} {name : String} {c : Call}
  {steps : List (Registry × Call)}

/-! ## A new logger -/

/-- **Closing a loop**: a call makes a logger and puts under it a logger that is on
    the way upwards from the parent of the new one. -/
def ClosesLoop (g : Registry) (c : Call) : Prop :=
  ∃ name child, c = .getLogger name ∧ name ≠ "" ∧ name ≠ rootName ∧
    g.loggerCalled? name = none ∧ child ∈ g.waiting name ∧ g.adopts name child ∧
    Relation.ReflTransGen (Leads g.parent?) ((g.above? name).getD rootId) child

/-- The parents after a creation. -/
theorem Created.parent?_eq (h : Created g g' name) (hwhole : g.Whole) (hreg : g.Registered)
    (j : LoggerId) : g'.parent? j =
      if j = g.loggers.size then some ((g.above? name).getD rootId)
      else if j ∈ g.waiting name ∧ g.adopts name j then some g.loggers.size
      else g.parent? j := by
  rw [(h.whole hwhole hreg).parent?_eq, hwhole.parent?_eq, h.link_eq]

/-- A logger that is not there yet is on no way upwards. -/
theorem lt_size_of_reach (hp : p < g.loggers.size)
    (h : Relation.ReflTransGen (Leads g.parent?) p j) : j < g.loggers.size := by
  rcases Relation.ReflTransGen.cases_tail h with heq | ⟨k, -, hk⟩
  · exact heq ▸ hp
  · exact parent?_lt hk

/-- A new logger makes no loop exactly if none of those that are put under it is on
    the way upwards from its parent. -/
theorem Created.acyclic_iff (h : Created g g' name) (hwhole : g.Whole) (hreg : g.Registered)
    (hacyclic : g.Acyclic) : g'.Acyclic ↔
      ∀ child, child ∈ g.waiting name → g.adopts name child →
        ¬ Relation.ReflTransGen (Leads g.parent?) ((g.above? name).getD rootId) child := by
  have hparent := h.parent?_eq hwhole hreg
  have hself : g'.parent? g.loggers.size = some ((g.above? name).getD rootId) := by
    rw [hparent, if_pos rfl]
  have habove : (g.above? name).getD rootId < g.loggers.size := hreg.above_lt hwhole name
  have hadopted : ∀ child, child ∈ g.waiting name → g.adopts name child →
      g'.parent? child = some g.loggers.size := by
    intro child hwait hadopts
    have hne : child ≠ g.loggers.size := Nat.ne_of_lt (hreg.waits name child hwait).1
    rw [hparent, if_neg hne, if_pos ⟨hwait, hadopts⟩]
  constructor
  · -- The way up from the parent of the new logger leads back to the new one.
    intro hacyclic' child hwait hadopts hreach
    have hback := leads_to_goal hreach (hadopted child hwait hadopts) fun k => by
      rw [hparent]
      split
      · next hk => exact .inl hk
      · split
        · exact .inr (.inr rfl)
        · exact .inr (.inl rfl)
    exact hacyclic' _ (.head' hself hback)
  · intro hnone
    have hends : Ends g.parent? ((g.above? name).getD rootId) :=
      (hacyclic.wellFounded fun _ _ => parent?_lt).apply _
    -- The way up from the parent of the new logger is as it was.
    have hends' : Ends g'.parent? ((g.above? name).getD rootId) := by
      refine hends.of_unchanged fun j hj => ?_
      have hne : j ≠ g.loggers.size := Nat.ne_of_lt (lt_size_of_reach habove hj)
      rw [hparent, if_neg hne, if_neg fun hj' => hnone j hj'.1 hj'.2 hj]
    have hnew : Ends g'.parent? g.loggers.size := by
      refine Ends.of_next fun q hq => ?_
      rw [hself] at hq
      injection hq with hq
      exact hq ▸ hends'
    refine hacyclic.redirect (fun _ _ => parent?_lt) fun j => ?_
    rw [hparent]
    split
    · exact .inr ⟨_, rfl, hends'⟩
    · split
      · exact .inr ⟨_, rfl, hnew⟩
      · exact .inl rfl

/-! ## Other calls -/

/-- A parent that is accepted makes no loop. -/
theorem acyclic_relinked (hwhole : g.Whole) (hacyclic : g.Acyclic) (hi : i < g.loggers.size)
    (hp : p < g.loggers.size) (hline : i ∉ g.line p) :
    (g.modify i ({ · with parent? := some p })).invalidate.Acyclic := by
  have hparent : ∀ j, (g.modify i ({ · with parent? := some p })).invalidate.parent? j =
      if j = i then some p else g.parent? j := fun j => by
    rw [(hwhole.relinked hi hp).parent?_eq, hwhole.parent?_eq, link_setParent hi]
  have hends : Ends g.parent? p := (hacyclic.wellFounded fun _ _ => parent?_lt).apply p
  -- The way up from the new parent does not meet the logger, so it is as it was.
  refine hacyclic.redirect (fun _ _ => parent?_lt) fun j => ?_
  by_cases hj : j = i
  · refine .inr ⟨p, by rw [hparent, if_pos hj], hends.of_unchanged fun k hk => ?_⟩
    rw [hparent, if_neg]
    rintro rfl
    exact hline (hacyclic.mem_line_iff.mpr hk)
  · exact .inl (by rw [hparent, if_neg hj])

/-- The same tree has the same loops. -/
theorem SameTree.acyclic_iff (h : SameTree g g') : g'.Acyclic ↔ g.Acyclic := by
  have heq : g'.parent? = g.parent? := funext h.parent?_eq
  rw [Acyclic, Acyclic, heq]

/-- A call on a tree without a loop makes one exactly if it closes it. -/
theorem acyclic_call_iff (hwhole : g.Whole) (hreg : g.Registered) (hacyclic : g.Acyclic)
    (possible : c.Possible g) : (g.call c).Acyclic ↔ ¬ ClosesLoop g c := by
  rcases call_cases g c with
    ⟨name, rfl, hempty, hroot, hfresh, heq⟩ | ⟨i, p, rfl, hline, heq⟩ | hsame
  · rw [heq, (hreg.created hwhole name).acyclic_iff hwhole hreg hacyclic]
    constructor
    · rintro hnone ⟨name', child, hname, -, -, -, hwait, hadopts, hreach⟩
      injection hname with hname
      subst hname
      exact hnone child hwait hadopts hreach
    · intro hnone child hwait hadopts hreach
      exact hnone ⟨name, child, rfl, hempty, hroot, hfresh, hwait, hadopts, hreach⟩
  · have hi : i < g.loggers.size := possible i List.mem_cons_self
    have hp : p < g.loggers.size := possible p (by simp [Call.loggers])
    rw [heq]
    refine iff_of_true (acyclic_relinked hwhole hacyclic hi hp hline) ?_
    rintro ⟨name, child, hname, -⟩
    cases hname
  · refine iff_of_true (hsame.acyclic_iff.mpr hacyclic) ?_
    rintro ⟨name, child, rfl, hempty, hroot, hfresh, -⟩
    have hmade : g.call (.getLogger name) = (g.create name (g.waiting name)).2 := by
      rw [call, getLogger_eq, if_neg (not_or.mpr ⟨hempty, hroot⟩), hfresh]
    have hsize := hsame.size
    rw [hmade, (hreg.created hwhole name).size] at hsize
    exact Nat.succ_ne_self _ hsize

/-! ## Runs -/

/-- A new registry has no links. -/
theorem acyclic_new (lastResort? : Option HandlerId) : Acyclic { lastResort? } := by
  refine acyclic_of_parent_lt fun i hi p hp => ?_
  rw [Nat.lt_one_iff.mp hi] at hp
  cases hp

/-- **Where loops come from.**  A run stays without a loop exactly as long as no call
    makes a logger that closes one.  In every such state all loggers hang off the
    root; and a parent that is refused leaves everything as it was. -/
theorem Run.acyclic_iff_not_closesLoop (h : Run steps g) :
    (((∀ s ∈ steps, s.1.Acyclic) ∧ g.Acyclic) ↔ ∀ s ∈ steps, ¬ ClosesLoop s.1 s.2) ∧
    (g.Acyclic → ∀ i < g.loggers.size, Relation.ReflTransGen (Leads g.parent?) i rootId) ∧
    ∀ i p e, g.setParent i p = .error e → g.call (.setParent i p) = g := by
  refine ⟨?_, fun hacyclic i hi => hacyclic.reaches_root h.whole_registered.1 hi,
    fun i p e he => by rw [Registry.call, he]⟩
  induction h with
  | new lastResort? => simp [acyclic_new lastResort?]
  | @call steps g c before possible ih =>
    obtain ⟨hwhole, hreg⟩ := before.whole_registered
    simp only [List.forall_mem_append, List.forall_mem_singleton]
    rw [← ih]
    exact and_congr_right fun h => acyclic_call_iff hwhole hreg h.2 possible

/-- Four calls that leave a tree without a loop: a logger hangs below one that is
    deeper by its name.  To ask for the name between would close a loop. -/
theorem acyclic_before_getLogger :
    let g := (((({} : Registry).getLogger "a").2.getLogger "a.b.c").2.call
      (.setParent 2 rootId)).call (.setParent 1 2)
    g.Acyclic ∧ Relation.ReflTransGen (Leads g.parent?) 1 rootId ∧
      ClosesLoop g (.getLogger "a.b") := by
  intro g
  have hrun := (((Run.new none).getLogger "a").getLogger "a.b.c").call (.setParent 2 rootId)
    (by decide) |>.call (.setParent 1 2) (by decide)
  obtain ⟨hiff, hroot, -⟩ := hrun.acyclic_iff_not_closesLoop
  have hsafe : ∀ {g : Registry} {name : String}, g.waiting name = [] →
      ¬ ClosesLoop g (.getLogger name) := by
    rintro g name hnone ⟨name', child, hname, -, -, -, hwait, -⟩
    injection hname with hname
    subst hname
    rw [hnone] at hwait
    cases hwait
  have hset : ∀ {g : Registry} {i p : LoggerId}, ¬ ClosesLoop g (.setParent i p) := by
    rintro g i p ⟨_, _, hname, -⟩
    cases hname
  have hacyclic : g.Acyclic := (hiff.mpr (by
    simp only [List.nil_append, List.forall_mem_append, List.forall_mem_singleton]
    exact ⟨⟨⟨hsafe (by decide), hsafe (by decide)⟩, hset⟩, hset⟩)).2
  have hlink : g.parent? 1 = some 2 := by decide
  exact ⟨hacyclic, hroot hacyclic 1 (by decide), "a.b", 2, rfl, by decide, by decide, by decide,
    by decide, by decide, .single hlink⟩

/-- The loop that the fifth call closes: the parents of its loggers never lead to the
    root. -/
theorem loop_through_getLogger :
    let g := ((((({} : Registry).getLogger "a").2.getLogger "a.b.c").2.call
      (.setParent 2 rootId)).call (.setParent 1 2)).getLogger "a.b" |>.2
    (∃ steps, Run steps g ∧ ∀ s ∈ steps, (∃ name, s.2 = .getLogger name) ∨
      ∃ i p, s.2 = .setParent i p) ∧
    Relation.TransGen (Leads g.parent?) 1 1 ∧
    ¬ Relation.ReflTransGen (Leads g.parent?) 1 rootId := by
  intro g
  have hrun := (((Run.new none).getLogger "a").getLogger "a.b.c").call (.setParent 2 rootId)
    (by decide) |>.call (.setParent 1 2) (by decide) |>.getLogger "a.b"
  have h₁ : g.parent? 1 = some 2 := by decide
  have h₂ : g.parent? 2 = some 3 := by decide
  have h₃ : g.parent? 3 = some 1 := by decide
  refine ⟨⟨_, hrun, ?_⟩, .tail (.tail (.single h₁) h₂) h₃, fun hreach => ?_⟩
  · simp
  · have hclosed : ∀ i ∈ [1, 2, 3], ∀ p ∈ g.parent? i, p ∈ [1, 2, 3] := by decide
    have hstay : ∀ j, Relation.ReflTransGen (Leads g.parent?) 1 j → j ∈ [1, 2, 3] := by
      intro j hj
      induction hj with
      | refl => decide
      | tail _ hstep ih => exact hclosed _ ih _ hstep
    exact absurd (hstay rootId hreach) (by decide)

end Logbook.Registry
