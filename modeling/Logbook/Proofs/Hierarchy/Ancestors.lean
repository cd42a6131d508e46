import Logbook.Proofs.Hierarchy.InOrder

/-! # Ancestors

    The ancestors of a logger are those that its parents lead to, one after the other.  In a
    registry in order they are the registered loggers with the names above its own, however
    the names are dotted and in whatever order the loggers were made.  A filter by name
    accepts the records of just these loggers and of the one that has the name itself.
-/

namespace Logbook

namespace NameFilter

/-- A filter with a name accepts what is logged under that name and under those below it. -/
theorem accepts_iff {f : NameFilter} {r : Record} (hf : f.name ≠ "") :
    f.accepts r = true ↔ f.name = r.name ∨ NameAbove f.name r.name := by
  simp [accepts, hf, isBelow_iff hf]

end NameFilter

namespace Registry

variable {g g' : Registry} {i j a p : LoggerId} {n m : String}

/-- **Ancestor**: a logger on the way up from another one over its parents. -/
def Ancestor (g : Registry) (a i : LoggerId) : Prop := Relation.TransGen (Leads g.parent?) i a

/-! ## The root -/

/-- The parent of the root is a matter of its link. -/
theorem InOrder.parent?_root (h : g.InOrder) (hroot : (g.logger rootId).parent? = none) :
    g.parent? rootId = none := by
  rw [h.whole.parent?_eq, hroot]

/-- Nobody hangs the root below anything. -/
theorem Grown.root_link (h : g.Grown) : (g.logger rootId).parent? = none := by
  induction h with
  | new lastResort? => rfl
  | @call g c before hset ih =>
    rcases g.call_cases c with ⟨name, rfl, hempty, hroot, -⟩ | ⟨i, p, hc, -⟩ | hsame
    · have hasked : Asked g (g.getLogger name).2 name (g.getLogger name).1 :=
        before.inOrder.asked ⟨hempty, hroot⟩
      rw [Registry.call, hasked.root, ih]
    · exact absurd hc (hset i p)
    · rw [hsame.link, ih]
  | @logEvent g i level e caller s before ih =>
    rw [(g.sameTree_logEvent i level e caller s).link, ih]
  | @handle g i r s before ih => rw [(g.sameTree_handle i r s).link, ih]
  | @callHandlers g i r s before ih => rw [(g.sameTree_callHandlers i r s).link, ih]

/-! ## Ancestors and names -/

/-- A logger that has a parent other than the root hangs below one with a name above its own. -/
theorem InOrder.nameAbove_of_parent (h : g.InOrder) (hi : g.loggerCalled? n = some i)
    (hp : g.parent? i = some p) (hp0 : p ≠ rootId) :
    ∃ q, g.loggerCalled? q = some p ∧ NameAbove q n := by
  obtain ⟨p', hp', hnear⟩ := h.placed.nearest_parent h.whole h.registered hi
  obtain rfl : p' = p := Option.some.inj (hp'.symm.trans hp)
  rcases hnear with ⟨q, hq, habove, -⟩ | ⟨heq, -⟩
  · exact ⟨q, hq, habove⟩
  · exact absurd heq hp0

/-- Nothing is on the way up from the root. -/
theorem not_ancestor_of_root (hroot : g.parent? rootId = none) : ¬ g.Ancestor a rootId := by
  intro h
  obtain ⟨p, hp, -⟩ := Relation.TransGen.head'_iff.mp h
  rw [Leads, hroot] at hp
  cases hp

/-- The ancestors of a logger have names above its own. -/
theorem InOrder.nameAbove_of_ancestor (h : g.InOrder) (hroot : (g.logger rootId).parent? = none)
    (hn : g.loggerCalled? n = some a) (ha : g.Ancestor a i) (hm : g.loggerCalled? m = some i) :
    NameAbove n m := by
  induction ha using Relation.TransGen.head_induction_on generalizing m with
  | single hp =>
    obtain ⟨-, ha0, hname, -⟩ := h.registered.called n a hn
    obtain ⟨q, hq, habove⟩ := h.nameAbove_of_parent hm hp ha0
    obtain rfl : q = n := (h.registered.called q a hq).2.2.1.symm.trans hname
    exact habove
  | @head i p hp hrest ih =>
    have hp0 : p ≠ rootId := by
      rintro rfl
      exact not_ancestor_of_root (h.parent?_root hroot) hrest
    obtain ⟨q, hq, habove⟩ := h.nameAbove_of_parent hm hp hp0
    exact (ih hq).trans habove

/-- A registered logger with a name above that of another one is its ancestor: the nearest
    one is the parent, and the others are above that. -/
theorem InOrder.ancestor_of_nameAbove (h : g.InOrder) (hn : g.loggerCalled? n = some a)
    (habove : NameAbove n m) (hm : g.loggerCalled? m = some i) : g.Ancestor a i := by
  -- By the length of the name: the parent has a shorter one, which is the given name or below it.
  induction hlength : m.length using Nat.strong_induction_on generalizing m i with
  | _ length ih =>
  obtain ⟨p, hp, ⟨q, hq, hqm, hlongest⟩ | ⟨-, hnone⟩⟩ :=
    h.placed.nearest_parent h.whole h.registered hm
  · have hle : n.length ≤ q.length := hlongest n (hn ▸ rfl) habove
    rcases Nat.lt_or_eq_of_le hle with hlt | heq
    · have hnq : NameAbove n q := habove.of_length_lt hqm hlt
      exact .head hp (ih q.length (hlength ▸ hqm.length_lt) hnq hq rfl)
    · obtain rfl := habove.eq_of_length_eq hqm heq
      obtain rfl := Option.some.inj (hn.symm.trans hq)
      exact .single hp
  · rw [hnone n habove] at hn
    cases hn

/-- **The ancestors of a logger** are the registered loggers with names above its own. -/
theorem InOrder.ancestor_iff (h : g.InOrder) (hroot : (g.logger rootId).parent? = none)
    (hn : g.loggerCalled? n = some a) (hm : g.loggerCalled? m = some i) :
    g.Ancestor a i ↔ NameAbove n m :=
  ⟨fun ha => h.nameAbove_of_ancestor hroot hn ha hm,
    fun habove => h.ancestor_of_nameAbove hn habove hm⟩

end Registry

end Logbook
