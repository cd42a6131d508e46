import Mathlib.Data.List.Nodup
import Mathlib.Logic.Relation
import Mathlib.Order.WellFoundedSet

/-! # Trails

    A function that gives each place at most one next place leads along a trail
    from every place.  Where no place leads back to itself and only finitely many
    places are led to, every trail comes to an end, and it is no longer than the
    number of those places and the start together.
-/

namespace Logbook

variable {next : Nat → Option Nat} {i j p n : Nat} {l l' : List Nat}

/-- One place leads to another in one step. -/
def Leads (next : Nat → Option Nat) (i p : Nat) : Prop := next i = some p

/-- **Loopless**: no place leads back to itself. -/
def Loopless (next : Nat → Option Nat) : Prop := ∀ i, ¬ Relation.TransGen (Leads next) i i

/-- **A trail**: the places from a given one on, up to one that leads nowhere. -/
inductive Trail (next : Nat → Option Nat) : Nat → List Nat → Prop where
  | last {i : Nat} (h : next i = none) : Trail next i [i]
  | step {i p : Nat} {l : List Nat} (h : next i = some p) (rest : Trail next p l) :
      Trail next i (i :: l)

namespace Trail

/-- There is one trail at most. -/
theorem unique (h : Trail next i l) (h' : Trail next i l') : l = l' := by
  induction h generalizing l' with
  | last hnone =>
    cases h' with
    | last _ => rfl
    | step hsome _ => rw [hnone] at hsome; cases hsome
  | step hsome _ ih =>
    cases h' with
    | last hnone => rw [hsome] at hnone; cases hnone
    | step hsome' rest' =>
      rw [hsome] at hsome'
      injection hsome' with hp
      subst hp
      rw [ih rest']

/-- A trail starts at its start. -/
theorem exists_cons (h : Trail next i l) : ∃ rest, l = i :: rest := by
  cases h with
  | last _ => exact ⟨[], rfl⟩
  | step _ rest => exact ⟨_, rfl⟩

/-- A trail holds exactly the places that its start leads to in any number of steps. -/
theorem mem_iff (h : Trail next i l) : j ∈ l ↔ Relation.ReflTransGen (Leads next) i j := by
  induction h with
  | last hnone =>
    rw [List.mem_singleton]
    constructor
    · rintro rfl
      exact .refl
    · intro hreach
      rcases Relation.ReflTransGen.cases_head hreach with heq | ⟨p, hp, -⟩
      · exact heq.symm
      · rw [Leads, hnone] at hp; cases hp
  | @step i p l hsome _ ih =>
    rw [List.mem_cons, ih]
    constructor
    · rintro (rfl | hreach)
      · exact .refl
      · exact .head hsome hreach
    · intro hreach
      rcases Relation.ReflTransGen.cases_head hreach with heq | ⟨q, hq, hrest⟩
      · exact .inl heq.symm
      · rw [Leads, hsome] at hq
        injection hq with hq
        subst hq
        exact .inr hrest

/-- A trail without a loop holds no place twice. -/
theorem nodup (hloop : Loopless next) (h : Trail next i l) : l.Nodup := by
  induction h with
  | last _ => exact List.nodup_singleton _
  | step hsome rest ih =>
    refine List.nodup_cons.mpr ⟨fun hmem => ?_, ih⟩
    exact hloop _ (Relation.TransGen.head' hsome (rest.mem_iff.mp hmem))

/-- All places of a trail but its start are led to. -/
theorem lt_of_mem_tail (hbound : ∀ i p, next i = some p → p < n) (h : Trail next i l) :
    ∀ j ∈ l.tail, j < n := by
  induction h with
  | last _ => intro j hj; cases hj
  | @step i p l hsome rest ih =>
    intro j hj
    obtain ⟨tail, rfl⟩ := rest.exists_cons
    rcases List.mem_cons.mp hj with rfl | hin
    · exact hbound _ _ hsome
    · exact ih j hin

/-- A trail without a loop is at most one longer than the number of places led to. -/
theorem length_le (hloop : Loopless next) (hbound : ∀ i p, next i = some p → p < n)
    (h : Trail next i l) : l.length ≤ n + 1 := by
  -- The tail holds different places, all of them below the bound.
  have htail : l.tail.Nodup := (h.nodup hloop).tail
  have hsub : l.tail ⊆ List.range n := fun j hj =>
    List.mem_range.mpr (h.lt_of_mem_tail hbound j hj)
  have hlen := (List.subperm_of_subset htail hsub).length_le
  rw [List.length_tail, List.length_range] at hlen
  omega

end Trail

/-! ## The end of a trail -/

/-- Without a loop and with finitely many places led to, steps cannot go on for ever. -/
theorem Loopless.wellFounded (hloop : Loopless next) (hbound : ∀ i p, next i = some p → p < n) :
    WellFounded fun p i => next i = some p := by
  let below : Nat → Nat → Prop := Relation.TransGen fun p i => next i = some p
  -- No loop makes this a strict order, which is well-founded on finitely many places.
  have hirrefl : ∀ i, ¬ below i i := fun i h => hloop i (Relation.transGen_swap.mp h)
  have : IsStrictOrder Nat below :=
    { irrefl := hirrefl, trans := fun _ _ _ => Relation.TransGen.trans }
  have hon : Set.WellFoundedOn {j | j < n} below := (Set.finite_lt_nat n).wellFoundedOn
  have hrange : ∀ p, p < n → Acc (fun p i => next i = some p) p := by
    intro p
    refine (Set.wellFoundedOn_iff.mp hon).induction
      (C := fun p => p < n → Acc (fun p i => next i = some p) p) p ?_
    intro p ih hp
    exact Acc.intro p fun q hq =>
      ih q ⟨.single hq, hbound p q hq, hp⟩ (hbound p q hq)
  exact ⟨fun i => Acc.intro i fun p hp => hrange p (hbound i p hp)⟩

/-- Steps that cannot go on for ever make no loop. -/
theorem loopless_of_wellFounded (h : WellFounded fun p i => next i = some p) : Loopless next :=
  fun i hi => h.transGen.irrefl.irrefl i (Relation.transGen_swap.mp hi)

/-- Without a loop every trail comes to an end. -/
theorem Loopless.exists_trail (hloop : Loopless next) (hbound : ∀ i p, next i = some p → p < n)
    (i : Nat) : ∃ l, Trail next i l := by
  refine (hloop.wellFounded hbound).induction (C := fun i => ∃ l, Trail next i l) i ?_
  intro i ih
  cases hnext : next i with
  | none => exact ⟨[i], .last hnext⟩
  | some p =>
    obtain ⟨l, hl⟩ := ih p hnext
    exact ⟨i :: l, .step hnext hl⟩

/-- Fewer steps make no new loop. -/
theorem Loopless.mono {next' : Nat → Option Nat} (hloop : Loopless next)
    (h : ∀ i p, next' i = some p → next i = some p) : Loopless next' :=
  fun i hi => hloop i (Relation.TransGen.mono h _ _ hi)

/-! ## Other steps -/

/-- **Ends**: the steps from a place come to an end. -/
def Ends (next : Nat → Option Nat) (i : Nat) : Prop := Acc (fun p i => next i = some p) i

/-- Where the next place ends, the place itself does. -/
theorem Ends.of_next (h : ∀ p, next i = some p → Ends next p) : Ends next i := Acc.intro i h

/-- Steps that change nowhere on the way from a place end there as before. -/
theorem Ends.of_unchanged {next' : Nat → Option Nat} (h : Ends next i)
    (hsame : ∀ j, Relation.ReflTransGen (Leads next) i j → next' j = next j) : Ends next' i := by
  induction h with
  | intro i _ ih =>
    refine Ends.of_next fun p hp => ?_
    rw [hsame i .refl] at hp
    exact ih p hp fun j hj => hsame j (.head hp hj)

/-- Without a loop, steps that go on as before or to a place from which they end
    make no loop. -/
theorem Loopless.redirect {next' : Nat → Option Nat} (hloop : Loopless next)
    (hbound : ∀ i p, next i = some p → p < n)
    (h : ∀ j, next' j = next j ∨ ∃ t, next' j = some t ∧ Ends next' t) : Loopless next' := by
  refine loopless_of_wellFounded ⟨fun i => ?_⟩
  refine (hloop.wellFounded hbound).induction (C := Ends next') i fun i ih => ?_
  refine Ends.of_next fun p hp => ?_
  rcases h i with hsame | ⟨t, ht, hends⟩
  · exact ih p (hsame ▸ hp)
  · rw [ht] at hp
    injection hp with hp
    exact hp ▸ hends

/-- A way still leads to a goal that its last place now leads to, if its other
    places go on as before or lead to the goal as well. -/
theorem leads_to_goal {next' : Nat → Option Nat} {goal : Nat}
    (h : Relation.ReflTransGen (Leads next) i j) (hgoal : next' j = some goal)
    (hsame : ∀ k, k = goal ∨ next' k = next k ∨ next' k = some goal) :
    Relation.ReflTransGen (Leads next') i goal := by
  induction h using Relation.ReflTransGen.head_induction_on with
  | refl => exact .single hgoal
  | @head i k hik _ ih =>
    rcases hsame i with rfl | heq | heq
    · exact .refl
    · exact .head (heq.trans hik) ih
    · exact .single heq

end Logbook
