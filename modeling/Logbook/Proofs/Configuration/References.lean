import Logbook.Proofs.Configuration.Construction
import Logbook.Proofs.Results
import Mathlib.Logic.Relation

/-! # References between handlers

    Handlers are built in the order of their names, but one that refers to a handler which
    is not there yet waits until all the others have been built.  To wait is contagious: a
    handler waits if it refers to one that is missing, that comes after it or is itself, or
    that waits.  Those that wait are then built in the order of their names.

    So both passes together build the handlers one after the other, first those that do not
    wait and then those that do, and the first reference to a handler that is not there
    ends the work.
-/

namespace Logbook.Configuration

variable {t : Table HandlerEntry} {name r : String} {e : HandlerEntry} {w w' : Wiring}
  {s s' : Store} {before rest after : List (String × HandlerEntry)} {d : Document}

/-! ## Handlers that wait -/

/-- **Deferred**: a handler that refers to one which is undefined, or not of a smaller name,
    or deferred. -/
inductive Deferred (t : Table HandlerEntry) : String → Prop where
  | undefined {name r : String} {e : HandlerEntry} (hentry : t.get? name = some e)
      (hr : r ∈ e.kind.references) (h : r ∉ t.keys) : Deferred t name
  | notSmaller {name r : String} {e : HandlerEntry} (hentry : t.get? name = some e)
      (hr : r ∈ e.kind.references) (h : ¬ r < name) : Deferred t name
  | deferred {name r : String} {e : HandlerEntry} (hentry : t.get? name = some e)
      (hr : r ∈ e.kind.references) (h : Deferred t r) : Deferred t name

/-- A handler is not deferred if all that it refers to is defined, smaller and not deferred. -/
theorem not_deferred_iff (hentry : t.get? name = some e) :
    ¬ Deferred t name ↔ ∀ r ∈ e.kind.references, r ∈ t.keys ∧ r < name ∧ ¬ Deferred t r := by
  constructor
  · intro h r hr
    refine ⟨?_, ?_, fun hdeferred => h (.deferred hentry hr hdeferred)⟩
    · by_contra hundefined
      exact h (.undefined hentry hr hundefined)
    · by_contra hnot
      exact h (.notSmaller hentry hr hnot)
  · intro h hdeferred
    -- Each of the three reasons to wait is one of the three that are excluded.
    cases hdeferred with
    | undefined hentry' hr hundefined =>
      obtain rfl := Option.some.inj (hentry.symm.trans hentry')
      exact hundefined (h _ hr).1
    | notSmaller hentry' hr hnot =>
      obtain rfl := Option.some.inj (hentry.symm.trans hentry')
      exact hnot (h _ hr).2.1
    | deferred hentry' hr hdeferred =>
      obtain rfl := Option.some.inj (hentry.symm.trans hentry')
      exact (h _ hr).2.2 hdeferred

/-- A handler that refers to nothing does not wait. -/
theorem not_deferred_of_references (hentry : t.get? name = some e) (h : e.kind.references = []) :
    ¬ Deferred t name := by
  rw [not_deferred_iff hentry, h]
  simp

/-- **Resolves**: a reference from a deferred handler to one that is there in time. -/
def Resolves (t : Table HandlerEntry) (name r : String) : Prop :=
  r ∈ t.keys ∧ (¬ Deferred t r ∨ r < name)

/-! ## The order of building -/

/-- One handler is built before another: first those that do not wait, and in the order of
    names. -/
def Earlier (t : Table HandlerEntry) (a b : String) : Prop :=
  (¬ Deferred t a ∧ Deferred t b) ∨ ((Deferred t a ↔ Deferred t b) ∧ a < b)

theorem Earlier.asymm {a b : String} (h : Earlier t a b) : ¬ Earlier t b a := by
  rintro (⟨hb, ha⟩ | ⟨hiff, hlt⟩)
  · rcases h with ⟨hna, -⟩ | ⟨hiff, -⟩
    · exact hna ha
    · exact hb (hiff.mp ha)
  · rcases h with ⟨ha, hb⟩ | ⟨-, hlt'⟩
    · exact ha (hiff.mp hb)
    · exact lt_asymm hlt hlt'

open Classical in
/-- The handlers of a table in the order in which they are built. -/
noncomputable def buildOrder (t : Table HandlerEntry) : List (String × HandlerEntry) :=
  t.filter (fun p => ¬ Deferred t p.1) ++ t.filter (fun p => Deferred t p.1)

theorem mem_buildOrder {p : String × HandlerEntry} : p ∈ buildOrder t ↔ p ∈ t := by
  simp only [buildOrder, List.mem_append, List.mem_filter, decide_eq_true_eq, ← and_or_left]
  exact and_iff_left (em' _)

theorem mk_mem_buildOrder_iff (hsorted : t.Sorted) :
    (name, e) ∈ buildOrder t ↔ t.get? name = some e := by
  rw [mem_buildOrder, hsorted.get?_eq_some_iff]

/-- A handler that has its turn is the one of the table under its name. -/
theorem get?_of_turn (hsorted : t.Sorted) (hl : buildOrder t = before ++ (name, e) :: after) :
    t.get? name = some e := by
  rw [← mk_mem_buildOrder_iff hsorted, hl]
  exact List.mem_append_right _ List.mem_cons_self

theorem length_buildOrder (t : Table HandlerEntry) : (buildOrder t).length = t.length := by
  classical
  have hsplit := List.length_eq_length_filter_add (l := t) fun p => decide (¬ Deferred t p.1)
  simp only [decide_not, Bool.not_not] at hsplit
  rw [buildOrder, List.length_append, hsplit]
  simp

/-- The order is one in which each handler is earlier than those behind it. -/
theorem pairwise_buildOrder (hsorted : t.Sorted) :
    (buildOrder t).Pairwise fun p q => Earlier t p.1 q.1 := by
  refine List.pairwise_append.mpr ⟨?_, ?_, ?_⟩
  · refine (List.Pairwise.filter _ hsorted).imp_of_mem ?_
    intro p q hp hq hlt
    simp only [List.mem_filter, decide_eq_true_eq] at hp hq
    exact .inr ⟨iff_of_false hp.2 hq.2, hlt⟩
  · refine (List.Pairwise.filter _ hsorted).imp_of_mem ?_
    intro p q hp hq hlt
    simp only [List.mem_filter, decide_eq_true_eq] at hp hq
    exact .inr ⟨iff_of_true hp.2 hq.2, hlt⟩
  · intro p hp q hq
    simp only [List.mem_filter, decide_eq_true_eq] at hp hq
    exact .inl ⟨hp.2, hq.2⟩

/-- What comes before an entry of an ordered list are the names that the order puts before
    its own. -/
theorem mem_keys_before {R : String → String → Prop} {l : List (String × HandlerEntry)}
    (hasymm : ∀ a b, R a b → ¬ R b a) (hl : l = before ++ (name, e) :: after)
    (hpairwise : l.Pairwise fun p q => R p.1 q.1) :
    r ∈ Table.keys before ↔ r ∈ Table.keys l ∧ R r name := by
  subst hl
  obtain ⟨-, hafter, hcross⟩ := List.pairwise_append.mp hpairwise
  simp only [Table.keys, List.map_append, List.map_cons, List.mem_append, List.mem_cons]
  constructor
  · intro hr
    obtain ⟨p, hp, rfl⟩ := List.mem_map.mp hr
    exact ⟨.inl hr, hcross p hp _ List.mem_cons_self⟩
  · rintro ⟨hr | rfl | hr, hbefore⟩
    · exact hr
    · exact absurd hbefore (hasymm _ _ hbefore)
    · obtain ⟨p, hp, rfl⟩ := List.mem_map.mp hr
      exact absurd hbefore (hasymm _ _ ((List.pairwise_cons.mp hafter).1 p hp))

/-- What a handler finds when its turn comes: all that it refers to, if it does not wait, and
    else what resolves. -/
theorem mem_before_buildOrder (hsorted : t.Sorted)
    (hl : buildOrder t = before ++ (name, e) :: after) (hr : r ∈ e.kind.references) :
    r ∈ Table.keys before ↔ Deferred t name → Resolves t name r := by
  have hkeys : r ∈ Table.keys (buildOrder t) ↔ r ∈ t.keys := by
    simp only [Table.keys, List.mem_map, mem_buildOrder]
  rw [mem_keys_before (R := Earlier t) (fun _ _ => Earlier.asymm) hl (pairwise_buildOrder hsorted),
    hkeys]
  by_cases hdeferred : Deferred t name
  · simp only [Resolves, Earlier, hdeferred, forall_const, and_true, iff_true]
    tauto
  · have hentry := get?_of_turn hsorted hl
    obtain ⟨hdefined, hlt, hnot⟩ := (not_deferred_iff hentry).mp hdeferred r hr
    refine iff_of_true ⟨hdefined, .inr ⟨iff_of_false hnot hdeferred, hlt⟩⟩ ?_
    exact fun h => absurd h hdeferred

/-! ## Two passes -/

/-- A handler has to wait in the first pass exactly if it is deferred. -/
theorem isPending_iff (hsorted : t.Sorted) (ht : t = before ++ (name, e) :: after)
    (hw : ∀ n, n ∈ w.handlers.keys ↔ n ∈ Table.keys before ∧ ¬ Deferred t n) :
    w.isPending e.kind = true ↔ Deferred t name := by
  have hentry : t.get? name = some e := by
    rw [hsorted.get?_eq_some_iff, ht]
    exact List.mem_append_right _ List.mem_cons_self
  have hbefore : ∀ r, r ∈ Table.keys before ↔ r ∈ t.keys ∧ r < name := fun r =>
    mem_keys_before (R := (· < ·)) (fun _ _ => lt_asymm) ht hsorted
  rw [← not_iff_not, not_deferred_iff hentry]
  simp only [Wiring.isPending, List.any_eq_true, Option.isNone_iff_eq_none, not_exists, not_and,
    ← ne_eq, ← Option.isSome_iff_ne_none, Table.isSome_get?_iff, hw, hbefore, and_assoc]

open Classical in
/-- The first pass builds those that do not wait, and tells which do. -/
theorem buildReady_eq (hsorted : t.Sorted) (ht : t = before ++ rest)
    (hw : ∀ n, n ∈ w.handlers.keys ↔ n ∈ Table.keys before ∧ ¬ Deferred t n) :
    Wiring.buildReady rest w s =
      match Wiring.buildHandlers (rest.filter fun p => ¬ Deferred t p.1) w s with
      | (.error fault, w, s) => (.error fault, w, s)
      | (.ok (), w, s) => (.ok (rest.filter fun p => Deferred t p.1), w, s) := by
  induction rest generalizing before w s with
  | nil => rfl
  | cons head rest ih =>
    obtain ⟨name, e⟩ := head
    have hnext : t = (before ++ [(name, e)]) ++ rest := by simp [ht]
    have hpending := isPending_iff hsorted ht hw
    have hkeys : ∀ n, n ∈ Table.keys (before ++ [(name, e)]) ↔
        n ∈ Table.keys before ∨ n = name := by
      simp [Table.keys]
    unfold Wiring.buildReady
    by_cases hdeferred : Deferred t name
    · -- It waits, so that the names of the wiring are still those that do not.
      have hstep := ih (w := w) (s := s) hnext (by
        intro n
        rw [hw, hkeys, or_and_right]
        refine (or_iff_left ?_).symm
        rintro ⟨rfl, hnot⟩
        exact hnot hdeferred)
      rw [if_pos (hpending.mpr hdeferred), hstep,
        List.filter_cons_of_neg (by simpa using hdeferred),
        List.filter_cons_of_pos (by simpa using hdeferred)]
      rcases Wiring.buildHandlers (rest.filter fun p => ¬ Deferred t p.1) w s with
        ⟨_ | _, _, _⟩ <;> rfl
    · -- It does not wait and is built in its turn.
      rw [if_neg (mt hpending.mp hdeferred), List.filter_cons_of_pos (by simpa using hdeferred),
        List.filter_cons_of_neg (by simpa using hdeferred), Wiring.buildHandlers]
      rcases hrun : w.buildHandler name e s with ⟨_ | _, w₁, s₁⟩
      · rfl
      · -- It is there from now on, and it is not deferred.
        dsimp only
        obtain ⟨h, hhandlers⟩ := buildHandler_handlers hrun
        refine ih hnext fun n => ?_
        rw [hkeys, ← Table.isSome_get?_iff, hhandlers, Table.get?_insert, or_and_right, ← hw,
          ← Table.isSome_get?_iff]
        split
        · next heq => simp [heq, hdeferred]
        · next hne => simp [hne]

/-- Handlers that are built in two lots. -/
theorem buildHandlers_append (first second : List (String × HandlerEntry)) (w : Wiring)
    (s : Store) :
    Wiring.buildHandlers (first ++ second) w s =
      match Wiring.buildHandlers first w s with
      | (.error fault, w, s) => (.error fault, w, s)
      | (.ok (), w, s) => Wiring.buildHandlers second w s := by
  induction first generalizing w s with
  | nil => rfl
  | cons head first ih =>
    obtain ⟨name, e⟩ := head
    rw [List.cons_append, Wiring.buildHandlers, Wiring.buildHandlers]
    rcases w.buildHandler name e s with ⟨_ | _, w₁, s₁⟩
    · rfl
    · exact ih w₁ s₁

/-- **Two passes are one**, in the order of building. -/
theorem buildAll_eq (hsorted : t.Sorted) (hw : w.handlers = []) (s : Store) :
    Wiring.buildAll t w s = Wiring.buildHandlers (buildOrder t) w s := by
  have hready := buildReady_eq (w := w) (s := s) hsorted (List.nil_append t).symm
    (by simp [hw, Table.keys])
  rw [Wiring.buildAll, hready, buildOrder, buildHandlers_append]
  rcases Wiring.buildHandlers _ w s with ⟨_ | _, w₁, s₁⟩ <;> rfl

/-! ## What can be built -/

/-- A handler of a table refers to a name. -/
def RefersTo (t : Table HandlerEntry) (name r : String) : Prop :=
  ∃ e, t.get? name = some e ∧ r ∈ e.kind.references

/-- In the order of building each handler finds what it refers to if what the deferred ones
    refer to resolves. -/
theorem supplied_buildOrder (hsorted : t.Sorted) :
    Supplied [] (buildOrder t) ↔
      ∀ name r, Deferred t name → RefersTo t name r → Resolves t name r := by
  rw [supplied_iff]
  constructor
  · rintro hall name r hdeferred ⟨e, hentry, hr⟩
    obtain ⟨before, after, hl⟩ := List.append_of_mem ((mk_mem_buildOrder_iff hsorted).mpr hentry)
    exact (mem_before_buildOrder hsorted hl hr).mp (hall before (name, e) after hl r hr) hdeferred
  · rintro hall before ⟨name, e⟩ after hl r hr
    exact (mem_before_buildOrder hsorted hl hr).mpr fun hdeferred =>
      hall name r hdeferred ⟨e, get?_of_turn hsorted hl, hr⟩

/-- So do the deferred handlers of smaller names than one that has its turn. -/
theorem resolves_of_supplied (hsorted : t.Sorted)
    (hl : buildOrder t = before ++ (name, e) :: after) (hsupplied : Supplied [] before)
    (hdeferred : Deferred t name) {name' : String} (hlt : name' < name)
    (hdeferred' : Deferred t name') (hr : RefersTo t name' r) : Resolves t name' r := by
  obtain ⟨e', hentry, hr⟩ := hr
  have hmem : (name', e') ∈ buildOrder t := (mk_mem_buildOrder_iff hsorted).mpr hentry
  have hbefore : name' ∈ Table.keys before := by
    rw [mem_keys_before (R := Earlier t) (fun _ _ => Earlier.asymm) hl
      (pairwise_buildOrder hsorted)]
    exact ⟨List.mem_map_of_mem hmem, .inr ⟨iff_of_true hdeferred' hdeferred, hlt⟩⟩
  -- It had its turn before, when all that it refers to was there.
  obtain ⟨⟨n', e''⟩, hin, rfl⟩ := List.mem_map.mp hbefore
  obtain ⟨first, second, rfl⟩ := List.append_of_mem hin
  rw [List.append_assoc, List.cons_append] at hl
  obtain rfl : e' = e'' := Option.some.inj (hentry.symm.trans (get?_of_turn hsorted hl))
  have hturn := supplied_iff.mp hsupplied first _ second rfl r hr
  exact (mem_before_buildOrder hsorted hl hr).mp hturn hdeferred'

/-- **The first handler that lacks a reference** when its turn comes is deferred, and the
    reference is the first one that does not resolve. -/
theorem unresolved_of_firstUnknown (hsorted : t.Sorted)
    (hl : buildOrder t = before ++ (name, e) :: after) {component : String} {fault : LogError}
    (h : FirstUnknown "handler" component (Table.keys before) e.kind.references fault) :
    Deferred t name ∧ ∃ first r last, e.kind.references = first ++ r :: last ∧
      (∀ n ∈ first, Resolves t name n) ∧ ¬ Resolves t name r ∧
      fault = .config component s!"Unknown handler '{r}'" := by
  obtain ⟨first, r, last, hreferences, hfirst, hr, hfault⟩ := h
  have hturn : ∀ n ∈ e.kind.references, n ∈ Table.keys before ↔
      Deferred t name → Resolves t name n := fun n hn => mem_before_buildOrder hsorted hl hn
  rw [hreferences] at hturn
  have hlacks := mt (hturn r (List.mem_append_right _ List.mem_cons_self)).mpr hr
  obtain ⟨hdeferred, hnot⟩ := Classical.not_imp.mp hlacks
  refine ⟨hdeferred, first, r, last, hreferences, fun n hn => ?_, hnot, hfault⟩
  exact (hturn n (List.mem_append_left _ hn)).mp (hfirst n hn) hdeferred

/-- Around a cycle of references every handler is deferred. -/
theorem deferred_of_cycle (h : Relation.TransGen (RefersTo t) name name) : Deferred t name := by
  by_contra hnot
  -- One that does not wait refers to smaller ones that do not wait either.
  have hsmaller : ∀ n, Relation.TransGen (RefersTo t) name n → n < name ∧ ¬ Deferred t n := by
    intro n hn
    induction hn with
    | single hr =>
      obtain ⟨e, hentry, hr⟩ := hr
      obtain ⟨-, hlt, hnot'⟩ := (not_deferred_iff hentry).mp hnot _ hr
      exact ⟨hlt, hnot'⟩
    | tail _ hr ih =>
      obtain ⟨e, hentry, hr⟩ := hr
      obtain ⟨-, hlt, hnot'⟩ := (not_deferred_iff hentry).mp ih.2 _ hr
      exact ⟨hlt.trans ih.1, hnot'⟩
  exact lt_irrefl name (hsmaller name h).1

/-- **A cycle never resolves**: names would have to descend all the way around. -/
theorem exists_unresolved_of_cycle (h : Relation.TransGen (RefersTo t) name name) :
    ∃ n r, Deferred t n ∧ RefersTo t n r ∧ ¬ Resolves t n r := by
  by_contra hall
  push Not at hall
  -- Each reference along the cycle goes to a deferred handler, and so to a smaller name.
  have hdescends : ∀ a b, RefersTo t a b → Relation.ReflTransGen (RefersTo t) b a → b < a := by
    intro a b hab hback
    have hcycle : Relation.TransGen (RefersTo t) a a := .head' hab hback
    have hcycle' : Relation.TransGen (RefersTo t) b b := .tail' hback hab
    exact (hall a b (deferred_of_cycle hcycle) hab).2.resolve_left
      (not_not.mpr (deferred_of_cycle hcycle'))
  have hbelow : ∀ n, Relation.TransGen (RefersTo t) name n →
      Relation.ReflTransGen (RefersTo t) n name → n < name := by
    intro n hn
    induction hn with
    | single hr => exact hdescends _ _ hr
    | tail hb hr ih =>
      intro hback
      have hlast := hdescends _ _ hr (hback.trans hb.to_reflTransGen)
      exact hlast.trans (ih (.head hr hback))
  exact lt_irrefl name (hbelow name h .refl)

/-! ## The handlers of a document -/

/-- **Constructible**: a document about which everything is in order but perhaps the
    references.  Its formatters can be made, handlers name no others and no unknown filters,
    and their files can be opened in the order of names. -/
structure Document.Constructible (d : Document) (s : Store) : Prop where
  formatters : ∃ fs, buildFormatters d.formatters = .ok fs
  formatter : ∀ p ∈ d.handlers, ∀ n ∈ p.2.formatter?, n ∈ d.formatters.keys
  filters : ∀ p ∈ d.handlers, ∀ n ∈ p.2.filters, n ∈ d.filters.keys
  files : FilesOpen d.handlers s.world

theorem buildFormatters_keys {entries : Table FormatterEntry} {fs : Table Formatter}
    (h : buildFormatters entries = .ok fs) : fs.keys = entries.keys := by
  induction entries generalizing fs with
  | nil =>
    obtain rfl := Except.ok.inj h
    rfl
  | cons head rest ih =>
    obtain ⟨name, e⟩ := head
    unfold buildFormatters at h
    split at h
    · cases h
    · obtain ⟨fs', hrest, rfl⟩ := map_eq_ok_iff.mp h
      exact congrArg (name :: ·) (ih hrest)

/-- Filters touch neither handlers nor files. -/
theorem buildFilters_kept (entries : Table FilterEntry) (s : Store) :
    (buildFilters entries s).2.handlers = s.handlers ∧
      (buildFilters entries s).2.world = s.world := by
  induction entries generalizing s with
  | nil => exact ⟨rfl, rfl⟩
  | cons head rest ih => exact ih _

/-- Files that can be opened can be opened in the order of building: a handler that waits has
    none. -/
theorem FilesOpen.buildOrder {world : World} (h : FilesOpen t world) (hsorted : t.Sorted) :
    FilesOpen (buildOrder t) world := by
  -- What is built behind the others refers to some of them, and so it opens no file.
  have hlate : ∀ l : List (String × HandlerEntry), (∀ p ∈ l, p.2.kind.references ≠ []) →
      ∀ world, FilesOpen l world := by
    intro l hl
    induction l with
    | nil => exact fun _ => trivial
    | cons p l ih =>
      exact fun world => ⟨world, HandlerKind.open?_of_references (hl p List.mem_cons_self) world,
        ih (fun q hq => hl q (List.mem_cons_of_mem _ hq)) world⟩
  have hrefers : ∀ p ∈ t, Deferred t p.1 → p.2.kind.references ≠ [] := fun p hp hdeferred hnone =>
    not_deferred_of_references (hsorted.get?_eq_some_iff.mpr hp) hnone hdeferred
  classical
  have hsplit : ∀ (l : List (String × HandlerEntry)) (world : World), (∀ p ∈ l, p ∈ t) →
      FilesOpen l world →
      FilesOpen
        (l.filter (fun p => ¬ Deferred t p.1) ++ t.filter (fun p => Deferred t p.1)) world := by
    intro l
    induction l with
    | nil =>
      intro world _ _
      refine hlate _ (fun p hp => ?_) world
      obtain ⟨hin, hdeferred⟩ := List.mem_filter.mp hp
      exact hrefers p hin (by simpa using hdeferred)
    | cons p l ih =>
      rintro world hl ⟨world', hopen, hrest⟩
      have hrest' := ih world' (fun q hq => hl q (List.mem_cons_of_mem _ hq)) hrest
      by_cases hdeferred : Deferred t p.1
      · have hnone := HandlerKind.open?_of_references
          (hrefers p (hl p List.mem_cons_self) hdeferred) world
        obtain rfl := Option.some.inj (hnone.symm.trans hopen)
        rwa [List.filter_cons_of_neg (by simpa using hdeferred)]
      · rw [List.filter_cons_of_pos (by simpa using hdeferred)]
        exact ⟨world', hopen, hrest'⟩
  exact hsplit t world (fun _ => id) h

/-- What comes of building a document that is in order but perhaps for its references. -/
theorem Document.Constructible.build_cases (h : d.Constructible s) (hsorted : d.handlers.Sorted) :
    (∃ w s', d.build s = (.ok (), w, s') ∧ w.Holds s.handlers.size (buildOrder d.handlers) s' ∧
      Supplied [] (buildOrder d.handlers)) ∨
    ∃ fault w s', d.build s = (.error fault, w, s') ∧
      ∃ before p after, buildOrder d.handlers = before ++ p :: after ∧ Supplied [] before ∧
        FirstUnknown "handler" (handlerComponent p.1) (Table.keys before) p.2.kind.references
          fault := by
  obtain ⟨fs, hfs⟩ := h.formatters
  obtain ⟨hhandlers, hworld⟩ := buildFilters_kept d.filters s
  have hdistinct : (Table.keys ([] ++ buildOrder d.handlers)).Nodup := by
    rw [List.nil_append, Table.keys, List.Nodup, List.pairwise_map]
    refine (pairwise_buildOrder hsorted).imp ?_
    intro p q hearlier heq
    rw [heq] at hearlier
    exact hearlier.asymm hearlier
  -- Formatters and filters come first, so every handler finds its own.
  have hequips : ∀ p ∈ buildOrder d.handlers,
      Wiring.Equips { formatters := fs, filters := (buildFilters d.filters s).1 } p.2 := by
    intro p hp
    refine ⟨fun n hn => ?_, fun n hn => ?_⟩
    · show n ∈ fs.keys
      rw [buildFormatters_keys hfs]
      exact h.formatter p (mem_buildOrder.mp hp) n hn
    · show n ∈ (buildFilters d.filters s).1.keys
      rw [(buildFilters_spec d.filters s).2.keys]
      exact h.filters p (mem_buildOrder.mp hp) n hn
  have hrun := buildHandlers_spec (.nil rfl (buildFilters d.filters s).2) hdistinct hequips
    (by rw [hworld]; exact h.files.buildOrder hsorted)
  have hbuild : d.build s =
      Wiring.buildHandlers (buildOrder d.handlers)
        { formatters := fs, filters := (buildFilters d.filters s).1 }
        (buildFilters d.filters s).2 := by
    rw [Document.build, hfs]
    exact buildAll_eq hsorted rfl _
  rw [hhandlers] at hrun
  rw [hbuild]
  exact hrun

/-- Each name has a handler that was made for it alone, and that is wired. -/
theorem Wiring.Holds.complete {others : Nat} (h : w.Holds others (buildOrder t) s)
    (hsorted : t.Sorted) :
    (∀ n, n ∈ w.handlers.keys ↔ n ∈ t.keys) ∧ s.handlers.size = others + t.length ∧
    (∀ i, others ≤ i → i < s.handlers.size → ∃! n, w.handlers.get? n = some i) ∧
    ∀ n e, t.get? n = some e → ∃ i x, w.handlers.get? n = some i ∧ others ≤ i ∧
      s.handlers[i]? = some x ∧ x.name? = some n ∧ e.kind.Wired w.handlers w.listeners x.sink := by
  have hsize : s.handlers.size = others + t.length := by rw [h.size, length_buildOrder]
  refine ⟨fun n => ?_, hsize, fun i hle hlt => ?_, fun n e hentry => ?_⟩
  · rw [h.names]
    simp only [Table.keys, List.mem_map, mem_buildOrder]
  · have hj : i - others < (buildOrder t).length := by
      rw [length_buildOrder]
      omega
    have hfound := (h.built _ _ (List.getElem?_eq_getElem hj)).1
    rw [Nat.add_sub_cancel' hle] at hfound
    -- Another name that stands for the place would have had the same turn.
    refine ⟨_, hfound, fun n hn => ?_⟩
    have hn' : n ∈ Table.keys (buildOrder t) := (h.names n).mp (Table.isSome_get?_iff.mp (hn ▸ rfl))
    obtain ⟨p, hp, rfl⟩ := List.mem_map.mp hn'
    obtain ⟨j, hj'⟩ := List.getElem?_of_mem hp
    have hsame := (h.built j p hj').1.symm.trans hn
    obtain rfl : j = i - others := by
      have := Option.some.inj hsame
      omega
    rw [List.getElem?_eq_getElem hj] at hj'
    rw [Option.some.inj hj']
  · obtain ⟨j, hj⟩ := List.getElem?_of_mem ((mk_mem_buildOrder_iff hsorted).mpr hentry)
    obtain ⟨hfound, x, hx, hname, hwired⟩ := h.built j _ hj
    exact ⟨others + j, x, hfound, Nat.le_add_right _ _, hx, hname, hwired⟩

/-- **References resolve or the first that does not is told.**  Of a document that is in order
    but perhaps for its references, the handlers are built if and only if what the deferred
    ones refer to resolves.  Then each name has a handler of its own, made for it alone, and
    the targets of memories and queues are the handlers under the names they refer to.
    Otherwise the first deferred handler with a reference that does not resolve is told,
    with its first one.

    What refers to nothing can always be referred to.  A cycle of references never
    resolves. -/
theorem Document.build_references (hsorted : d.handlers.Sorted) (h : d.Constructible s) :
    ((∃ w s', d.build s = (.ok (), w, s')) ↔
      ∀ name r, Deferred d.handlers name → RefersTo d.handlers name r →
        Resolves d.handlers name r) ∧
    (∀ w s', d.build s = (.ok (), w, s') →
      (∀ n, n ∈ w.handlers.keys ↔ n ∈ d.handlers.keys) ∧
      s'.handlers.size = s.handlers.size + d.handlers.length ∧
      (∀ i, s.handlers.size ≤ i → i < s'.handlers.size → ∃! n, w.handlers.get? n = some i) ∧
      ∀ n e, d.handlers.get? n = some e → ∃ i x, w.handlers.get? n = some i ∧
        s.handlers.size ≤ i ∧ s'.handlers[i]? = some x ∧ x.name? = some n ∧
        e.kind.Wired w.handlers w.listeners x.sink) ∧
    (∀ fault w s', d.build s = (.error fault, w, s') →
      (d.version = 1 → ∀ g, (d.apply g s).1 = .error fault) ∧
      ∃ name e before r after, d.handlers.get? name = some e ∧ Deferred d.handlers name ∧
        e.kind.references = before ++ r :: after ∧
        (∀ p ∈ before, Resolves d.handlers name p) ∧ ¬ Resolves d.handlers name r ∧
        (∀ name' r', name' < name → Deferred d.handlers name' → RefersTo d.handlers name' r' →
          Resolves d.handlers name' r') ∧
        fault = .config (handlerComponent name) s!"Unknown handler '{r}'") ∧
    (∀ name r e, d.handlers.get? r = some e → e.kind.references = [] →
      Resolves d.handlers name r) ∧
    ∀ name, Relation.TransGen (RefersTo d.handlers) name name →
      ∃ fault w s', d.build s = (.error fault, w, s') := by
  have hcases := h.build_cases hsorted
  have hiff : (∃ w s', d.build s = (.ok (), w, s')) ↔
      ∀ name r, Deferred d.handlers name → RefersTo d.handlers name r →
        Resolves d.handlers name r := by
    rw [← supplied_buildOrder hsorted]
    rcases hcases with ⟨w, s', hrun, -, hsupplied⟩ |
      ⟨fault, w, s', hrun, before, p, after, hl, -, first, r, last, hreferences, -, hr, -⟩
    · exact iff_of_true ⟨w, s', hrun⟩ hsupplied
    · refine iff_of_false ?_ fun hsupplied => hr ?_
      · rintro ⟨w', s'', hrun'⟩
        rw [hrun] at hrun'
        cases hrun'
      · refine supplied_iff.mp hsupplied before p after hl r ?_
        rw [hreferences]
        exact List.mem_append_right _ List.mem_cons_self
  -- What was built is complete, and what was not names the first that does not resolve.
  refine ⟨hiff, ?_, ?_, ?_, ?_⟩
  · intro w s' hbuild
    rcases hcases with ⟨w', s'', hrun, hholds, -⟩ | ⟨fault, w', s'', hrun, -⟩
    · obtain ⟨rfl, rfl⟩ : w' = w ∧ s'' = s' := by simpa [hrun] using hbuild
      exact hholds.complete hsorted
    · rw [hrun] at hbuild
      cases hbuild
  · intro fault w s' hbuild
    refine ⟨fun hversion g => ?_, ?_⟩
    · rw [Document.apply, if_neg (not_not.mpr hversion), hbuild]
    rcases hcases with ⟨w', s'', hrun, -⟩ |
      ⟨fault', w', s'', hrun, before, ⟨name, e⟩, after, hl, hsupplied, hunknown⟩
    · rw [hrun] at hbuild
      cases hbuild
    · obtain rfl : fault' = fault := by
        rw [hrun] at hbuild
        exact Except.error.inj (congrArg Prod.fst hbuild)
      obtain ⟨hdeferred, first, r, last, hreferences, hfirst, hnot, hfault⟩ :=
        unresolved_of_firstUnknown hsorted hl hunknown
      exact ⟨name, e, first, r, last, get?_of_turn hsorted hl, hdeferred, hreferences, hfirst, hnot,
        fun _ _ hlt hdeferred' hr =>
          resolves_of_supplied hsorted hl hsupplied hdeferred hlt hdeferred' hr, hfault⟩
  · intro name r e hentry hnone
    have hready := not_deferred_of_references hentry hnone
    exact ⟨Table.isSome_get?_iff.mp (hentry ▸ rfl), .inl hready⟩
  · intro name hcycle
    rcases hcases with ⟨w, s', hrun, -, -⟩ | ⟨fault, w, s', hrun, -⟩
    · obtain ⟨n, r, hdeferred, hr, hnot⟩ := exists_unresolved_of_cycle hcycle
      exact absurd (hiff.mp ⟨w, s', hrun⟩ n r hdeferred hr) hnot
    · exact ⟨fault, w, s', hrun⟩

/-- A queue and a memory in front of what they refer to, and two memories that refer to each
    other. -/
theorem Document.build_references_two_waiting :
    let d : Document :=
      { version := 1, formatters := [("plain", {})], filters := [("app", { name := "app" })]
        handlers :=
          [("a", { kind := .memory 10 none (some "z") true }),
            ("b", { kind := .queue none ["a", "z"] true, filters := ["app"] }),
            ("f", { kind := .file ⟨"app.log"⟩ .append true, formatter? := some "plain" }),
            ("z", { kind := .null })] }
    let cyclic : Document :=
      { version := 1
        handlers :=
          [("a", { kind := .memory 10 none (some "b") true }),
            ("b", { kind := .memory 10 none (some "a") true })] }
    let s : Store := { origin := default }
    (d.handlers.Sorted ∧ d.Constructible s ∧
      ∃ w s', d.build s = (.ok (), w, s') ∧ s'.handlers.size = 4) ∧
    cyclic.handlers.Sorted ∧ cyclic.Constructible s ∧
      ∃ fault w s', cyclic.build s = (.error fault, w, s') := by
  intro d cyclic s
  have hsorted : d.handlers.Sorted := by
    simp only [d, Table.Sorted]
    decide
  have hformatters : ∃ fs, buildFormatters d.formatters = .ok fs := by
    have hrun : (buildFormatters d.formatters).isOk = true := by decide +kernel
    cases hfs : buildFormatters d.formatters with
    | ok fs => exact ⟨fs, rfl⟩
    | error fault =>
      rw [hfs] at hrun
      cases hrun
  have hconstructible : d.Constructible s := by
    refine ⟨hformatters, ?_, ?_, ?_⟩
    · simp [d, Table.keys]
    · simp [d, Table.keys]
    · exact ⟨_, rfl, _, rfl, _, rfl, _, rfl, trivial⟩
  obtain ⟨hiff, hbuilt, -⟩ := d.build_references hsorted hconstructible
  have hz : ¬ Deferred d.handlers "z" := not_deferred_of_references rfl rfl
  obtain ⟨w, s', hrun⟩ := hiff.mpr (by
    rintro name r - ⟨e, hentry, hr⟩
    have hmem := hsorted.get?_eq_some_iff.mp hentry
    simp only [d, List.mem_cons, Prod.mk.injEq, List.not_mem_nil, or_false] at hmem
    rcases hmem with ⟨rfl, rfl⟩ | ⟨rfl, rfl⟩ | ⟨rfl, rfl⟩ | ⟨rfl, rfl⟩
    · obtain rfl := List.mem_singleton.mp hr
      exact ⟨by decide, .inl hz⟩
    · rcases List.mem_cons.mp hr with rfl | hr
      · exact ⟨by decide, .inr (by decide)⟩
      · obtain rfl := List.mem_singleton.mp hr
        exact ⟨by decide, .inl hz⟩
    · cases hr
    · cases hr)
  have hsorted' : cyclic.handlers.Sorted := by
    simp only [cyclic, Table.Sorted]
    decide
  have hconstructible' : cyclic.Constructible s := by
    refine ⟨⟨_, rfl⟩, ?_, ?_, ?_⟩
    · simp [cyclic]
    · simp [cyclic]
    · exact ⟨_, rfl, _, rfl, trivial⟩
  have hcycle : Relation.TransGen (RefersTo cyclic.handlers) "a" "a" :=
    .tail (.single ⟨_, rfl, List.mem_cons_self⟩) ⟨_, rfl, List.mem_cons_self⟩
  exact ⟨⟨hsorted, hconstructible, w, s', hrun, (hbuilt w s' hrun).2.1⟩, hsorted', hconstructible',
    (cyclic.build_references hsorted' hconstructible').2.2.2.2 "a" hcycle⟩

end Logbook.Configuration
