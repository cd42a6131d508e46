import Logbook.Configuration.Apply
import Logbook.Proofs.Hierarchy.InOrder

/-! # What a document does to the loggers

    A document that is carried out sets up the loggers that it names and makes those
    that are missing.  Of the others, which were there before, those below a named one
    are reset, and the rest is disabled or left alone.  The root is set up last, if there
    is a section for it.

    Every step changes one logger.  A named logger is made at most, before it is set up;
    what this changes of the others is their link to a parent, and loggers hang in the
    end where their names say.
-/

namespace Logbook.Registry

variable {g g' g'' : Registry} {i j : LoggerId} {f f' : Logger → Logger} {name n : String}

/-! ## Changes of one logger -/

/-- **Sets**: one logger is changed, and no other one comes, goes or changes. -/
structure Sets (g g' : Registry) (i : LoggerId) (f : Logger → Logger) : Prop where
  size : g'.loggers.size = g.loggers.size
  nodes : g'.nodes = g.nodes
  self : g'.logger i = f (g.logger i)
  other : ∀ j, j ≠ i → g'.logger j = g.logger j

/-- The change keeps name, link and life of a logger. -/
structure KeepsPlace (f : Logger → Logger) : Prop where
  name : ∀ x, (f x).name = x.name
  link : ∀ x, (f x).parent? = x.parent?
  gone : ∀ x, (f x).gone = x.gone

namespace Sets

theorem refl (hf : f (g.logger i) = g.logger i) : Sets g g i f := ⟨rfl, rfl, hf.symm, fun _ _ => rfl⟩

theorem trans (h : Sets g g' i f) (h' : Sets g' g'' i f') : Sets g g'' i (f' ∘ f) where
  size := h'.size.trans h.size
  nodes := h'.nodes.trans h.nodes
  self := by
    rw [h'.self, h.self]
    rfl
  other j hj := (h'.other j hj).trans (h.other j hj)

theorem modify (hi : i < g.loggers.size) (f : Logger → Logger) : Sets g (g.modify i f) i f :=
  ⟨size_modify g i f, rfl, logger_modify_self hi f, fun _ hj => logger_modify_of_ne (Ne.symm hj) f⟩

theorem invalidate (h : Sets g g' i f) : Sets g g'.invalidate i f := ⟨h.size, h.nodes, h.self, h.other⟩

/-- A change that keeps the place of a logger keeps the tree. -/
theorem sameTree (h : Sets g g' i f) (hf : KeepsPlace f) : SameTree g g' := by
  have hview : ∀ {α : Type} (view : Logger → α), (∀ x, view (f x) = view x) →
      ∀ j, view (g'.logger j) = view (g.logger j) := by
    intro α view hview j
    by_cases hj : j = i
    · subst hj
      rw [h.self, hview]
    · rw [h.other j hj]
  exact ⟨h.size, h.nodes, hview Logger.name hf.name, hview Logger.parent? hf.link,
    hview Logger.gone hf.gone⟩

end Sets

end Logbook.Registry

namespace Logbook.Handler

theorem mem_adjoin {α : Type} [DecidableEq α] {xs : List α} {a b : α} :
    b ∈ adjoin xs a ↔ b ∈ xs ∨ b = a := by
  unfold adjoin
  split
  · next hin => exact ⟨.inl, fun h => h.elim id fun heq => heq ▸ hin⟩
  · rw [List.mem_append, List.mem_singleton]

/-- To add the members of a list one by one leaves out those that are there. -/
theorem foldl_adjoin {α : Type} [DecidableEq α] (xs l : List α) :
    l.foldl adjoin xs = xs ++ (l.filter (· ∉ xs)).eraseDups := by
  induction l generalizing xs with
  | nil => simp
  | cons a l ih =>
    rw [List.foldl_cons, ih, adjoin]
    split
    · next hin => rw [List.filter_cons_of_neg (by simpa using hin)]
    · next hnew =>
      rw [List.filter_cons_of_pos (by simpa using hnew), List.eraseDups_cons, List.filter_filter,
        List.append_assoc, List.singleton_append]
      congr 3
      refine List.filter_congr fun b _ => ?_
      simp [not_or, and_comm, beq_eq_decide]

theorem foldl_adjoin_nil {α : Type} [DecidableEq α] (l : List α) :
    l.foldl adjoin [] = l.eraseDups := by
  rw [foldl_adjoin, List.nil_append, List.filter_eq_self.mpr]
  intro a _
  simp

end Logbook.Handler

namespace Logbook.Configuration

open Registry

variable {g g' g₁ : Registry} {s s' : Store} {i : LoggerId} {name n : String} {e : LoggerEntry}
  {w : Wiring}

/-! ## Setting up one logger -/

/-- A look-up of names that succeeds finds each of them. -/
theorem lookupAll_ok {α : Type} {what component : String} {t : Table α} {names : List String}
    {as : List α} (h : lookupAll what component t names = .ok as) :
    (∀ k ∈ names, (t.get? k).isSome) ∧ names.filterMap t.get? = as := by
  induction names generalizing as with
  | nil =>
    injection h with h
    exact ⟨by simp, h⟩
  | cons k names ih =>
    unfold lookupAll at h
    cases hk : t.get? k with
    | none =>
      rw [hk] at h
      cases h
    | some a =>
      rw [hk] at h
      dsimp only at h
      cases hrest : lookupAll what component t names with
      | error fault =>
        rw [hrest] at h
        cases h
      | ok rest =>
        rw [hrest] at h
        have hcons : a :: rest = as := Except.ok.inj h
        obtain ⟨hknown, hfound⟩ := ih hrest
        refine ⟨?_, ?_⟩
        · intro k' hk'
          -- The name in front was found to get here, the others by the induction.
          rcases List.mem_cons.mp hk' with rfl | hin
          · rw [hk]
            rfl
          · exact hknown k' hin
        · rw [List.filterMap_cons_some hk, hfound, hcons]

/-- A logger as a section sets it up: on the level that is given, with the handlers that are
    listed and no others, and with the filters that are listed besides its own. -/
def LoggerEntry.setUp (e : LoggerEntry) (handlers : Table HandlerId) (filters : Table FilterId)
    (x : Logger) : Logger :=
  { x with
    level := e.level?.getD x.level
    handlers := (e.handlers.filterMap handlers.get?).eraseDups
    filters := (e.filters.filterMap filters.get?).foldl Handler.adjoin x.filters }

/-- A named logger as its section sets it up. -/
def LoggerEntry.setUpNamed (e : LoggerEntry) (handlers : Table HandlerId)
    (filters : Table FilterId) (x : Logger) : Logger :=
  { e.setUp handlers filters x with disabled := false, propagate := e.propagate?.getD x.propagate }

theorem LoggerEntry.keepsPlace_setUp (e : LoggerEntry) (handlers : Table HandlerId)
    (filters : Table FilterId) : KeepsPlace (e.setUp handlers filters) :=
  ⟨fun _ => rfl, fun _ => rfl, fun _ => rfl⟩

theorem LoggerEntry.keepsPlace_setUpNamed (e : LoggerEntry) (handlers : Table HandlerId)
    (filters : Table FilterId) : KeepsPlace (e.setUpNamed handlers filters) :=
  ⟨fun _ => rfl, fun _ => rfl, fun _ => rfl⟩

/-- To attach handlers adds those to the logger that it does not have. -/
theorem attach_sets {p : Registry × Store} (handlers : List HandlerId)
    (hi : i < p.1.loggers.size) : Sets p.1 (handlers.foldl (attach i) p).1 i fun x =>
      { x with handlers := handlers.foldl Handler.adjoin x.handlers } := by
  induction handlers generalizing p with
  | nil => exact Sets.refl rfl
  | cons h handlers ih =>
    have hone : Sets p.1 (attach i p h).1 i fun x =>
        { x with handlers := Handler.adjoin x.handlers h } := by
      unfold attach
      split
      · next hin =>
        refine Sets.refl ?_
        rw [Handler.adjoin, if_pos hin]
      · exact Sets.modify hi _
    exact hone.trans (ih (hone.size ▸ hi))

/-- To add filters adds those to the logger that it does not have. -/
theorem addFilters_sets (filters : List FilterId) (hi : i < g.loggers.size) :
    Sets g (filters.foldl (fun g f => g.addFilter i f) g) i fun x =>
      { x with filters := filters.foldl Handler.adjoin x.filters } := by
  induction filters generalizing g with
  | nil => exact Sets.refl rfl
  | cons f filters ih =>
    have hone : Sets g (g.addFilter i f) i fun x =>
        { x with filters := Handler.adjoin x.filters f } := Sets.modify hi _
    exact hone.trans (ih (hone.size ▸ hi))

/-- A section that is carried out lists known handlers only, and sets up its logger. -/
theorem configureLogger_sets (hi : i < g.loggers.size)
    (hrun : configureLogger w i e g s = (.ok (), g', s')) :
    (∀ k ∈ e.handlers, (w.handlers.get? k).isSome) ∧
      Sets g g' i (e.setUp w.handlers w.filters) := by
  unfold configureLogger at hrun
  dsimp only at hrun
  split at hrun
  · cases hrun
  · next handlers hhandlers =>
    split at hrun
    · cases hrun
    · next filters hfilters =>
      obtain ⟨hknown, hlisted⟩ := lookupAll_ok hhandlers
      obtain ⟨-, hlisted'⟩ := lookupAll_ok hfilters
      refine ⟨hknown, ?_⟩
      -- Level, handlers and filters are set one after the other.
      obtain ⟨g₁, hg₁, hlevel⟩ : ∃ g₁, e.level?.elim g (g.setLevel i) = g₁ ∧
          Sets g g₁ i fun x => { x with level := e.level?.getD x.level } := by
        refine ⟨_, rfl, ?_⟩
        cases e.level? with
        | none => exact Sets.refl rfl
        | some level => exact (Sets.modify hi _).invalidate
      have hclear : Sets g (detachAll i g₁ s).1 i _ :=
        hlevel.trans (Sets.modify (hlevel.size ▸ hi) ({ · with handlers := [] }))
      have hattach := hclear.trans (attach_sets handlers (hclear.size ▸ hi))
      have hall := hattach.trans (addFilters_sets filters (hattach.size ▸ hi))
      subst hg₁
      injection hrun with _ hrun
      injection hrun with hg _
      have hset : e.setUp w.handlers w.filters = fun x =>
          { x with
            level := e.level?.getD x.level
            handlers := handlers.foldl Handler.adjoin []
            filters := filters.foldl Handler.adjoin x.filters } := by
        funext x
        rw [LoggerEntry.setUp, hlisted, hlisted', Handler.foldl_adjoin_nil]
      rw [← hg, hset]
      generalize e.level? = level? at hall ⊢
      cases level? with
      | none => exact hall
      | some level => exact hall

/-! ## Setting up the named loggers -/

variable {handlers : Table HandlerId} {filters : Table FilterId} {sections : Table LoggerEntry}

/-- **Carried**: a registry before and after the loggers of some sections were set up. -/
structure Carried (handlers : Table HandlerId) (filters : Table FilterId)
    (sections : Table LoggerEntry) (g g' : Registry) : Prop where
  order : g'.InOrder
  named : ∀ n e, (n, e) ∈ sections → (∀ k ∈ e.handlers, (handlers.get? k).isSome) ∧
    ∃ i, g'.loggerCalled? n = some i ∧
      SameButLink (e.setUpNamed handlers filters (g.former n)) (g'.logger i)
  kept : ∀ n i, g.loggerCalled? n = some i → g'.loggerCalled? n = some i
  others : ∀ n i, n ∉ sections.keys → g.loggerCalled? n = some i →
    SameButLink (g.logger i) (g'.logger i)
  names : ∀ n, (g'.loggerCalled? n).isSome ↔ (g.loggerCalled? n).isSome ∨ n ∈ sections.keys
  root : g'.logger rootId = g.logger rootId

/-- One section that is carried out. -/
theorem configureNamed_carried (h : g.InOrder) (hname : Proper name)
    (hrun : configureNamed w name e g s = (.ok (), g', s')) :
    Carried w.handlers w.filters [(name, e)] g g' := by
  have hasked := h.asked hname
  have hkept : ∀ i, g.loggerCalled? name = some i → (g.getLogger name).1 = i := by
    intro i hi
    rw [getLogger_of_called h.registered hi]
  unfold configureNamed at hrun
  generalize g.getLogger name = asked at hasked hkept hrun
  obtain ⟨i, g₁⟩ := asked
  dsimp only at hasked hkept hrun
  have hcalled : g₁.loggerCalled? name = some i := by rw [hasked.called, if_pos rfl]
  obtain ⟨hlt, hi0, hiname, -⟩ := hasked.order.registered.called name i hcalled
  cases hset : configureLogger w i e g₁ s with
  | mk result rest =>
  obtain ⟨g₂, s₂⟩ := rest
  rw [hset] at hrun
  cases result with
  | error fault => cases hrun
  | ok =>
    obtain ⟨hknown, hsets⟩ := configureLogger_sets hlt hset
    have hboth := hsets.trans (Sets.modify (hsets.size ▸ hlt) fun x =>
      { x with disabled := false, propagate := e.propagate?.getD x.propagate })
    injection hrun with _ hrun
    injection hrun with hg _
    have hall : Sets g₁ g' i (e.setUpNamed w.handlers w.filters) := hg ▸ hboth
    have hnames : ∀ n, g'.loggerCalled? n = if n = name then some i else g.loggerCalled? n := by
      intro n
      rw [loggerCalled?_congr hall.nodes, hasked.called]
    -- The section changes one logger; its name, and where the others are, stay the same.
    refine ⟨(hall.sameTree (e.keepsPlace_setUpNamed _ _)).inOrder hasked.order, ?_, ?_, ?_, ?_, ?_⟩
    · intro n e' hmem
      obtain ⟨rfl, rfl⟩ := Prod.mk.inj (List.mem_singleton.mp hmem)
      refine ⟨hknown, i, (hnames n).trans (if_pos rfl), ?_⟩
      rw [hall.self]
      exact hasked.self.map fun _ _ => rfl
    · intro n j hj
      rw [hnames]
      split
      · next hn => rw [hkept j (hn ▸ hj)]
      · exact hj
    · intro n j hn hj
      have hne : n ≠ name := fun heq => hn (heq ▸ List.mem_singleton_self _)
      have hj₁ : g₁.loggerCalled? n = some j := by rw [hasked.called, if_neg hne, hj]
      rw [hall.other j]
      · exact hasked.old j (h.registered.called n j hj).1
      · rintro rfl
        exact hne ((hasked.order.registered.called n j hj₁).2.2.1.symm.trans hiname)
    · intro n
      rw [hnames, Table.keys, List.map_singleton, List.mem_singleton]
      split
      · next hn => simp [hn]
      · next hn => simp [hn]
    · rw [hall.other rootId (Ne.symm hi0), hasked.root]

/-- What a name stands for when some sections were carried out that do not name it. -/
theorem Carried.former (h : Carried handlers filters sections g g') (hn : n ∉ sections.keys) :
    SameButLink (g.former n) (g'.former n) := by
  cases hcalled : g.loggerCalled? n with
  | some i =>
    rw [former_of_called hcalled, former_of_called (h.kept n i hcalled)]
    exact h.others n i hn hcalled
  | none =>
    have hmissing : g'.loggerCalled? n = none := by
      rw [← Option.not_isSome_iff_eq_none, h.names, hcalled]
      simp [hn]
    rw [former_of_missing hcalled, former_of_missing hmissing]
    exact SameButLink.refl _

/-- A section that is carried out before others, which do not name its logger. -/
theorem Carried.cons (h : Carried handlers filters [(name, e)] g g₁)
    (hrest : Carried handlers filters sections g₁ g') (hnew : name ∉ sections.keys) :
    Carried handlers filters ((name, e) :: sections) g g' := by
  have hkeys : ∀ n, n ∈ Table.keys ((name, e) :: sections) ↔ n = name ∨ n ∈ sections.keys :=
    fun n => List.mem_cons
  have hkey : ∀ n, n ∈ Table.keys [(name, e)] ↔ n = name := fun n => List.mem_singleton
  refine ⟨hrest.order, ?_, ?_, ?_, ?_, hrest.root.trans h.root⟩
  · -- The first section's logger is not named again, so what was set there stays.
    intro n e' hmem
    rcases List.mem_cons.mp hmem with heq | hin
    · obtain ⟨rfl, rfl⟩ := Prod.mk.inj heq
      obtain ⟨hknown, i, hi, hlogger⟩ := h.named n e' (List.mem_singleton_self _)
      exact ⟨hknown, i, hrest.kept n i hi, hlogger.trans (hrest.others n i hnew hi)⟩
    · have hn : n ≠ name := by
        rintro rfl
        exact hnew (List.mem_map.mpr ⟨(n, e'), hin, rfl⟩)
      obtain ⟨hknown, i, hi, hlogger⟩ := hrest.named n e' hin
      have hformer := h.former (mt (hkey n).mp hn)
      exact ⟨hknown, i, hi, (hformer.map fun _ _ => rfl).trans hlogger⟩
  · intro n i hi
    exact hrest.kept n i (h.kept n i hi)
  · intro n i hn hi
    rw [hkeys, not_or] at hn
    have hone := h.others n i (mt (hkey n).mp hn.1) hi
    exact hone.trans (hrest.others n i hn.2 (h.kept n i hi))
  · intro n
    rw [hrest.names, h.names, hkey, hkeys, or_assoc]

/-- **The sections in turn**: the first one fails, and that is the end of it, or the others are
    carried out behind it. -/
theorem configureAll_cons {r : Except LogError Unit}
    (hrun : configureAll w ((name, e) :: sections) g s = (r, g', s')) :
    (∃ fault, r = .error fault ∧ configureNamed w name e g s = (.error fault, g', s')) ∨
      ∃ g₁ s₁, configureNamed w name e g s = (.ok (), g₁, s₁) ∧
        configureAll w sections g₁ s₁ = (r, g', s') := by
  unfold configureAll at hrun
  rcases hone : configureNamed w name e g s with ⟨fault | _, g₁, s₁⟩
  · rw [hone] at hrun
    simp only [Prod.mk.injEq] at hrun
    obtain ⟨rfl, rfl, rfl⟩ := hrun
    exact .inl ⟨fault, rfl, rfl⟩
  · rw [hone] at hrun
    exact .inr ⟨g₁, s₁, rfl, hrun⟩

/-- Sections that are carried out one after the other. -/
theorem configureAll_carried (h : g.InOrder) (hsorted : sections.Sorted)
    (hproper : ∀ n ∈ sections.keys, Proper n)
    (hrun : configureAll w sections g s = (.ok (), g', s')) :
    Carried w.handlers w.filters sections g g' := by
  induction sections generalizing g s with
  | nil =>
    injection hrun with _ hrun
    injection hrun with hg _
    subst hg
    refine ⟨h, ?_, fun _ _ hi => hi, fun _ _ _ _ => SameButLink.refl _, ?_, rfl⟩
    · intro n e hmem
      cases hmem
    · intro n
      simp [Table.keys]
  | cons head rest ih =>
    obtain ⟨name, e⟩ := head
    obtain ⟨hhead, hrest⟩ := List.pairwise_cons.mp hsorted
    obtain ⟨_, heq, -⟩ | ⟨g₁, s₁, hone, hlater⟩ := configureAll_cons hrun
    · cases heq
    · have hfirst := configureNamed_carried h (hproper name List.mem_cons_self) hone
      refine hfirst.cons (ih hfirst.order hrest ?_ hlater) ?_
      · intro n hn
        exact hproper n (List.mem_cons_of_mem _ hn)
      · -- The keys are sorted, so no later section is for the same name.
        intro hin
        obtain ⟨p, hp, hpname⟩ := List.mem_map.mp hin
        exact absurd (hhead p hp) (hpname ▸ lt_irrefl _)

/-! ## A document, step by step -/

/-- **A document in turn**: it is of a known version, it is built, and the handlers that were
    built are held while the loggers are set up.  The first of the three that fails ends it,
    and the listeners that were started are stopped then. -/
theorem Document.apply_cases {d : Document} {r : Except LogError Configured}
    (hrun : d.apply g s = (r, g', s')) :
    (d.version ≠ 1 ∧ (∃ fault, r = .error fault) ∧ g' = g ∧ s' = s) ∨
      ∃ r₁ w s₁, d.build s = (r₁, w, s₁) ∧
        ((∃ fault, r₁ = .error fault ∧ r = .error fault ∧ g' = g ∧
            s' = stopAll w.listeners s₁) ∨
          r₁ = .ok () ∧ ∃ r₂ s₂,
            d.configureLoggers w g ((w.handlers.map Prod.snd).foldl Store.hold s₁) = (r₂, g', s₂) ∧
            ((∃ fault, r₂ = .error fault ∧ r = .error fault ∧ s' = stopAll w.listeners s₂) ∨
              r₂ = .ok () ∧ r = .ok ⟨w.handlers, w.listeners⟩ ∧ s' = s₂)) := by
  -- The three steps are taken in the order of the definition.
  unfold Document.apply at hrun
  split at hrun
  · next hversion =>
    cases hrun
    exact .inl ⟨hversion, ⟨_, rfl⟩, rfl, rfl⟩
  · right
    rcases hbuild : d.build s with ⟨fault | _, w, s₁⟩
    · rw [hbuild] at hrun
      cases hrun
      exact ⟨_, w, s₁, rfl, .inl ⟨fault, rfl, rfl, rfl, rfl⟩⟩
    · rw [hbuild] at hrun
      refine ⟨_, w, s₁, rfl, .inr ⟨rfl, ?_⟩⟩
      dsimp only at hrun
      rcases hset : d.configureLoggers w g ((w.handlers.map Prod.snd).foldl Store.hold s₁) with
        ⟨fault | _, g₂, s₂⟩
      · rw [hset] at hrun
        cases hrun
        exact ⟨_, s₂, rfl, .inl ⟨fault, rfl, rfl, rfl⟩⟩
      · rw [hset] at hrun
        cases hrun
        exact ⟨_, _, rfl, .inr ⟨rfl, rfl, rfl⟩⟩

/-- What a document that was carried out has built, and what it has set up by it. -/
theorem Document.apply_ok {d : Document} {c : Configured} (hrun : d.apply g s = (.ok c, g', s')) :
    ∃ w s₁, d.build s = (.ok (), w, s₁) ∧ c = ⟨w.handlers, w.listeners⟩ ∧
      d.configureLoggers w g ((w.handlers.map Prod.snd).foldl Store.hold s₁) = (.ok (), g', s') := by
  rcases Document.apply_cases hrun with
    ⟨-, ⟨_, heq⟩, -⟩ | ⟨_, w, s₁, hbuild, ⟨_, -, heq, -⟩ | ⟨rfl, _, s₂, hset, hend⟩⟩
  · cases heq
  · cases heq
  · rcases hend with ⟨_, -, heq, -⟩ | ⟨rfl, heq, rfl⟩
    · cases heq
    · exact ⟨w, s₁, hbuild, Except.ok.inj heq, hset⟩

end Logbook.Configuration
