import Logbook.Proofs.Configuration.Documents
import Logbook.Proofs.Hierarchy.Standing

/-! # Sections, one after the other

    A section of a document looks all its names up before it changes anything.  If one is
    unknown, the logger of the section has been made at most, and it is not set up.  So
    the sections before a failing one have been carried out in full, and those after it
    not at all.

    Whatever comes of the sections, the registry stays sound, names go on to stand for
    the loggers they stood for, what is attached to loggers is there, and what was in the
    store persists.
-/

namespace Logbook

/-- **Backed**: what is attached to a logger is in the store. -/
structure Logger.Backed (x : Logger) (s : Store) : Prop where
  handlers : ∀ h ∈ x.handlers, h < s.handlers.size
  filters : ∀ f ∈ x.filters, f < s.filters.size

theorem Logger.Backed.persist {x : Logger} {s s' : Store} (h : x.Backed s) (hs : s.Persists s') :
    x.Backed s' :=
  ⟨fun k hk => Nat.lt_of_lt_of_le (h.handlers k hk) hs.size_handlers,
    fun f hf => Nat.lt_of_lt_of_le (h.filters f hf) hs.size_filters⟩

/-- **Backed**: what is attached to any logger is in the store. -/
def Registry.Backed (g : Registry) (s : Store) : Prop := ∀ i, (g.logger i).Backed s

namespace Configuration

open Registry

variable {g g' g₁ : Registry} {s s' s₀ s₁ : Store} {i j : LoggerId} {name n : String}
  {e : LoggerEntry} {w : Wiring} {d : Document} {fault : LogError} {sections : Table LoggerEntry}

/-! ## Unknown names -/

/-- **The first unknown name** of a list, and the fault that tells of it. -/
def FirstUnknown (what component : String) (known names : List String) (fault : LogError) : Prop :=
  ∃ before k after, names = before ++ k :: after ∧ (∀ p ∈ before, p ∈ known) ∧ k ∉ known ∧
    fault = .config component s!"Unknown {what} '{k}'"

/-- A look-up that fails has met an unknown name. -/
theorem lookupAll_error {α : Type} {what component : String} {t : Table α} {names : List String}
    (h : lookupAll what component t names = .error fault) :
    FirstUnknown what component t.keys names fault := by
  induction names with
  | nil => cases h
  | cons k names ih =>
    unfold lookupAll at h
    cases hk : t.get? k with
    | none =>
      rw [hk] at h
      cases h
      refine ⟨[], k, names, rfl, fun p hp => absurd hp List.not_mem_nil, ?_, rfl⟩
      rw [← Table.isSome_get?_iff, hk]
      exact Bool.false_ne_true
    | some a =>
      rw [hk] at h
      dsimp only at h
      -- The names in front of the unknown one are found; the failure of the rest gives the cut.
      cases hrest : lookupAll what component t names with
      | ok rest =>
        rw [hrest] at h
        cases h
      | error fault' =>
        rw [hrest] at h
        cases h
        obtain ⟨before, k', after, rfl, hknown, hunknown, hfault⟩ := ih hrest
        refine ⟨k :: before, k', after, rfl, ?_, hunknown, hfault⟩
        intro p hp
        rcases List.mem_cons.mp hp with rfl | hin
        · exact Table.isSome_get?_iff.mp (hk ▸ rfl)
        · exact hknown p hin

/-- **Faulty**: a section lists a handler that the document does not have, or else a filter. -/
def LoggerEntry.Faulty (e : LoggerEntry) (d : Document) (component : String) (fault : LogError) :
    Prop :=
  FirstUnknown "handler" component d.handlers.keys e.handlers fault ∨
    (∀ k ∈ e.handlers, k ∈ d.handlers.keys) ∧
      FirstUnknown "filter" component d.filters.keys e.filters fault

/-- A section that fails changes nothing. -/
theorem configureLogger_error (hw : w.Built d s₀ s)
    (hrun : configureLogger w i e g s = (.error fault, g', s')) :
    g' = g ∧ s' = s ∧ e.Faulty d (loggerComponent (g.logger i).name) fault := by
  have hhandlers : ∀ k, k ∈ w.handlers.keys ↔ k ∈ d.handlers.keys := fun k => by
    rw [← hw.complete, Table.isSome_get?_iff]
  -- Handlers are looked up before filters, and the logger is changed after both.
  unfold configureLogger at hrun
  dsimp only at hrun
  split at hrun
  · next hlook =>
    cases hrun
    obtain ⟨before, k, after, heq, hknown, hunknown, hfault⟩ := lookupAll_error hlook
    exact ⟨rfl, rfl, .inl ⟨before, k, after, heq, fun p hp => (hhandlers p).mp (hknown p hp),
      mt (hhandlers k).mpr hunknown, hfault⟩⟩
  · next handlers hlook =>
    split at hrun
    · next hlook' =>
      cases hrun
      have hfault := lookupAll_error hlook'
      rw [hw.filters.keys] at hfault
      exact ⟨rfl, rfl, .inr ⟨fun k hk => (hw.complete k).mp ((lookupAll_ok hlook).1 k hk), hfault⟩⟩
    · cases hrun

/-- A section that fails has made its logger at most. -/
theorem configureNamed_error (hw : w.Built d s₀ s)
    (hrun : configureNamed w name e g s = (.error fault, g', s')) :
    g' = (g.getLogger name).2 ∧ s' = s ∧
      e.Faulty d (loggerComponent (g'.logger (g.getLogger name).1).name) fault := by
  unfold configureNamed at hrun
  dsimp only at hrun
  split at hrun
  · next hset =>
    cases hrun
    obtain ⟨hg, hs, hfaulty⟩ := configureLogger_error hw hset
    rw [hg]
    exact ⟨rfl, hs, hfaulty⟩
  · cases hrun

/-- Sections that fail: those before the failing one have been carried out. -/
theorem configureAll_error (hrun : configureAll w sections g s = (.error fault, g', s')) :
    ∃ before name e after g₁ s₁, sections = before ++ (name, e) :: after ∧
      configureAll w before g s = (.ok (), g₁, s₁) ∧
      configureNamed w name e g₁ s₁ = (.error fault, g', s') := by
  induction sections generalizing g s with
  | nil => cases hrun
  | cons head rest ih =>
    obtain ⟨name, e⟩ := head
    obtain ⟨_, heq, hone⟩ | ⟨g₁, s₁, hone, hlater⟩ := configureAll_cons hrun
    · cases heq
      exact ⟨[], name, e, rest, g, s, rfl, rfl, hone⟩
    · obtain ⟨before, name', e', after, g₂, s₂, rfl, hbefore, hfailed⟩ := ih hlater
      refine ⟨(name, e) :: before, name', e', after, g₂, s₂, rfl, ?_, hfailed⟩
      rw [configureAll, hone]
      exact hbefore

/-! ## What persists -/

theorem persists_detachAll (i : LoggerId) (g : Registry) (s : Store) :
    s.Persists (detachAll i g s).2 :=
  Store.persists_foldl Store.persists_giveUp (g.logger i).handlers s

theorem persists_attachAll (i : LoggerId) (handlers : List HandlerId) (p : Registry × Store) :
    p.2.Persists (handlers.foldl (attach i) p).2 := by
  induction handlers generalizing p with
  | nil => exact .refl _
  | cons h handlers ih =>
    have hone : p.2.Persists (attach i p h).2 := by
      unfold attach
      split
      · exact .refl _
      · exact Store.persists_hold _ h
    exact hone.trans (ih _)

theorem persists_configureLogger (w : Wiring) (i : LoggerId) (e : LoggerEntry) (g : Registry)
    (s : Store) : s.Persists (configureLogger w i e g s).2.2 := by
  unfold configureLogger
  dsimp only
  split
  · exact .refl s
  · split
    · exact .refl s
    · exact (persists_detachAll i _ s).trans (persists_attachAll i _ _)

/-! ## What is kept -/

/-- **Tended**: a registry and a store before and after something was done to the loggers. -/
structure Tended (g : Registry) (s : Store) (g' : Registry) (s' : Store) : Prop where
  sound : g'.Sound
  backed : g'.Backed s'
  persists : s.Persists s'
  kept : ∀ n i, g.standing? n = some i → g'.standing? n = some i

namespace Tended

theorem refl (hg : g.Sound) (hb : g.Backed s) : Tended g s g s := ⟨hg, hb, .refl s, fun _ _ => id⟩

theorem trans {g'' : Registry} {s'' : Store} (h : Tended g s g' s') (h' : Tended g' s' g'' s'') :
    Tended g s g'' s'' :=
  ⟨h'.sound, h'.backed, h.persists.trans h'.persists,
    fun n i hi => h'.kept n i (h.kept n i hi)⟩

/-- The store goes on without the registry. -/
theorem persist (h : Tended g s g' s') {s'' : Store} (hs : s'.Persists s'') : Tended g s g' s'' :=
  ⟨h.sound, fun i => (h.backed i).persist hs, h.persists.trans hs, h.kept⟩

/-- A registry that is asked for a name. -/
theorem of_met (hb : g.Backed s) (h : Met g g' name i) : Tended g s g' s := by
  refine ⟨h.sound, fun j => ?_, .refl s, fun _ _ => h.kept⟩
  have hhandlers := h.view_eq Logger.handlers (fun _ _ _ => rfl) j
  have hfilters := h.view_eq Logger.filters (fun _ _ _ => rfl) j
  exact ⟨hhandlers ▸ (hb j).handlers, hfilters ▸ (hb j).filters⟩

/-- One logger that is set. -/
theorem of_sets {f : Logger → Logger} (hg : g.Sound) (hb : g.Backed s) (hset : Sets g g' i f)
    (hf : KeepsPlace f) (hs : s.Persists s') (hself : (f (g.logger i)).Backed s') :
    Tended g s g' s' := by
  refine ⟨(hset.sameTree hf).sound hg, fun j => ?_, hs, fun n j hj => ?_⟩
  · by_cases hj : j = i
    · rw [hj, hset.self]
      exact hself
    · rw [hset.other j hj]
      exact (hb j).persist hs
  · rwa [standing?_congr hset.nodes]

end Tended

/-- A logger that a section sets up has what the wiring has. -/
theorem backed_setUp {x : Logger} (hw : w.Built d s₀ s) (hx : x.Backed s) (e : LoggerEntry) :
    (e.setUp w.handlers w.filters x).Backed s := by
  constructor
  · intro h hh
    obtain ⟨k, -, hk⟩ := List.mem_filterMap.mp (List.mem_eraseDups.mp hh)
    obtain ⟨-, y, hy, -⟩ := hw.handlers k h hk
    exact (Array.getElem?_eq_some_iff.mp hy).1
  · intro f hf
    rw [LoggerEntry.setUp, Handler.foldl_adjoin, List.mem_append, List.mem_eraseDups] at hf
    -- Filters are added to those the logger has, while handlers take their place.
    rcases hf with hold | hnew
    · exact hx.filters f hold
    · obtain ⟨k, -, hk⟩ := List.mem_filterMap.mp (List.mem_filter.mp hnew).1
      obtain ⟨e', -, htest⟩ := hw.filters.test k f hk
      have hlt := (Array.getElem?_eq_some_iff.mp htest).1
      rwa [Store.tests, Array.size_map] at hlt

/-- A section, whatever comes of it. -/
theorem configureLogger_tended {r : Except LogError Unit} (hg : g.Sound) (hb : g.Backed s)
    (hw : w.Built d s₀ s) (hi : i < g.loggers.size)
    (hrun : configureLogger w i e g s = (r, g', s')) : Tended g s g' s' := by
  have hs : s.Persists s' := by
    have := persists_configureLogger w i e g s
    rwa [hrun] at this
  cases r with
  | error fault =>
    obtain ⟨rfl, rfl, -⟩ := configureLogger_error hw hrun
    exact .refl hg hb
  | ok =>
    exact .of_sets hg hb (configureLogger_sets hi hrun).2 (e.keepsPlace_setUp _ _) hs
      (backed_setUp (hw.persist hs) ((hb i).persist hs) e)

/-- A named logger that is set up: first it is asked for, then it alone is changed. -/
theorem configureNamed_sets (hg : g.Sound)
    (hrun : configureNamed w name e g s = (.ok (), g', s')) :
    (∀ k ∈ e.handlers, (w.handlers.get? k).isSome) ∧
      Sets (g.getLogger name).2 g' (g.getLogger name).1 (e.setUpNamed w.handlers w.filters) ∧
      s.Persists s' := by
  have hlt := (hg.met name).lt
  unfold configureNamed at hrun
  dsimp only at hrun
  split at hrun
  · cases hrun
  · next g₁ s₁ hset =>
    cases hrun
    obtain ⟨hknown, hsets⟩ := configureLogger_sets hlt hset
    have hs := persists_configureLogger w (g.getLogger name).1 e (g.getLogger name).2 s
    rw [hset] at hs
    refine ⟨hknown, hsets.trans (Sets.modify (hsets.size ▸ hlt) fun x => _), hs⟩

/-- One section for a named logger, whatever comes of it. -/
theorem configureNamed_tended {r : Except LogError Unit} (hg : g.Sound) (hb : g.Backed s)
    (hw : w.Built d s₀ s) (hrun : configureNamed w name e g s = (r, g', s')) :
    Tended g s g' s' := by
  have hasked : Tended g s (g.getLogger name).2 s := .of_met hb (hg.met name)
  cases r with
  | error fault =>
    obtain ⟨rfl, rfl, -⟩ := configureNamed_error hw hrun
    exact hasked
  | ok =>
    obtain ⟨-, hsets, hs⟩ := configureNamed_sets hg hrun
    have hset := backed_setUp (hw.persist hs) ((hasked.backed (g.getLogger name).1).persist hs) e
    exact hasked.trans (.of_sets hasked.sound hasked.backed hsets (e.keepsPlace_setUpNamed _ _) hs
      ⟨hset.handlers, hset.filters⟩)

/-- Sections for named loggers, whatever comes of them. -/
theorem configureAll_tended {r : Except LogError Unit} (hg : g.Sound) (hb : g.Backed s)
    (hw : w.Built d s₀ s) (hrun : configureAll w sections g s = (r, g', s')) :
    Tended g s g' s' := by
  induction sections generalizing g s with
  | nil =>
    cases hrun
    exact .refl hg hb
  | cons head rest ih =>
    obtain ⟨name, e⟩ := head
    obtain ⟨_, -, hone⟩ | ⟨g₁, s₁, hone, hlater⟩ := configureAll_cons hrun
    · exact configureNamed_tended hg hb hw hone
    · have hfirst := configureNamed_tended hg hb hw hone
      exact hfirst.trans (ih hfirst.sound hfirst.backed (hw.persist hfirst.persists) hlater)

/-! ## The other loggers -/

variable {p : Registry × Store} {names : List String}

theorem persists_settleUnnamed (covered : List String) (disable : Bool) (p : Registry × Store)
    (n : String) : p.2.Persists (settleUnnamed covered disable p n).2 := by
  unfold settleUnnamed
  dsimp only
  split
  · exact persists_detachAll _ _ p.2
  · split <;> exact .refl _

/-- A logger that is not named is settled. -/
theorem settleUnnamed_tended (covered : List String) (disable : Bool) (hg : p.1.Sound)
    (hb : p.1.Backed p.2) (hi : p.1.loggerCalled? n = some i) :
    Tended p.1 p.2 (settleUnnamed covered disable p n).1 (settleUnnamed covered disable p n).2 := by
  have hs := persists_settleUnnamed covered disable p n
  refine .of_sets hg hb (settleUnnamed_sets covered disable hg.registered hi)
    (keepsPlace_settled covered disable n) hs ?_
  obtain ⟨hhandlers, hfilters⟩ := (hb i).persist hs
  unfold settled
  split
  · exact ⟨fun h hh => absurd hh List.not_mem_nil, hfilters⟩
  · split <;> exact ⟨hhandlers, hfilters⟩

/-- A name that is not the root's goes on to be that of a logger. -/
theorem Tended.called (h : Tended g s g' s') (hg : g.Sound) (hi : g.loggerCalled? n = some i) :
    g'.loggerCalled? n = some i := by
  have hkept := h.kept n i (standing?_of_called hg.registered hi)
  rwa [standing?, if_neg (not_or.mpr (hg.registered.called n i hi).2.2.2)] at hkept

/-- All loggers that are not named are settled. -/
theorem settleAll_tended (covered : List String) (disable : Bool) (hg : p.1.Sound)
    (hb : p.1.Backed p.2) (hcalled : ∀ n ∈ names, (p.1.loggerCalled? n).isSome) :
    Tended p.1 p.2 (names.foldl (settleUnnamed covered disable) p).1
      (names.foldl (settleUnnamed covered disable) p).2 := by
  induction names generalizing p with
  | nil => exact .refl hg hb
  | cons name names ih =>
    obtain ⟨i, hi⟩ := Option.isSome_iff_exists.mp (hcalled name List.mem_cons_self)
    have hone := settleUnnamed_tended covered disable hg hb hi
    refine hone.trans (ih hone.sound hone.backed fun n hn => ?_)
    obtain ⟨j, hj⟩ := Option.isSome_iff_exists.mp (hcalled n (List.mem_cons_of_mem _ hn))
    rw [hone.called hg hj]
    rfl

/-! ## The whole document -/

/-- What a document does to the loggers that it does not name, once it has set up the
    others. -/
def Document.settleOthers (d : Document) (existing : List String) (p : Registry × Store) :
    Registry × Store :=
  (existing.filter (· ∉ d.loggers.keys)).foldl
    (settleUnnamed (coveredBy d.loggers.keys existing) d.disableExisting) p

/-- The named loggers, the others and the root are set up in turn. -/
theorem configureLoggers_eq (d : Document) (w : Wiring) (g : Registry) (s : Store) :
    d.configureLoggers w g s =
      match configureAll w d.loggers g s with
      | (.error fault, g, s) => (.error fault, g, s)
      | (.ok (), g₁, s₁) =>
        match d.root? with
        | none => (.ok (), d.settleOthers g.names (g₁, s₁))
        | some e => configureLogger w rootId e (d.settleOthers g.names (g₁, s₁)).1
            (d.settleOthers g.names (g₁, s₁)).2 := rfl

/-- The loggers that a document does not name are there after it has set up the others. -/
theorem Tended.called_unnamed (h : Tended g s g₁ s₁) (hg : g.Sound) (keys : List String) :
    ∀ n ∈ g.names.filter (· ∉ keys), (g₁.loggerCalled? n).isSome := by
  intro n hn
  obtain ⟨i, hi⟩ := Option.isSome_iff_exists.mp
    ((mem_unnamed_iff hg.registered).mp hn).1
  rw [h.called hg hi]
  rfl

/-- The named loggers and the others. -/
theorem settleOthers_tended (hg : g.Sound) (hb : g.Backed s) (hw : w.Built d s₀ s)
    (hrun : configureAll w d.loggers g s = (.ok (), g₁, s₁)) :
    Tended g s (d.settleOthers g.names (g₁, s₁)).1 (d.settleOthers g.names (g₁, s₁)).2 := by
  have hnamed := configureAll_tended hg hb hw hrun
  exact hnamed.trans (settleAll_tended (p := (g₁, s₁)) _ _ hnamed.sound hnamed.backed
    (hnamed.called_unnamed hg _))

/-- The loggers of a document, whatever comes of it. -/
theorem configureLoggers_tended {r : Except LogError Unit} (hg : g.Sound) (hb : g.Backed s)
    (hw : w.Built d s₀ s) (hrun : d.configureLoggers w g s = (r, g', s')) :
    Tended g s g' s' := by
  rw [configureLoggers_eq] at hrun
  split at hrun
  · next hall =>
    cases hrun
    exact configureAll_tended hg hb hw hall
  · next g₁ s₁ hall =>
    have htended := settleOthers_tended hg hb hw hall
    split at hrun
    · -- Without a section of its own the root is left as it is.
      rw [(Prod.mk.inj hrun).2] at htended
      exact htended
    · exact htended.trans (configureLogger_tended htended.sound htended.backed
        (hw.persist htended.persists) htended.sound.whole.root_lt hrun)

theorem persists_stopAll (ls : List Listener) (s : Store) : s.Persists (stopAll ls s) := by
  induction ls generalizing s with
  | nil => exact .refl s
  | cons l ls ih => exact (l.persists_stop s).trans (ih _)

/-- The handlers that were built are held. -/
theorem Wiring.Built.hold (hw : w.Built d s₀ s) (hs : List HandlerId) :
    w.Built d s₀ (hs.foldl Store.hold s) :=
  hw.persist (Store.persists_foldl Store.persists_hold hs s)

/-- **A document tends the loggers**, whatever comes of it. -/
theorem Document.apply_tended {r : Except LogError Configured} (hg : g.Sound) (hb : g.Backed s)
    (hrun : d.apply g s = (r, g', s')) : Tended g s g' s' := by
  rcases Document.apply_cases hrun with
    ⟨-, -, rfl, rfl⟩ | ⟨r₁, w, s₁, hbuild, ⟨_, rfl, -, rfl, rfl⟩ | ⟨rfl, r₂, s₂, hloggers, hend⟩⟩
  · exact .refl hg hb
  · exact (Tended.refl hg hb).persist ((build_spec d s hbuild).1.trans (persists_stopAll _ _))
  · -- Once the document is built its handlers are held, and the loggers may refer to them.
    obtain ⟨-, hw⟩ := build_spec d s hbuild
    have hw := (hw rfl).hold (w.handlers.map Prod.snd)
    have hstart : Tended g s g ((w.handlers.map Prod.snd).foldl Store.hold s₁) :=
      (Tended.refl hg hb).persist hw.persists
    have hset := hstart.trans (configureLoggers_tended hg hstart.backed hw hloggers)
    rcases hend with ⟨_, -, -, rfl⟩ | ⟨-, -, rfl⟩
    · exact hset.persist (persists_stopAll _ _)
    · exact hset

end Configuration

end Logbook
