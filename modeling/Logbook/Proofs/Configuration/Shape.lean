import Logbook.Proofs.Configuration.Failures
import Logbook.Proofs.Delivery.Acceptance

/-! # What a document makes of a logger

    Apart from its place in the tree, a logger is told by its level, its flags, the names
    of its handlers and the records that its filters accept.  A document gives it a
    shape: some of these are set, the others stay, and the filters accept no more than
    before.  The shapes of several sections make one, and a shape that is given again
    changes nothing.

    Every step of a document that is carried out gives a shape to the loggers, and so does
    the document as a whole.  That shape is a matter of the document and of the names in
    the registry it leaves behind.
-/

namespace Logbook

variable {s s' : Store}

/-! ## Profiles and shapes -/

/-- What a logger is told by, apart from its place. -/
structure Profile where
  level : Level
  propagate : Bool
  disabled : Bool
  handlers : List String
  accepts : Record → Bool

/-- The profile of a logger. -/
def Logger.profile (x : Logger) (s : Store) : Profile :=
  { level := x.level, propagate := x.propagate, disabled := x.disabled,
    handlers := x.handlers.map s.nameOf, accepts := s.accepts x.filters }

/-- A logger keeps its profile as long as the store persists. -/
theorem Logger.Backed.profile_eq {x : Logger} (h : x.Backed s) (hs : s.Persists s') :
    x.profile s' = x.profile s := by
  have hnames : x.handlers.map s'.nameOf = x.handlers.map s.nameOf :=
    List.map_congr_left fun k hk => hs.nameOf_eq (h.handlers k hk)
  have haccepts : s'.accepts x.filters = s.accepts x.filters :=
    funext fun r => hs.accepts_eq h.filters r
  rw [profile, hnames, haccepts]
  rfl

/-- What is set on a logger; what is left out stays as it is.  Of the records it goes on
    to accept those whose names the mask lets through. -/
structure Shape where
  level? : Option Level := none
  propagate? : Option Bool := none
  disabled? : Option Bool := none
  handlers? : Option (List String) := none
  mask : String → Bool := fun _ => true

namespace Shape

variable {c c' : Shape} {x : Profile}

/-- Gives the shape to a profile. -/
def apply (c : Shape) (x : Profile) : Profile :=
  { level := c.level?.getD x.level, propagate := c.propagate?.getD x.propagate,
    disabled := c.disabled?.getD x.disabled, handlers := c.handlers?.getD x.handlers,
    accepts := fun r => x.accepts r && c.mask r.name }

/-- One shape and another one after it. -/
def andThen (c c' : Shape) : Shape :=
  { level? := c'.level?.or c.level?, propagate? := c'.propagate?.or c.propagate?,
    disabled? := c'.disabled?.or c.disabled?, handlers? := c'.handlers?.or c.handlers?,
    mask := fun n => c.mask n && c'.mask n }

@[simp] theorem apply_none (x : Profile) : apply {} x = x := by simp [apply]

@[simp] theorem none_andThen (c : Shape) : andThen {} c = c := by simp [andThen]

theorem apply_andThen (c c' : Shape) (x : Profile) :
    (c.andThen c').apply x = c'.apply (c.apply x) := by
  simp [apply, andThen, Option.getD_or, Bool.and_assoc]

/-- **A shape that is given again changes nothing.** -/
theorem apply_apply (c : Shape) (x : Profile) : c.apply (c.apply x) = c.apply x := by
  have hagain : ∀ {α : Type} (a? : Option α) (a : α), a?.getD (a?.getD a) = a?.getD a := by
    intro α a? a
    cases a? <;> rfl
  simp [apply, hagain]

/-- Handlers are set if one of two shapes sets them. -/
theorem isSome_handlers_andThen :
    (c.andThen c').handlers?.isSome = (c.handlers?.isSome || c'.handlers?.isSome) := by
  rw [andThen, Option.isSome_or, Bool.or_comm]

end Shape

namespace Configuration

open Registry

variable {g g' g₁ g₂ : Registry} {s₀ s₁ s₂ : Store} {i j : LoggerId} {name n k : String}
  {e : LoggerEntry} {w : Wiring} {d : Document} {sections : Table LoggerEntry}

/-! ## The shape of a section -/

/-- The names of records that a filter lets through. -/
def FilterEntry.accepts (e : FilterEntry) (n : String) : Bool :=
  e.name = "" || e.name = n || isBelow e.name n

theorem FilterEntry.byName (e : FilterEntry) : Store.ByName e.test e.accepts := fun _ => rfl

/-- The names of records that all filters of a section let through. -/
def LoggerEntry.mask (e : LoggerEntry) (filters : Table FilterEntry) (n : String) : Bool :=
  e.filters.all fun k => (filters.get? k).all (·.accepts n)

/-- What a section sets. -/
def LoggerEntry.shape (e : LoggerEntry) (d : Document) : Shape :=
  { level? := e.level?, handlers? := some e.handlers.eraseDups, mask := e.mask d.filters }

/-- What the section of a named logger sets. -/
def LoggerEntry.shapeNamed (e : LoggerEntry) (d : Document) : Shape :=
  { e.shape d with disabled? := some false, propagate? := e.propagate? }

/-- To leave out what is there already goes along with a map that tells members apart. -/
theorem map_foldl_adjoin {α β : Type} [DecidableEq α] [DecidableEq β] {f : α → β} (as bs : List α)
    (hf : ∀ a ∈ as ++ bs, ∀ b ∈ as ++ bs, f a = f b → a = b) :
    (bs.foldl Handler.adjoin as).map f = (bs.map f).foldl Handler.adjoin (as.map f) := by
  induction bs generalizing as with
  | nil => rfl
  | cons b bs ih =>
    -- What is there has its image there, and what is new has a new image.
    have hone : (Handler.adjoin as b).map f = Handler.adjoin (as.map f) (f b) := by
      by_cases hin : b ∈ as
      · rw [Handler.adjoin, Handler.adjoin, if_pos hin, if_pos (List.mem_map_of_mem hin)]
      · have hnew : f b ∉ as.map f := by
          intro hmem
          obtain ⟨a, ha, heq⟩ := List.mem_map.mp hmem
          exact hin (hf a (by simp [ha]) b (by simp) heq ▸ ha)
        rw [Handler.adjoin, Handler.adjoin, if_neg hin, if_neg hnew, List.map_append]
        rfl
    have hmem : ∀ a ∈ Handler.adjoin as b ++ bs, a ∈ as ++ b :: bs := by
      intro a ha
      rw [List.mem_append, Handler.mem_adjoin, or_assoc] at ha
      exact List.mem_append.mpr (ha.imp_right List.mem_cons.mpr)
    rw [List.foldl_cons, List.map_cons, List.foldl_cons, ← hone]
    exact ih _ fun a ha b' hb' => hf a (hmem a ha) b' (hmem b' hb')

/-- Handlers that are found by their names have these names. -/
theorem map_nameOf_filterMap (hw : w.Built d s₀ s) {names : List String}
    (hknown : ∀ k ∈ names, (w.handlers.get? k).isSome) :
    (names.filterMap w.handlers.get?).map s.nameOf = names := by
  induction names with
  | nil => rfl
  | cons k names ih =>
    obtain ⟨h, hh⟩ := Option.isSome_iff_exists.mp (hknown k List.mem_cons_self)
    rw [List.filterMap_cons_some hh, List.map_cons, hw.nameOf_eq hh,
      ih fun k' hk' => hknown k' (List.mem_cons_of_mem _ hk')]

/-- The handlers that a section lists, by their names. -/
theorem map_nameOf_listed (hw : w.Built d s₀ s) {names : List String}
    (hknown : ∀ k ∈ names, (w.handlers.get? k).isSome) :
    (names.filterMap w.handlers.get?).eraseDups.map s.nameOf = names.eraseDups := by
  have hfound : ∀ h ∈ names.filterMap w.handlers.get?, w.handlers.get? (s.nameOf h) = some h := by
    intro h hh
    obtain ⟨k, -, hk⟩ := List.mem_filterMap.mp hh
    rw [hw.nameOf_eq hk, hk]
  rw [← Handler.foldl_adjoin_nil, map_foldl_adjoin, map_nameOf_filterMap hw hknown, List.map_nil,
    Handler.foldl_adjoin_nil]
  intro a ha b hb heq
  rw [List.nil_append] at ha hb
  exact Option.some.inj ((hfound a ha).symm.trans (heq ▸ hfound b hb))

/-- The records that are accepted after the filters of a section were added. -/
theorem accepts_listed (hw : w.Built d s₀ s) (names : List String) (fs : List FilterId)
    (r : Record) : s.accepts ((names.filterMap w.filters.get?).foldl Handler.adjoin fs) r =
      (s.accepts fs r && names.all fun k => (d.filters.get? k).all (·.accepts r.name)) := by
  induction names generalizing fs with
  | nil => simp
  | cons k names ih =>
    cases hk : w.filters.get? k with
    | none =>
      -- The document has no such filter either, so the name stands for no test.
      have hmissing : d.filters.get? k = none := by
        rw [← Option.not_isSome_iff_eq_none, Table.isSome_get?_iff, ← hw.isSome_filters, hk]
        exact Bool.false_ne_true
      rw [List.filterMap_cons_none hk, ih, List.all_cons, hmissing]
      rfl
    | some f =>
      obtain ⟨e, he, htest⟩ := hw.filters.test k f hk
      rw [List.filterMap_cons_some hk, List.foldl_cons, ih, Store.accepts_adjoin fs htest e.byName,
        List.all_cons, he, Bool.and_assoc]
      rfl

/-- **A section gives its shape to its logger.** -/
theorem profile_setUp (hw : w.Built d s₀ s) (hknown : ∀ k ∈ e.handlers, (w.handlers.get? k).isSome)
    (x : Logger) :
    (e.setUp w.handlers w.filters x).profile s = (e.shape d).apply (x.profile s) := by
  have hnames := map_nameOf_listed hw hknown
  have haccepts := funext fun r => accepts_listed hw e.filters x.filters r
  unfold Logger.profile
  dsimp only [LoggerEntry.setUp]
  rw [hnames, haccepts]
  rfl

theorem profile_setUpNamed (hw : w.Built d s₀ s)
    (hknown : ∀ k ∈ e.handlers, (w.handlers.get? k).isSome) (x : Logger) :
    (e.setUpNamed w.handlers w.filters x).profile s = (e.shapeNamed d).apply (x.profile s) := by
  have hset := profile_setUp hw hknown x
  calc (e.setUpNamed w.handlers w.filters x).profile s
    _ = { (e.setUp w.handlers w.filters x).profile s with
          disabled := false, propagate := e.propagate?.getD x.propagate } := rfl
    _ = (e.shapeNamed d).apply (x.profile s) := by rw [hset]; rfl

/-! ## The shapes of all loggers -/

/-- **Wired**: the handlers of a logger are in the wiring. -/
def Wiring.Wired (w : Wiring) (x : Logger) : Prop := ∀ h ∈ x.handlers, ∃ k, w.handlers.get? k = some h

/-- **Reshaped**: every logger was given a shape, and if that sets handlers, they are those
    of the wiring. -/
structure Reshaped (w : Wiring) (c : LoggerId → Shape) (g : Registry) (s : Store) (g' : Registry)
    (s' : Store) : Prop where
  profile : ∀ j, (g'.logger j).profile s' = (c j).apply ((g.logger j).profile s)
  wired : ∀ j, (c j).handlers?.isSome ∨ w.Wired (g.logger j) → w.Wired (g'.logger j)

namespace Reshaped

variable {c c' : LoggerId → Shape} {s'' : Store}

/-- Nothing is done, but the store goes on. -/
theorem refl (hb : g.Backed s) (hs : s.Persists s') : Reshaped w (fun _ => {}) g s g s' := by
  refine ⟨fun j => ?_, fun j hj => ?_⟩
  · rw [(hb j).profile_eq hs, Shape.apply_none]
  · rcases hj with hset | hold
    · cases hset
    · exact hold

theorem trans (h : Reshaped w c g s g₁ s₁) (h' : Reshaped w c' g₁ s₁ g' s') :
    Reshaped w (fun j => (c j).andThen (c' j)) g s g' s' := by
  refine ⟨fun j => ?_, fun j hj => h'.wired j ?_⟩
  · rw [h'.profile, h.profile, Shape.apply_andThen]
  · rw [Shape.isSome_handlers_andThen, Bool.or_eq_true, or_right_comm] at hj
    exact hj.symm.imp id fun hold => h.wired j hold

theorem congr (h : Reshaped w c g s g' s') (hc : ∀ j, c' j = c j) : Reshaped w c' g s g' s' :=
  funext hc ▸ h

/-- A registry that is asked for a name. -/
theorem of_met (h : Met g g' name i) : Reshaped w (fun _ => {}) g s g' s := by
  refine ⟨fun j => ?_, fun j hj => ?_⟩
  · rw [Shape.apply_none]
    exact h.view_eq (·.profile s) (fun _ _ _ => rfl) j
  · have hhandlers := h.view_eq Logger.handlers (fun _ _ _ => rfl) j
    rcases hj with hset | hold
    · cases hset
    · rw [Wiring.Wired, hhandlers]
      exact hold

/-- One logger that is set. -/
theorem of_sets {f : Logger → Logger} {shape : Shape} (hb : g.Backed s) (hset : Sets g g' i f)
    (hs : s.Persists s')
    (hself : (f (g.logger i)).profile s' = shape.apply ((g.logger i).profile s))
    (hwired : shape.handlers?.isSome ∨ w.Wired (g.logger i) → w.Wired (f (g.logger i))) :
    Reshaped w (fun j => if j = i then shape else {}) g s g' s' := by
  refine ⟨fun j => ?_, fun j => ?_⟩
  · split
    · next hj => rw [hj, hset.self, hself]
    · next hj => rw [hset.other j hj, (hb j).profile_eq hs, Shape.apply_none]
  · split
    · next hj =>
      rw [hj, hset.self]
      exact hwired
    · next hj =>
      rw [hset.other j hj]
      exact fun h => h.elim (fun hset => by cases hset) id

end Reshaped

/-- The handlers that a section sets are in the wiring. -/
theorem wired_setUp (w : Wiring) (e : LoggerEntry) (x : Logger) :
    w.Wired (e.setUp w.handlers w.filters x) := by
  intro h hh
  obtain ⟨k, -, hk⟩ := List.mem_filterMap.mp (List.mem_eraseDups.mp hh)
  exact ⟨k, hk⟩

/-! ### Sections -/

/-- What sections make of a logger: each gives its shape to the logger that its name
    stands for. -/
def sectionShape (d : Document) (g : Registry) (j : LoggerId) : Table LoggerEntry → Shape
  | [] => {}
  | (k, e) :: rest =>
    (if g.standing? k = some j then e.shapeNamed d else {}).andThen (sectionShape d g j rest)

/-- A logger with a section is given handlers. -/
theorem isSome_sectionShape (hk : k ∈ sections.keys) (hj : g.standing? k = some j) :
    (sectionShape d g j sections).handlers?.isSome = true := by
  induction sections with
  | nil => cases hk
  | cons head rest ih =>
    obtain ⟨name, e⟩ := head
    rw [sectionShape, Shape.isSome_handlers_andThen, Bool.or_eq_true]
    rcases List.mem_cons.mp hk with heq | hin
    · have hname : g.standing? name = some j := (show k = name from heq) ▸ hj
      rw [if_pos hname]
      exact .inl rfl
    · exact .inr (ih hin)

/-- What sections make of loggers is a matter of what names stand for. -/
theorem sectionShape_congr (h : ∀ n, g'.standing? n = g.standing? n) (j : LoggerId)
    (sections : Table LoggerEntry) : sectionShape d g' j sections = sectionShape d g j sections := by
  induction sections with
  | nil => rfl
  | cons head rest ih =>
    obtain ⟨name, e⟩ := head
    rw [sectionShape, sectionShape, h, ih]

/-- The section of a logger that is there is carried out. -/
theorem configureLogger_reshaped (hb : g.Backed s) (hw : w.Built d s₀ s) (hi : i < g.loggers.size)
    (hrun : configureLogger w i e g s = (.ok (), g', s')) :
    SameTree g g' ∧ Reshaped w (fun j => if j = i then e.shape d else {}) g s g' s' := by
  obtain ⟨hknown, hsets⟩ := configureLogger_sets hi hrun
  have hs := persists_configureLogger w i e g s
  rw [hrun] at hs
  have hself := profile_setUp (hw.persist hs) hknown (g.logger i)
  rw [(hb i).profile_eq hs] at hself
  exact ⟨hsets.sameTree (e.keepsPlace_setUp _ _),
    .of_sets hb hsets hs hself fun _ => wired_setUp w e (g.logger i)⟩

/-- The section of a named logger, which is made if need be, is carried out. -/
theorem configureNamed_reshaped (hg : g.Sound) (hb : g.Backed s) (hw : w.Built d s₀ s)
    (hrun : configureNamed w name e g s = (.ok (), g', s')) :
    Reshaped w (fun j => if g'.standing? name = some j then e.shapeNamed d else {}) g s g' s' := by
  obtain ⟨hknown, hsets, hs⟩ := configureNamed_sets hg hrun
  have hmet := hg.met name
  have hb₁ := (Tended.of_met hb hmet).backed
  generalize g.getLogger name = asked at hsets hmet hb₁
  obtain ⟨i, g₁⟩ := asked
  -- What the logger had before keeps its meaning in the store after the section.
  have hself := profile_setUpNamed (hw.persist hs) hknown (g₁.logger i)
  rw [(hb₁ i).profile_eq hs] at hself
  have hset : Reshaped w (fun j => if j = i then e.shapeNamed d else {}) g₁ s g' s' :=
    .of_sets hb₁ hsets hs hself fun _ => wired_setUp w e (g₁.logger i)
  refine ((Reshaped.of_met hmet).trans hset).congr fun j => ?_
  have hstands : g'.standing? name = some i := by
    rw [standing?_congr hsets.nodes, hmet.standing, if_pos rfl]
  simp only [Shape.none_andThen, hstands, Option.some.injEq, eq_comm]

/-- Sections that are carried out one after the other. -/
theorem configureAll_reshaped (hg : g.Sound) (hb : g.Backed s) (hw : w.Built d s₀ s)
    (hrun : configureAll w sections g s = (.ok (), g', s')) :
    Reshaped w (fun j => sectionShape d g' j sections) g s g' s' := by
  induction sections generalizing g s with
  | nil =>
    cases hrun
    exact .refl hb (.refl _)
  | cons head rest ih =>
    obtain ⟨name, e⟩ := head
    obtain ⟨_, heq, -⟩ | ⟨g₁, s₁, hone, hlater⟩ := configureAll_cons hrun
    · cases heq
    · have htended := configureNamed_tended hg hb hw hone
      have hw₁ := hw.persist htended.persists
      have hrest := ih htended.sound htended.backed hw₁ hlater
      refine ((configureNamed_reshaped hg hb hw hone).trans hrest).congr fun j => ?_
      -- The name stands for the same logger after the other sections.
      obtain ⟨i, hi⟩ : ∃ i, g₁.standing? name = some i :=
        Option.isSome_iff_exists.mp (((configureNamed_passed hg hone).names name).mpr
          (.inr (List.mem_singleton_self _)))
      have hkept := (configureAll_tended htended.sound htended.backed hw₁ hlater).kept name i hi
      rw [sectionShape, hi, hkept]

/-! ### The other loggers -/

/-- What a document makes of a logger that it does not name. -/
def Document.otherShape (d : Document) (n : String) : Shape :=
  if n = rootName ∨ n ∈ d.loggers.keys then {}
  else if ∃ k ∈ d.loggers.keys, isBelow k n = true then
    { level? := some Level.notset, propagate? := some true, handlers? := some [] }
  else if d.disableExisting then { disabled? := some true }
  else {}

/-- What settles a logger gives it its shape. -/
theorem profile_settled {existing : List String} (hn : n ∈ existing) (hroot : n ≠ rootName)
    (hnew : n ∉ d.loggers.keys) (s : Store) (x : Logger) :
    (settled (coveredBy d.loggers.keys existing) d.disableExisting n x).profile s =
      (d.otherShape n).apply (x.profile s) := by
  have hcovered := (mem_coveredBy hnew).trans (and_iff_right hn)
  rw [settled, Document.otherShape, if_neg (not_or.mpr ⟨hroot, hnew⟩)]
  simp only [hcovered]
  split
  · simp [Shape.apply, Logger.profile]
  · split
    · simp [Shape.apply, Logger.profile]
    · rw [Shape.apply_none]

theorem wired_settled {existing : List String} (hn : n ∈ existing) (hroot : n ≠ rootName)
    (hnew : n ∉ d.loggers.keys) {x : Logger}
    (hx : (d.otherShape n).handlers?.isSome ∨ w.Wired x) :
    w.Wired (settled (coveredBy d.loggers.keys existing) d.disableExisting n x) := by
  have hcovered := (mem_coveredBy hnew).trans (and_iff_right hn)
  rw [Document.otherShape, if_neg (not_or.mpr ⟨hroot, hnew⟩)] at hx
  rw [settled]
  simp only [hcovered]
  split
  · exact fun h hh => absurd hh List.not_mem_nil
  · next hfree =>
    rw [if_neg hfree] at hx
    generalize d.disableExisting = disable at hx ⊢
    cases disable <;> exact hx.elim (fun hset => by cases hset) id

/-- The loggers that a document does not name are settled once it has set up the others. -/
theorem settleOthers_settled (hg : g.Sound) (htended : Tended g s g₁ s₁) (d : Document) :
    Settled (coveredBy d.loggers.keys g.names) d.disableExisting
      (g.names.filter (· ∉ d.loggers.keys)) g₁ (d.settleOthers g.names (g₁, s₁)).1 :=
  settleAll_settled (p := (g₁, s₁)) _ _ htended.sound.registered (nodup_unnamed hg.registered _)
    (htended.called_unnamed hg _)

/-- A logger that is neither the root nor named was there before the document, and it is
    settled; any other one is left alone. -/
theorem settleOthers_logger (hg : g.Sound) (htended : Tended g s g₁ s₁)
    (hpassed : Passed d.loggers g g₁) (j : LoggerId) :
    ((g₁.logger j).name = rootName ∨ (g₁.logger j).name ∈ d.loggers.keys) ∧
        (d.settleOthers g.names (g₁, s₁)).1.logger j = g₁.logger j ∨
      ((g₁.logger j).name ≠ rootName ∧ (g₁.logger j).name ∉ d.loggers.keys) ∧
        (g₁.logger j).name ∈ g.names ∧ (d.settleOthers g.names (g₁, s₁)).1.logger j =
          settled (coveredBy d.loggers.keys g.names) d.disableExisting (g₁.logger j).name
            (g₁.logger j) := by
  have hreg₁ := htended.sound.registered
  have hsettled := settleOthers_settled hg htended d
  by_cases hskip : (g₁.logger j).name = rootName ∨ (g₁.logger j).name ∈ d.loggers.keys
  · refine .inl ⟨hskip, hsettled.others j fun hin => ?_⟩
    obtain ⟨hname, hnew⟩ := List.mem_filter.mp hin
    rcases hskip with hroot | hnamed
    · obtain ⟨i, hi⟩ := Option.isSome_iff_exists.mp (hg.registered.mem_names_iff.mp hname)
      exact (hg.registered.called _ i hi).2.2.2.2 hroot
    · simp [hnamed] at hnew
  · obtain ⟨hroot, hnew⟩ := not_or.mp hskip
    -- A logger of another name than the root's is registered, and was so before.
    have hlt : j < g₁.loggers.size := by
      refine Nat.lt_of_not_le fun hle => hroot ?_
      rw [logger_of_size_le hle]
    have hj := hreg₁.known j hlt fun heq => hroot (heq ▸ hreg₁.root_name)
    have hname : (g₁.logger j).name ∈ g.names := by
      have hstands := (hpassed.names (g₁.logger j).name).mp (standing?_of_called hreg₁ hj ▸ rfl)
      have hproper := (hreg₁.called _ j hj).2.2.2
      rw [standing?, if_neg (not_or.mpr hproper)] at hstands
      exact hg.registered.mem_names_iff.mpr (hstands.resolve_right hnew)
    have hin : (g₁.logger j).name ∈ g.names.filter (· ∉ d.loggers.keys) :=
      List.mem_filter.mpr ⟨hname, decide_eq_true hnew⟩
    exact .inr ⟨⟨hroot, hnew⟩, hname, hsettled.named _ j hin hj⟩

/-- The loggers that a document does not name, once it has set up the others. -/
theorem settleOthers_reshaped (hg : g.Sound) (htended : Tended g s g₁ s₁)
    (hpassed : Passed d.loggers g g₁) (w : Wiring) :
    Reshaped w (fun j => d.otherShape (g₁.logger j).name) g₁ s₁
      (d.settleOthers g.names (g₁, s₁)).1 (d.settleOthers g.names (g₁, s₁)).2 := by
  have hpersists : s₁.Persists (d.settleOthers g.names (g₁, s₁)).2 :=
    (settleAll_tended (p := (g₁, s₁)) _ _ htended.sound htended.backed
      (htended.called_unnamed hg d.loggers.keys)).persists
  refine ⟨fun j => ?_, fun j hj => ?_⟩
  · rw [← (htended.backed j).profile_eq hpersists]
    rcases settleOthers_logger hg htended hpassed j with
      ⟨hskip, hsame⟩ | ⟨⟨hroot, hnew⟩, hname, hset⟩
    · rw [hsame, Document.otherShape, if_pos hskip, Shape.apply_none]
    · rw [hset, profile_settled hname hroot hnew]
  · rcases settleOthers_logger hg htended hpassed j with
      ⟨hskip, hsame⟩ | ⟨⟨hroot, hnew⟩, hname, hset⟩
    · rw [Document.otherShape, if_pos hskip] at hj
      rw [hsame]
      exact hj.elim (fun hset => by cases hset) id
    · rw [hset]
      exact wired_settled hname hroot hnew hj

/-! ### The whole document -/

/-- What a document makes of the root in the end. -/
def Document.rootShape (d : Document) (j : LoggerId) : Shape :=
  match d.root? with
  | none => {}
  | some e => if j = rootId then e.shape d else {}

/-- What a document makes of a logger: first the named ones are set up, then the others
    are settled, and the root comes last. -/
def Document.shapeOf (d : Document) (g : Registry) (j : LoggerId) : Shape :=
  ((sectionShape d g j d.loggers).andThen (d.otherShape (g.logger j).name)).andThen (d.rootShape j)

/-- In the same tree a document makes the same of a logger. -/
theorem Document.shapeOf_congr (d : Document) (h : SameTree g g') (j : LoggerId) :
    d.shapeOf g' j = d.shapeOf g j := by
  rw [shapeOf, shapeOf, sectionShape_congr (standing?_congr h.nodes), h.name]

/-- Sections for loggers that are there already make none. -/
theorem configureAll_sameTree (hg : g.Sound)
    (hthere : ∀ k ∈ sections.keys, (g.standing? k).isSome)
    (hrun : configureAll w sections g s = (.ok (), g', s')) : SameTree g g' := by
  induction sections generalizing g s with
  | nil =>
    cases hrun
    exact .refl _
  | cons head rest ih =>
    obtain ⟨name, e⟩ := head
    obtain ⟨_, heq, -⟩ | ⟨g₁, s₁, hone, hlater⟩ := configureAll_cons hrun
    · cases heq
    · obtain ⟨i, hi⟩ := Option.isSome_iff_exists.mp (hthere name List.mem_cons_self)
      obtain ⟨-, hsets, -⟩ := configureNamed_sets hg hone
      rw [hg.getLogger_of_standing hi] at hsets
      have htree : SameTree g g₁ := hsets.sameTree (e.keepsPlace_setUpNamed _ _)
      refine htree.trans (ih (htree.sound hg) (fun k hk => ?_) hlater)
      rw [standing?_congr htree.nodes]
      exact hthere k (List.mem_cons_of_mem _ hk)

/-- **Reshapes**: a registry and a store before and after the loggers of a document were
    set up. -/
structure Document.Reshapes (d : Document) (w : Wiring) (g : Registry) (s : Store) (g' : Registry)
    (s' : Store) : Prop where
  reshaped : Reshaped w (d.shapeOf g') g s g' s'
  named : ∀ k ∈ d.loggers.keys, (g'.standing? k).isSome
  /-- If there is a logger under each name, none is made. -/
  tree : (∀ k ∈ d.loggers.keys, (g.standing? k).isSome) → SameTree g g'

/-- The loggers of a document that are set up. -/
theorem configureLoggers_reshapes (hg : g.Sound) (hb : g.Backed s) (hw : w.Built d s₀ s)
    (hrun : d.configureLoggers w g s = (.ok (), g', s')) : d.Reshapes w g s g' s' := by
  rw [configureLoggers_eq] at hrun
  split at hrun
  · cases hrun
  · next g₁ s₁ hall =>
    have htended := configureAll_tended hg hb hw hall
    have hpassed := configureAll_passed hg hb hw hall
    have hnamed := configureAll_reshaped hg hb hw hall
    have hrest := settleOthers_tended hg hb hw hall
    have hothers := settleOthers_reshaped hg htended hpassed w
    have htree := (settleOthers_settled hg htended d).tree
    generalize d.settleOthers g.names (g₁, s₁) = p at hrun hrest htree hothers
    obtain ⟨g₂, s₂⟩ := p
    -- The root comes last, and the tree stays.
    have hroot : SameTree g₂ g' ∧ Reshaped w d.rootShape g₂ s₂ g' s' := by
      cases hsection : d.root? with
      | none =>
        have hshape : d.rootShape = fun _ => {} := funext fun j => by
          rw [Document.rootShape, hsection]
        simp only [hsection] at hrun
        cases hrun
        rw [hshape]
        exact ⟨.refl _, .refl hrest.backed (.refl _)⟩
      | some e =>
        have hshape : d.rootShape = fun j => if j = rootId then e.shape d else {} :=
          funext fun j => by rw [Document.rootShape, hsection]
        simp only [hsection] at hrun
        rw [hshape]
        exact configureLogger_reshaped hrest.backed (hw.persist hrest.persists)
          hrest.sound.whole.root_lt hrun
    have hlast := htree.trans hroot.1
    refine ⟨((hnamed.trans hothers).trans hroot.2).congr fun j => ?_, fun k hk => ?_,
      fun hthere => ?_⟩
    · rw [Document.shapeOf, sectionShape_congr (standing?_congr hlast.nodes), hlast.name]
    · rw [standing?_congr hlast.nodes]
      exact (hpassed.names k).mpr (.inr hk)
    · exact (configureAll_sameTree hg hthere hall).trans hlast

/-- **A document that is carried out** gives each logger its shape. -/
theorem Document.apply_reshapes {c : Configured} (hg : g.Sound) (hb : g.Backed s)
    (hrun : d.apply g s = (.ok c, g', s')) :
    ∃ w : Wiring, w.handlers = c.handlers ∧ w.Built d s s' ∧ d.Reshapes w g s g' s' := by
  obtain ⟨w, s₁, hbuild, rfl, hloggers⟩ := Document.apply_ok hrun
  obtain ⟨-, hw⟩ := build_spec d s hbuild
  have hw := (hw rfl).hold (w.handlers.map Prod.snd)
  have hb₁ : g.Backed ((w.handlers.map Prod.snd).foldl Store.hold s₁) :=
    fun i => (hb i).persist hw.persists
  have htended := configureLoggers_tended hg hb₁ hw hloggers
  have hdone := configureLoggers_reshapes hg hb₁ hw hloggers
  refine ⟨w, rfl, hw.persist htended.persists, ?_, hdone.named, hdone.tree⟩
  exact ((Reshaped.refl hb hw.persists).trans hdone.reshaped).congr fun j =>
    (Shape.none_andThen _).symm

end Configuration

end Logbook
