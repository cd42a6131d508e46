import Logbook.Proofs.Configuration.Built
import Logbook.Proofs.Configuration.Loggers

/-! # What a document leaves behind

    A document that is carried out settles every logger in one of four ways.  Those it
    names are set up as it says.  Of the others that were there before, those below a
    named one are put back as if they had just been made, and the rest is disabled if the
    document says so, or left as it was.  No other logger is made, each hangs below the
    nearest one in the end, and the root changes as its own section says.
-/

namespace Logbook.Configuration

open Registry

variable {g g' g₁ : Registry} {s s' : Store} {i : LoggerId} {n : String} {names : List String}
  {p : Registry × Store} {w : Wiring}

/-! ## Loggers below a named one -/

/-- The loggers that are covered by the sections.  That names are taken out of the list on
    the way concerns named loggers only. -/
theorem mem_coveredBy {existing : List String} (hn : n ∉ names) :
    n ∈ coveredBy names existing ↔ n ∈ existing ∧ ∃ k ∈ names, isBelow k n = true := by
  induction names generalizing existing with
  | nil => simp [coveredBy]
  | cons name names ih =>
    obtain ⟨hne, hrest⟩ := not_or.mp (mt List.mem_cons.mpr hn)
    rw [coveredBy, List.mem_append, List.mem_filter, ih hrest, List.mem_filter]
    simp only [hne, ne_eq, not_false_eq_true, decide_true, and_true, List.mem_cons,
      exists_eq_or_imp]
    rw [← and_or_left]

/-- They are those with a named one above them, if no name is empty. -/
theorem mem_coveredBy_iff {existing : List String} (hnames : ∀ k ∈ names, k ≠ "")
    (hn : n ∉ names) :
    n ∈ coveredBy names existing ↔ n ∈ existing ∧ ∃ k ∈ names, NameAbove k n := by
  rw [mem_coveredBy hn]
  refine and_congr_right fun _ => exists_congr fun k => and_congr_right fun hk => ?_
  exact isBelow_iff (hnames k hk)

/-! ## Settling the other loggers -/

/-- A logger that no section names, once it has been settled. -/
def settled (covered : List String) (disable : Bool) (n : String) (x : Logger) : Logger :=
  if n ∈ covered then { x with level := Level.notset, handlers := [], propagate := true }
  else if disable then { x with disabled := true }
  else x

theorem keepsPlace_settled (covered : List String) (disable : Bool) (n : String) :
    KeepsPlace (settled covered disable n) := by
  constructor <;> intro x <;> unfold settled <;> split
  all_goals first
    | rfl
    | split <;> rfl

/-- To settle a logger changes no other one. -/
theorem settleUnnamed_sets (covered : List String) (disable : Bool) (hreg : p.1.Registered)
    (hi : p.1.loggerCalled? n = some i) :
    Sets p.1 (settleUnnamed covered disable p n).1 i (settled covered disable n) := by
  have hlt : i < p.1.loggers.size := (hreg.called n i hi).1
  unfold settleUnnamed settled
  rw [getLogger_of_called hreg hi]
  dsimp only
  by_cases hcovered : n ∈ covered
  · simp only [if_pos hcovered]
    -- Put back: level, handlers and propagation in turn, all of the one logger.
    have hlevel : Sets p.1 (p.1.setLevel i Level.notset) i ({ · with level := Level.notset }) :=
      (Sets.modify hlt _).invalidate
    have hclear := hlevel.trans (Sets.modify (hlevel.size ▸ hlt) ({ · with handlers := [] }))
    exact hclear.trans (Sets.modify (hclear.size ▸ hlt) ({ · with propagate := true }))
  · simp only [if_neg hcovered]
    cases disable with
    | true => exact Sets.modify hlt _
    | false => exact Sets.refl rfl

/-- **Settled**: a registry before and after the loggers with some names were settled. -/
structure Settled (covered : List String) (disable : Bool) (names : List String)
    (g g' : Registry) : Prop where
  tree : SameTree g g'
  named : ∀ n i, n ∈ names → g.loggerCalled? n = some i →
    g'.logger i = settled covered disable n (g.logger i)
  others : ∀ i, (g.logger i).name ∉ names → g'.logger i = g.logger i

/-- To settle loggers one after the other. -/
theorem settleAll_settled (covered : List String) (disable : Bool) (hreg : p.1.Registered)
    (hnodup : names.Nodup)
    (hcalled : ∀ n ∈ names, (p.1.loggerCalled? n).isSome) :
    Settled covered disable names p.1 (names.foldl (settleUnnamed covered disable) p).1 := by
  induction names generalizing p with
  | nil => exact ⟨SameTree.refl _, fun _ _ hn => absurd hn List.not_mem_nil, fun _ _ => rfl⟩
  | cons name names ih =>
    obtain ⟨hnew, hrest⟩ := List.nodup_cons.mp hnodup
    obtain ⟨i, hi⟩ := Option.isSome_iff_exists.mp (hcalled name List.mem_cons_self)
    obtain ⟨-, -, hname, -⟩ := hreg.called name i hi
    have hone := settleUnnamed_sets covered disable hreg hi
    have htree := hone.sameTree (keepsPlace_settled covered disable name)
    -- The tree is the same, so the other names stand for the same loggers.
    have hlater := ih (hreg.congr htree.size htree.nodes htree.name) hrest (by
      intro n hn
      rw [loggerCalled?_congr htree.nodes]
      exact hcalled n (List.mem_cons_of_mem _ hn))
    refine ⟨htree.trans hlater.tree, ?_, ?_⟩
    · intro n j hn hj
      rcases List.mem_cons.mp hn with rfl | hin
      · -- The logger of this turn is not met again.
        obtain rfl : i = j := Option.some.inj (hi.symm.trans hj)
        rw [List.foldl_cons, hlater.others i, hone.self]
        rw [htree.name, hname]
        exact hnew
      · rw [List.foldl_cons, hlater.named n j hin ((loggerCalled?_congr htree.nodes n).trans hj),
          hone.other j]
        -- Two names never stand for one logger.
        rintro rfl
        obtain ⟨-, -, hname', -⟩ := hreg.called n j hj
        exact hnew (hname ▸ hname' ▸ hin)
    · intro j hj
      obtain ⟨hne, hrest'⟩ := not_or.mp (mt List.mem_cons.mpr hj)
      rw [List.foldl_cons, hlater.others j, hone.other j]
      · rintro rfl
        exact hne hname
      · rwa [htree.name]

/-! ## The effect of a document -/

/-- **Set up**: a registry before and after a document was carried out that made handlers
    and filters with names. -/
structure Document.SetsUp (d : Document) (handlers : Table HandlerId) (filters : Table FilterId)
    (g g' : Registry) : Prop where
  /-- A named logger is there and as its section says; its handlers are known. -/
  named : ∀ n e, (n, e) ∈ d.loggers → (∀ k ∈ e.handlers, (handlers.get? k).isSome) ∧
    ∃ i, g'.loggerCalled? n = some i ∧
      SameButLink (e.setUpNamed handlers filters (g.former n)) (g'.logger i)
  /-- A name keeps its logger. -/
  kept : ∀ n i, g.loggerCalled? n = some i → g'.loggerCalled? n = some i
  /-- A logger below a named one is put back. -/
  covered : ∀ n i, g.loggerCalled? n = some i → n ∉ d.loggers.keys →
    (∃ k ∈ d.loggers.keys, NameAbove k n) →
    SameButLink { g.logger i with level := Level.notset, handlers := [], propagate := true }
      (g'.logger i)
  /-- Another one that is not named is disabled if the document says so, or left as it was. -/
  uncovered : ∀ n i, g.loggerCalled? n = some i → n ∉ d.loggers.keys →
    (¬ ∃ k ∈ d.loggers.keys, NameAbove k n) →
    g'.logger i = if d.disableExisting then { g.logger i with disabled := true } else g.logger i
  /-- The names are those from before and those of the document. -/
  names : ∀ n, n ∈ g'.names ↔ n ∈ g.names ∨ n ∈ d.loggers.keys
  /-- There is no logger but the root and those with names. -/
  only : ∀ i, i < g'.loggers.size → i ≠ rootId → g'.loggerCalled? (g'.logger i).name = some i
  /-- Every logger hangs below the nearest one. -/
  parents : ∀ n i, g'.loggerCalled? n = some i → ∃ p, g'.parent? i = some p ∧ g'.Nearest n p
  /-- The root is as its section says, if there is one, and else as it was. -/
  root : match d.root? with
    | none => g'.logger rootId = g.logger rootId
    | some e => (∀ k ∈ e.handlers, (handlers.get? k).isSome) ∧
        g'.logger rootId = e.setUp handlers filters (g.logger rootId)

/-- A logger that no section names, with none above it that one does, is not touched. -/
theorem Carried.untouched {handlers : Table HandlerId} {filters : Table FilterId}
    {sections : Table LoggerEntry} (h : Carried handlers filters sections g g') (horder : g.InOrder)
    (hi : g.loggerCalled? n = some i) (hn : n ∉ sections.keys)
    (hfree : ¬ ∃ k ∈ sections.keys, NameAbove k n) : g'.logger i = g.logger i := by
  have hlink : (g'.logger i).parent? = (g.logger i).parent? := by
    refine horder.link_eq h.order hi (h.kept n i hi) ?_
    intro k hk
    cases hcalled : g.loggerCalled? k with
    | some j => exact h.kept k j hcalled
    | none =>
      -- No logger is made above it: its name would be in the list.
      rw [← Option.not_isSome_iff_eq_none, h.names, hcalled]
      rintro (hsome | hin)
      · cases hsome
      · exact hfree ⟨k, hin, hk⟩
  have hlogger := h.others n i hn hi
  unfold SameButLink at hlogger
  rw [hlogger, hlink]

/-- **The root set**: a registry before and after the root was set up, if there is a section
    for it. -/
structure RootSet (handlers : Table HandlerId) (filters : Table FilterId)
    (root? : Option LoggerEntry) (g g' : Registry) : Prop where
  tree : SameTree g g'
  others : ∀ i, i ≠ rootId → g'.logger i = g.logger i
  root : match root? with
    | none => g'.logger rootId = g.logger rootId
    | some e => (∀ k ∈ e.handlers, (handlers.get? k).isSome) ∧
        g'.logger rootId = e.setUp handlers filters (g.logger rootId)

theorem RootSet.none (handlers : Table HandlerId) (filters : Table FilterId) (g : Registry) :
    RootSet handlers filters none g g := ⟨SameTree.refl g, fun _ _ => rfl, rfl⟩

/-- The section of the root that is carried out. -/
theorem configureLogger_root {e : LoggerEntry} (hwhole : g.Whole)
    (hrun : configureLogger w rootId e g s = (.ok (), g', s')) :
    RootSet w.handlers w.filters (some e) g g' := by
  obtain ⟨hknown, hsets⟩ := configureLogger_sets hwhole.root_lt hrun
  exact ⟨hsets.sameTree (e.keepsPlace_setUp _ _), hsets.other, hknown, hsets.self⟩

/-- The loggers that a document does not name are those of the registry but its own. -/
theorem mem_unnamed_iff (hreg : g.Registered) {keys : List String} :
    n ∈ g.names.filter (· ∉ keys) ↔ (g.loggerCalled? n).isSome ∧ n ∉ keys := by
  rw [List.mem_filter, hreg.mem_names_iff, decide_eq_true_iff]

theorem nodup_unnamed (hreg : g.Registered) (keys : List String) :
    (g.names.filter (· ∉ keys)).Nodup :=
  (hreg.pairwise_names.imp fun hlt => ne_of_lt hlt).filter _

/-- A logger that is not named is covered exactly if a named one is above it. -/
theorem mem_coveredBy_of_called (hreg : g.Registered) {keys : List String}
    (hproper : ∀ k ∈ keys, Proper k) (hi : g.loggerCalled? n = some i) (hn : n ∉ keys) :
    n ∈ coveredBy keys g.names ↔ ∃ k ∈ keys, NameAbove k n := by
  rw [mem_coveredBy_iff (fun k hk => (hproper k hk).1) hn, hreg.mem_names_iff, hi]
  simp

/-- The root is none of the loggers that are settled: its name is not a registered one. -/
theorem Settled.logger_root {keys covered : List String} {disable : Bool} {g₂ : Registry}
    (hothers : Settled covered disable (g.names.filter (· ∉ keys)) g₁ g₂) (hreg : g.Registered)
    (hreg₁ : g₁.Registered) : g₂.logger rootId = g₁.logger rootId := by
  refine hothers.others rootId ?_
  rw [hreg₁.root_name, mem_unnamed_iff hreg]
  rintro ⟨hsome, -⟩
  obtain ⟨i, hi⟩ := Option.isSome_iff_exists.mp hsome
  exact (hreg.called rootName i hi).2.2.2.2 rfl

/-- The named loggers, then the others, then the root: what comes out. -/
theorem Document.setsUp {d : Document} {handlers : Table HandlerId} {filters : Table FilterId}
    {g₂ : Registry} (horder : g.InOrder) (hproper : ∀ n ∈ d.loggers.keys, Proper n)
    (hnamed : Carried handlers filters d.loggers g g₁)
    (hothers : Settled (coveredBy d.loggers.keys g.names) d.disableExisting
      (g.names.filter (· ∉ d.loggers.keys)) g₁ g₂)
    (hroot : RootSet handlers filters d.root? g₂ g') : d.SetsUp handlers filters g g' := by
  have hreg := horder.registered
  have hreg₁ := hnamed.order.registered
  have htree := hothers.tree.trans hroot.tree
  have horder' : g'.InOrder := htree.inOrder hnamed.order
  have hcalled : ∀ n, g'.loggerCalled? n = g₁.loggerCalled? n := loggerCalled?_congr htree.nodes
  -- A logger with a name is not the root, so the last step passes it by.
  have hlast : ∀ n i, g₁.loggerCalled? n = some i → g'.logger i = g₂.logger i := by
    intro n i hi
    exact hroot.others i (hreg₁.called n i hi).2.1
  -- A logger that is not named goes through the step in the middle.
  have hmiddle : ∀ n i, g.loggerCalled? n = some i → n ∉ d.loggers.keys → g'.logger i =
      settled (coveredBy d.loggers.keys g.names) d.disableExisting n (g₁.logger i) := by
    intro n i hi hn
    have hi₁ := hnamed.kept n i hi
    rw [hlast n i hi₁]
    exact hothers.named n i ((mem_unnamed_iff hreg).mpr ⟨hi ▸ rfl, hn⟩) hi₁
  constructor
  case named =>
    intro n e hmem
    obtain ⟨hknown, i, hi, hlogger⟩ := hnamed.named n e hmem
    refine ⟨hknown, i, (hcalled n).trans hi, ?_⟩
    rw [hlast n i hi, hothers.others i]
    · exact hlogger
    · rw [(hreg₁.called n i hi).2.2.1, mem_unnamed_iff hreg]
      rintro ⟨-, hn⟩
      exact hn (List.mem_map.mpr ⟨(n, e), hmem, rfl⟩)
  case kept =>
    intro n i hi
    exact (hcalled n).trans (hnamed.kept n i hi)
  case covered =>
    intro n i hi hn habove
    have hlogger := (hnamed.others n i hn hi).map
      (f := ({ · with level := Level.notset, handlers := [], propagate := true })) fun _ _ => rfl
    rw [hmiddle n i hi hn, settled, if_pos ((mem_coveredBy_of_called hreg hproper hi hn).mpr habove)]
    exact hlogger
  case uncovered =>
    intro n i hi hn hfree
    rw [hmiddle n i hi hn, settled,
      if_neg (mt (mem_coveredBy_of_called hreg hproper hi hn).mp hfree),
      hnamed.untouched horder hi hn hfree]
  case names =>
    intro n
    rw [horder'.registered.mem_names_iff, hcalled, hnamed.names, hreg.mem_names_iff]
  case only => exact horder'.registered.known
  case parents =>
    intro n i hi
    exact horder'.placed.nearest_parent horder'.whole horder'.registered hi
  case root =>
    have hset := hroot.root
    rwa [hothers.logger_root hreg hreg₁, hnamed.root] at hset

/-- The named loggers are set up, then the others, then the root. -/
theorem configureLoggers_stages {d : Document} (horder : g.InOrder) (hsorted : d.loggers.Sorted)
    (hproper : ∀ n ∈ d.loggers.keys, Proper n)
    (hrun : d.configureLoggers w g s = (.ok (), g', s')) :
    ∃ g₁ g₂, Carried w.handlers w.filters d.loggers g g₁ ∧
      Settled (coveredBy d.loggers.keys g.names) d.disableExisting
        (g.names.filter (· ∉ d.loggers.keys)) g₁ g₂ ∧
      RootSet w.handlers w.filters d.root? g₂ g' := by
  unfold Document.configureLoggers at hrun
  dsimp only at hrun
  split at hrun
  · cases hrun
  · next g₁ s₁ hall =>
    have hnamed := configureAll_carried horder hsorted hproper hall
    -- The loggers that were there are there still after the named ones have been set up.
    have hcalled : ∀ n ∈ g.names.filter (· ∉ d.loggers.keys), (g₁.loggerCalled? n).isSome := by
      intro n hn
      exact (hnamed.names n).mpr (.inl ((mem_unnamed_iff horder.registered).mp hn).1)
    have hothers := settleAll_settled (p := (g₁, s₁)) (coveredBy d.loggers.keys g.names)
      d.disableExisting hnamed.order.registered (nodup_unnamed horder.registered _) hcalled
    refine ⟨g₁, _, hnamed, hothers, ?_⟩
    split at hrun
    · next hnone =>
      injection hrun with _ hrun
      injection hrun with hg _
      rw [hnone, ← hg]
      exact RootSet.none _ _ _
    · next e hsome =>
      rw [hsome]
      exact configureLogger_root (hothers.tree.whole hnamed.order.whole) hrun

/-- The loggers after a document was carried out. -/
theorem configureLoggers_setsUp {d : Document} (horder : g.InOrder) (hsorted : d.loggers.Sorted)
    (hproper : ∀ n ∈ d.loggers.keys, Proper n)
    (hrun : d.configureLoggers w g s = (.ok (), g', s')) :
    d.SetsUp w.handlers w.filters g g' := by
  obtain ⟨g₁, g₂, hnamed, hothers, hroot⟩ := configureLoggers_stages horder hsorted hproper hrun
  exact d.setsUp horder hproper hnamed hothers hroot

/-- A registry in order stays so. -/
theorem configureLoggers_inOrder {d : Document} (horder : g.InOrder) (hsorted : d.loggers.Sorted)
    (hproper : ∀ n ∈ d.loggers.keys, Proper n)
    (hrun : d.configureLoggers w g s = (.ok (), g', s')) : g'.InOrder := by
  obtain ⟨g₁, g₂, hnamed, hothers, hroot⟩ := configureLoggers_stages horder hsorted hproper hrun
  exact (hothers.tree.trans hroot.tree).inOrder hnamed.order

/-- **The effect of a document on the loggers.**  Of a registry that grew without a parent
    being set, a document with proper names sets up the loggers it names and no others. -/
theorem Document.apply_setsUp {d : Document} {c : Configured} (hgrown : g.Grown)
    (hsorted : d.loggers.Sorted) (hproper : ∀ n ∈ d.loggers.keys, Proper n)
    (hrun : d.apply g s = (.ok c, g', s')) :
    ∃ filters : Table FilterId, filters.keys = d.filters.keys ∧
      d.SetsUp c.handlers filters g g' := by
  unfold Document.apply at hrun
  split at hrun
  · cases hrun
  · split at hrun
    · cases hrun
    · next w s₁ hbuild =>
      dsimp only at hrun
      split at hrun
      · cases hrun
      · next g₁ s₂ hloggers =>
        injection hrun with hc hrun
        injection hrun with hg _
        injection hc with hc
        subst hc hg
        exact ⟨w.filters, build_filters hbuild,
          configureLoggers_setsUp hgrown.inOrder hsorted hproper hloggers⟩

/-- A logger that was there before the one above it, and one that is not covered. -/
theorem Document.sets_up_above_a_child :
    let g : Registry :=
      (((({} : Registry).getLogger "app.child").2.getLogger "other").2.addHandler 1 0).setLevel 1
        Level.error
    let d : Document :=
      { version := 1, handlers := [("null", { kind := .null })],
        loggers := [("app", { level? := some Level.info, handlers := ["null", "null"] })] }
    let s : Store := { origin := default, handlers := #[{ sink := .null }] }
    ∃ c g' s', d.apply g s = (.ok c, g', s') ∧
      (∃ filters : Table FilterId, filters.keys = [] ∧ d.SetsUp c.handlers filters g g') ∧
      g'.logger 1 = { name := "app.child", level := Level.notset, parent? := some 3 } ∧
      g'.logger 2 = { name := "other", parent? := some rootId, disabled := true } ∧
      g'.logger 3 =
        { name := "app", level := Level.info, parent? := some rootId, handlers := [1] } := by
  intro g d s
  have hgrown : g.Grown :=
    ((((Grown.new none).call (.getLogger "app.child") (by simp)).call (.getLogger "other")
      (by simp)).call (.addHandler 1 0) (by simp)).call (.setLevel 1 Level.error) (by simp)
  have hloggers : (d.apply g s).1.isOk = true ∧
      (d.apply g s).2.1.logger 1 =
        { name := "app.child", level := Level.notset, parent? := some 3 } ∧
      (d.apply g s).2.1.logger 2 = { name := "other", parent? := some rootId, disabled := true } ∧
      (d.apply g s).2.1.logger 3 =
        { name := "app", level := Level.info, parent? := some rootId, handlers := [1] } := by
    decide +kernel
  rcases hrun : d.apply g s with ⟨r, g', s'⟩
  rw [hrun] at hloggers
  obtain ⟨hok, hfound⟩ := hloggers
  cases r with
  | error e => cases hok
  | ok c =>
    refine ⟨c, g', s', rfl, ?_, hfound⟩
    exact d.apply_setsUp hgrown (List.pairwise_singleton _ _) (by decide) hrun

end Logbook.Configuration
