import Logbook.Proofs.Configuration.InUse

/-! # What a document leaves behind when it fails

    A document that fails before it comes to the loggers leaves them as they were.  One
    that fails at the section of a logger has carried out the sections before it, and
    that logger is there and not set up; no logger without a section has been reset or
    disabled.  One that fails at the section of the root has done everything else.
-/

namespace Logbook.Configuration

open Registry

variable {g g' g₁ : Registry} {s s' s₀ s₁ : Store} {i j : LoggerId} {name n : String}
  {e : LoggerEntry} {w : Wiring} {d : Document} {fault : LogError} {sections : Table LoggerEntry}

/-! ## Sections that were carried out -/

/-- **Passed**: a registry before and after some sections were carried out.  A name has a
    logger if it had one or a section is for it, and a logger that no section is for is as
    it was, but perhaps for its link. -/
structure Passed (sections : Table LoggerEntry) (g g' : Registry) : Prop where
  size : g.loggers.size ≤ g'.loggers.size
  kept : ∀ n i, g.standing? n = some i → g'.standing? n = some i
  names : ∀ n, (g'.standing? n).isSome ↔ (g.standing? n).isSome ∨ n ∈ sections.keys
  others : ∀ j, j < g.loggers.size → (∀ k ∈ sections.keys, g'.standing? k ≠ some j) →
    SameButLink (g.logger j) (g'.logger j)

theorem Passed.nil (g : Registry) : Passed [] g g :=
  ⟨le_rfl, fun _ _ => id, fun n => by simp [Table.keys], fun _ _ _ => rfl⟩

/-- A name that was asked for, before the logger is set up. -/
theorem Passed.of_met (h : Met g g' name i) (e : LoggerEntry) : Passed [(name, e)] g g' := by
  refine ⟨h.size_le, fun _ _ => h.kept, fun n => ?_, fun j hj _ => h.old j hj⟩
  rw [h.standing, Table.keys, List.map_singleton, List.mem_singleton]
  split
  · next hn => simp [hn]
  · next hn => simp [hn]

/-- One section that was carried out. -/
theorem configureNamed_passed (hg : g.Sound)
    (hrun : configureNamed w name e g s = (.ok (), g', s')) : Passed [(name, e)] g g' := by
  obtain ⟨-, hsets, -⟩ := configureNamed_sets hg hrun
  have hmet := hg.met name
  have hasked := Passed.of_met hmet e
  -- A section changes a logger and no node, so names stand for what they stood for.
  have hstanding := fun n => standing?_congr hsets.nodes n
  refine ⟨hsets.size.symm ▸ hasked.size, fun n i hi => ?_, fun n => ?_, fun j hj hfree => ?_⟩
  · rw [hstanding]
    exact hasked.kept n i hi
  · rw [hstanding]
    exact hasked.names n
  · -- The logger that the section is for is another one.
    have hne : j ≠ (g.getLogger name).1 := by
      rintro rfl
      refine hfree name (List.mem_singleton_self _) ?_
      rw [hstanding, hmet.standing, if_pos rfl]
    rw [hsets.other j hne]
    exact hmet.old j hj

/-- A section and those after it. -/
theorem Passed.cons (h : Passed [(name, e)] g g₁) (h' : Passed sections g₁ g') :
    Passed ((name, e) :: sections) g g' := by
  have hkeys : ∀ n, n ∈ Table.keys ((name, e) :: sections) ↔
      n ∈ Table.keys [(name, e)] ∨ n ∈ sections.keys := fun n => by simp [Table.keys]
  refine ⟨h.size.trans h'.size, fun n i hi => h'.kept n i (h.kept n i hi), fun n => ?_,
    fun j hj hfree => ?_⟩
  · rw [h'.names, h.names, hkeys, or_assoc]
  · refine (h.others j hj fun k hk hstands => ?_).trans
      (h'.others j (Nat.lt_of_lt_of_le hj h.size) fun k hk => hfree k ((hkeys k).mpr (.inr hk)))
    exact hfree k ((hkeys k).mpr (.inl hk)) (h'.kept k j hstands)

/-- Sections that were carried out one after the other. -/
theorem configureAll_passed (hg : g.Sound) (hb : g.Backed s) (hw : w.Built d s₀ s)
    (hrun : configureAll w sections g s = (.ok (), g', s')) : Passed sections g g' := by
  induction sections generalizing g s with
  | nil =>
    cases hrun
    exact .nil _
  | cons head rest ih =>
    obtain ⟨name, e⟩ := head
    obtain ⟨_, heq, -⟩ | ⟨g₁, s₁, hone, hlater⟩ := configureAll_cons hrun
    · cases heq
    · have htended := configureNamed_tended hg hb hw hone
      exact (configureNamed_passed hg hone).cons
        (ih htended.sound htended.backed (hw.persist htended.persists) hlater)

/-! ## A section that failed -/

/-- **Left at a section**: a registry before a document and after it failed at the section
    of a logger, with some sections before that. -/
structure LeftAt (d : Document) (w : Wiring) (before : Table LoggerEntry) (name : String)
    (e : LoggerEntry) (fault : LogError) (g : Registry) (s : Store) (g' : Registry) : Prop where
  /-- The registry is the one after the sections before, asked for the name, and that does
      not touch the logger that the name stands for. -/
  carried : ∃ g₁ s₁, configureAll w before g s = (.ok (), g₁, s₁) ∧
    g' = (g₁.getLogger name).2 ∧ SameButLink (g₁.standing name) (g'.logger (g₁.getLogger name).1)
  /-- The logger of the section is there and, unless a section before is for it under
      another name, as it was or would be made. -/
  own : ∃ i, g'.standing? name = some i ∧
    e.Faulty d (loggerComponent (g'.logger i).name) fault ∧
    ((∀ k ∈ before.keys, g'.standing? k ≠ some i) → SameButLink (g.standing name) (g'.logger i))
  /-- The names with loggers are those from before, those of the sections and that one. -/
  names : ∀ n, (g'.standing? n).isSome ↔
    (g.standing? n).isSome ∨ n ∈ before.keys ∨ n = name
  /-- A logger that no section before is for is not set up, reset or disabled. -/
  others : ∀ j, j < g.loggers.size → (∀ k ∈ before.keys, g'.standing? k ≠ some j) →
    SameButLink (g.logger j) (g'.logger j)

/-- Sections of which one fails. -/
theorem configureAll_left (hg : g.Sound) (hb : g.Backed s) (hw : w.Built d s₀ s)
    (hrun : configureAll w sections g s = (.error fault, g', s')) :
    ∃ before name e after, sections = before ++ (name, e) :: after ∧
      LeftAt d w before name e fault g s g' := by
  obtain ⟨before, name, e, after, g₁, s₁, hsections, hbefore, hfailed⟩ := configureAll_error hrun
  have htended := configureAll_tended hg hb hw hbefore
  have hpassed := configureAll_passed hg hb hw hbefore
  have hmet := htended.sound.met name
  have hasked := Passed.of_met hmet e
  obtain ⟨rfl, -, hfaulty⟩ := configureNamed_error (hw.persist htended.persists) hfailed
  have hstands : (g₁.getLogger name).2.standing? name = some (g₁.getLogger name).1 := by
    rw [hmet.standing, if_pos rfl]
  have hothers : ∀ j, j < g.loggers.size →
      (∀ k ∈ before.keys, (g₁.getLogger name).2.standing? k ≠ some j) →
      SameButLink (g.logger j) ((g₁.getLogger name).2.logger j) := by
    intro j hj hfree
    refine (hpassed.others j hj fun k hk hstands => hfree k hk (hasked.kept k j hstands)).trans ?_
    exact hmet.old j (Nat.lt_of_lt_of_le hj hpassed.size)
  refine ⟨before, name, e, after, hsections, ⟨g₁, s₁, hbefore, rfl, hmet.self⟩,
    ⟨_, hstands, hfaulty, fun hfree => ?_⟩, fun n => ?_, hothers⟩
  · cases hformer : g.standing? name with
    | some i =>
      -- The name keeps its logger, which nobody has touched.
      have hsame := hstands.symm.trans (hasked.kept name i (hpassed.kept name i hformer))
      rw [Option.some.inj hsame] at hfree ⊢
      rw [standing_of_some hformer]
      exact hothers i (hg.standing_lt hformer) hfree
    | none =>
      -- The sections before have no such name, so its logger is new.
      have hnew : name ∉ before.keys := fun hin => hfree name hin hstands
      have hmissing : g₁.standing? name = none := by
        rw [← Option.not_isSome_iff_eq_none, hpassed.names, hformer]
        simp [hnew]
      have hself := hmet.self
      rw [Registry.standing, hmissing] at hself
      rw [Registry.standing, hformer]
      exact hself
  · rw [hasked.names, hpassed.names, or_assoc]
    simp [Table.keys]

/-! ## A document that failed -/

/-- **Fails to build**: the version is not known, or a formatter, filter or handler cannot
    be built. -/
def Document.FailsToBuild (d : Document) (s : Store) : Prop :=
  d.version ≠ 1 ∨ ∃ fault w s', d.build s = (.error fault, w, s')

/-- The loggers of a document fail at a section, or at that of the root. -/
theorem configureLoggers_left (hg : g.Sound) (hb : g.Backed s) (hw : w.Built d s₀ s)
    (hrun : d.configureLoggers w g s = (.error fault, g', s')) :
    (∃ before name e after, d.loggers = before ++ (name, e) :: after ∧
      LeftAt d w before name e fault g s g') ∨
    ∃ e, d.root? = some e ∧ e.Faulty d (loggerComponent rootName) fault ∧
      ∃ s₂, { d with root? := none }.configureLoggers w g s = (.ok (), g', s₂) := by
  rw [configureLoggers_eq] at hrun
  split at hrun
  · next hall =>
    cases hrun
    exact .inl (configureAll_left hg hb hw hall)
  · next g₁ s₁ hall =>
    have htended := settleOthers_tended hg hb hw hall
    split at hrun
    · cases hrun
    · next e hroot =>
      obtain ⟨rfl, -, hfaulty⟩ := configureLogger_error (hw.persist htended.persists) hrun
      rw [htended.sound.registered.root_name] at hfaulty
      -- Up to the section of the root the run is that of the document without it.
      refine .inr ⟨e, hroot, hfaulty, (d.settleOthers g.names (g₁, s₁)).2, ?_⟩
      rw [configureLoggers_eq, hall]
      rfl

/-- **A document that fails leaves a prefix of its work.**  If it fails to build, the
    registry is as it was.  If it fails at the section of a logger, the sections before it
    in the order of names have been carried out, that logger has been made at most, and no
    other one is touched.  If it fails at the section of the root, the registry is the one
    that the document without that section makes. -/
theorem Document.apply_failed (huse : g.InUse s) (hsorted : d.loggers.Sorted)
    (hrun : d.apply g s = (.error fault, g', s')) :
    (d.FailsToBuild s ∧ g' = g) ∨
      d.version = 1 ∧ ∃ w s₁, d.build s = (.ok (), w, s₁) ∧
        ((∃ before name e after, d.loggers = before ++ (name, e) :: after ∧
            (∀ k ∈ before.keys, k < name) ∧
            LeftAt d w before name e fault g ((w.handlers.map Prod.snd).foldl Store.hold s₁) g') ∨
          ∃ e, d.root? = some e ∧ e.Faulty d (loggerComponent rootName) fault ∧
            ∃ c s₂, { d with root? := none }.apply g s = (.ok c, g', s₂)) := by
  obtain ⟨hg, hb⟩ := huse.sound_backed
  unfold Document.apply at hrun
  split at hrun
  · next hversion =>
    cases hrun
    exact .inl ⟨.inl hversion, rfl⟩
  · next hversion =>
    have hversion : d.version = 1 := not_not.mp hversion
    split at hrun
    · next fault w s₁ hbuild =>
      cases hrun
      exact .inl ⟨.inr ⟨fault, w, s₁, hbuild⟩, rfl⟩
    · next w s₁ hbuild =>
      obtain ⟨hs, hw⟩ := build_spec d s hbuild
      have hw := (hw rfl).hold (w.handlers.map Prod.snd)
      have hb₁ : g.Backed ((w.handlers.map Prod.snd).foldl Store.hold s₁) :=
        fun i => (hb i).persist hw.persists
      dsimp only at hrun
      split at hrun
      · next hloggers =>
        cases hrun
        refine .inr ⟨hversion, w, s₁, hbuild, ?_⟩
        rcases configureLoggers_left hg hb₁ hw hloggers with
          ⟨before, name, e, after, hsections, hleft⟩ | ⟨e, hroot, hfaulty, s₂, hrest⟩
        · -- The sections are in the order of names, so those before the failing one are smaller.
          refine .inl ⟨before, name, e, after, hsections, fun k hk => ?_, hleft⟩
          obtain ⟨p, hp, rfl⟩ := List.mem_map.mp hk
          rw [hsections] at hsorted
          exact (List.pairwise_append.mp hsorted).2.2 p hp (name, e) List.mem_cons_self
        · refine .inr ⟨e, hroot, hfaulty,
            { handlers := w.handlers, listeners := w.listeners }, s₂, ?_⟩
          have hbuild' : { d with root? := none }.build s = (.ok (), w, s₁) := hbuild
          rw [Document.apply, if_neg (not_not.mpr hversion), hbuild']
          dsimp only
          rw [hrest]
      · cases hrun

/-- The second of three sections fails: the first one has been carried out, the logger of
    the second is made and not set up, and the one below it is not reset. -/
theorem Document.apply_failed_at_second :
    let g : Registry := (({} : Registry).getLogger "b.child").2.setLevel 1 Level.error
    let d : Document :=
      { version := 1, handlers := [("null", { kind := .null })],
        loggers := [("a", { handlers := ["null"] }),
          ("b", { level? := some Level.info, handlers := ["null", "file"] }), ("c", {})] }
    let s : Store := { origin := default }
    ∃ fault g' s', d.apply g s = (.error fault, g', s') ∧
      (∃ w s₁ before name e after, d.build s = (.ok (), w, s₁) ∧
        d.loggers = before ++ (name, e) :: after ∧
        LeftAt d w before name e fault g ((w.handlers.map Prod.snd).foldl Store.hold s₁) g') ∧
      g'.names = ["a", "b", "b.child"] ∧
      g'.logger 1 = { name := "b.child", level := Level.error, parent? := some 3 } ∧
      g'.logger 3 = { name := "b", parent? := some rootId } := by
  intro g d s
  have huse : g.InUse s :=
    ((InUse.new none s).call (.getLogger "b.child") (by simp [Call.Possible, Call.loggers])
      trivial).call (.setLevel 1 Level.error) (by decide) trivial
  have hsorted : d.loggers.Sorted := by
    simp only [d, Table.Sorted]
    decide
  have hfound : (d.apply g s).1.isOk = false ∧ (d.apply g s).2.1.names = ["a", "b", "b.child"] ∧
      (d.apply g s).2.1.logger 1 = { name := "b.child", level := Level.error, parent? := some 3 } ∧
      (d.apply g s).2.1.logger 3 = { name := "b", parent? := some rootId } := by
    decide +kernel
  rcases hrun : d.apply g s with ⟨r, g', s'⟩
  rw [hrun] at hfound
  obtain ⟨hfailed, hfound⟩ := hfound
  cases r with
  | ok c => cases hfailed
  | error fault =>
    refine ⟨fault, g', s', rfl, ?_, hfound⟩
    -- The registry has changed, and there is no root section: only one case is left.
    rcases d.apply_failed huse hsorted hrun with
      ⟨-, hsame⟩ | ⟨-, w, s₁, hbuild, ⟨before, name, e, after, hsections, -, hleft⟩ | ⟨e, hroot, -⟩⟩
    · have hnames : g.names ≠ ["a", "b", "b.child"] := by decide
      exact absurd (hsame ▸ hfound.1) hnames
    · exact ⟨w, s₁, before, name, e, after, hbuild, hsections, hleft⟩
    · cases hroot

end Logbook.Configuration
