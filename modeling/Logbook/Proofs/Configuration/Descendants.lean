import Logbook.Proofs.Configuration.Documents
import Logbook.Proofs.Hierarchy.Ancestors

/-! # Descendants of named loggers

    Three parts of the library tell which loggers are below a name: the tree by the links to
    parents, a filter by the name of a record, and a document by the names of the loggers
    that are there.  They tell the same.
-/

namespace Logbook.Configuration

open Registry

variable {g g' : Registry} {s s' : Store} {n m : String} {i j : LoggerId} {d : Document}
  {c : Configured}

/-- What a document that was carried out has built, and what it has done to the loggers. -/
theorem Document.apply_eq_ok (hrun : d.apply g s = (.ok c, g', s')) :
    ∃ w s₁ s₂, d.build s = (.ok (), w, s₁) ∧ d.configureLoggers w g s₂ = (.ok (), g', s') := by
  obtain ⟨w, s₁, hbuild, -, hloggers⟩ := Document.apply_ok hrun
  exact ⟨w, s₁, _, hbuild, hloggers⟩

/-- **Covered**: a logger with one of the named loggers of a document on the way up. -/
def Document.Covers (d : Document) (g : Registry) (i : LoggerId) : Prop :=
  ∃ k ∈ d.loggers.keys, ∃ a, g.loggerCalled? k = some a ∧ g.Ancestor a i

/-- **One notion of descendant.**  In a registry that grew without a parent being set, the
    filter by the name of a registered logger accepts the records of that logger and of
    those which it is an ancestor of.

    When a document with proper names has been carried out on it, of the loggers that were
    there and have no section those are put back that a named logger is an ancestor of,
    which is to say those whose records the filter by some named logger's name accepts.
    The others are disabled if the document says so, or left as they were. -/
theorem Document.one_notion_of_descendant (hgrown : g.Grown) :
    (∀ n m i j, g.loggerCalled? n = some i → g.loggerCalled? m = some j → ∀ r : Record, r.name = m →
      (({ name := n } : NameFilter).accepts r = true ↔ n = m ∨ g.Ancestor i j)) ∧
    ∀ (d : Document) s c g' s', d.loggers.Sorted → (∀ k ∈ d.loggers.keys, Proper k) →
      d.apply g s = (.ok c, g', s') →
      ∀ n i, g.loggerCalled? n = some i → n ∉ d.loggers.keys →
        (n ∈ coveredBy d.loggers.keys g.names ↔ d.Covers g' i) ∧
        (∀ r : Record, r.name = n →
          (d.Covers g' i ↔ ∃ k ∈ d.loggers.keys, ({ name := k } : NameFilter).accepts r = true)) ∧
        (d.Covers g' i →
          SameButLink { g.logger i with level := Level.notset, handlers := [], propagate := true }
            (g'.logger i)) ∧
        (¬ d.Covers g' i →
          g'.logger i = if d.disableExisting then { g.logger i with disabled := true }
            else g.logger i) := by
  have horder := hgrown.inOrder
  refine ⟨?_, ?_⟩
  · intro n m i j hn hm r hr
    have hne : n ≠ "" := (horder.registered.called n i hn).2.2.2.1
    rw [NameFilter.accepts_iff hne, horder.ancestor_iff hgrown.root_link hn hm, hr]
  · intro d s c g' s' hsorted hproper hrun n i hn hunnamed
    obtain ⟨w, s₁, s₂, -, hloggers⟩ := Document.apply_eq_ok hrun
    have hsets := configureLoggers_setsUp horder hsorted hproper hloggers
    have horder' := configureLoggers_inOrder horder hsorted hproper hloggers
    have hroot : (g'.logger rootId).parent? = none := by
      have hset := hsets.root
      split at hset
      · rw [hset, hgrown.root_link]
      · rw [hset.2]
        exact hgrown.root_link
    have hn' := hsets.kept n i hn
    -- Each named logger is there afterwards, so what is on the way up is a matter of names.
    have hcovers : d.Covers g' i ↔ ∃ k ∈ d.loggers.keys, NameAbove k n := by
      constructor
      · rintro ⟨k, hk, a, ha, hancestor⟩
        exact ⟨k, hk, (horder'.ancestor_iff hroot ha hn').mp hancestor⟩
      · rintro ⟨k, hk, habove⟩
        obtain ⟨⟨k, e⟩, hmem, rfl⟩ := List.mem_map.mp hk
        obtain ⟨-, a, ha, -⟩ := hsets.named k e hmem
        exact ⟨k, hk, a, ha, (horder'.ancestor_iff hroot ha hn').mpr habove⟩
    refine ⟨?_, ?_, fun h => hsets.covered n i hn hunnamed (hcovers.mp h),
      fun h => hsets.uncovered n i hn hunnamed (mt hcovers.mpr h)⟩
    · rw [mem_coveredBy_iff (fun k hk => (hproper k hk).1) hunnamed, hcovers,
        horder.registered.mem_names_iff, hn]
      simp
    · intro r hr
      rw [hcovers]
      refine exists_congr fun k => and_congr_right fun hk => ?_
      rw [NameFilter.accepts_iff (hproper k hk).1, hr]
      exact (or_iff_right fun heq : k = n => hunnamed (heq ▸ hk)).symm

/-- A document names a logger that is not there yet.  Those below it are put back, whatever
    dots their names have; one whose name merely begins in the same way is disabled. -/
theorem Document.one_notion_of_descendant_odd_dots :
    let g : Registry :=
      ((((({} : Registry).getLogger "app.child").2.getLogger "app..x.").2.getLogger
        "apple").2.setLevel 2 Level.error)
    let d : Document := { version := 1, loggers := [("app", { level? := some Level.info })] }
    let s : Store := { origin := default }
    g.Grown ∧ ∃ c g' s', d.apply g s = (.ok c, g', s') ∧
      (d.Covers g' 1 ∧ (g'.logger 1).level = Level.notset) ∧
      (d.Covers g' 2 ∧ (g'.logger 2).level = Level.notset) ∧
      ¬ d.Covers g' 3 ∧ (g'.logger 3).disabled = true := by
  intro g d s
  have hgrown : g.Grown :=
    ((((Grown.new none).call (.getLogger "app.child") (by simp)).call (.getLogger "app..x.")
      (by simp)).call (.getLogger "apple") (by simp)).call (.setLevel 2 Level.error) (by simp)
  have hok : (d.apply g s).1.isOk = true := by decide +kernel
  rcases hrun : d.apply g s with ⟨_ | c, g', s'⟩
  · rw [hrun] at hok
    cases hok
  · obtain ⟨-, hdocument⟩ := Document.one_notion_of_descendant hgrown
    have hsorted : d.loggers.Sorted := List.pairwise_singleton _ _
    have heffect := hdocument d s c g' s' hsorted (by decide) hrun
    obtain ⟨hchild, -, hreset, -⟩ := heffect "app.child" 1 (by decide) (by decide)
    obtain ⟨hodd, -, hreset', -⟩ := heffect "app..x." 2 (by decide) (by decide)
    obtain ⟨hother, -, -, hdisabled⟩ := heffect "apple" 3 (by decide) (by decide)
    have hcovers := hchild.mp (by decide)
    have hcovers' := hodd.mp (by decide)
    have hnot := mt hother.mpr (by decide)
    refine ⟨hgrown, c, g', s', rfl, ⟨hcovers, ?_⟩, ⟨hcovers', ?_⟩, hnot, ?_⟩
    · rw [hreset hcovers]
    · rw [hreset' hcovers']
    · rw [hdisabled hnot]
      rfl

end Logbook.Configuration
