import Logbook.Proofs.Configuration.Shape

/-! # A document that is carried out twice

    The second time a logger is there under each name, so none is made, and each logger
    is given the shape that it has already.  The handlers are new ones with the same names,
    and the filters, which are added to those from the first time, reject nothing more.
-/

namespace Logbook

/-- **The same loggers** in two registries, each with its store: the tree is the same, and
    every logger has the same level and flags, handlers of the same names in the same
    order, and filters that accept the same records. -/
structure Registry.SameLoggers (g : Registry) (s : Store) (g' : Registry) (s' : Store) : Prop where
  tree : g.SameTree g'
  level : ∀ i, (g'.logger i).level = (g.logger i).level
  propagate : ∀ i, (g'.logger i).propagate = (g.logger i).propagate
  disabled : ∀ i, (g'.logger i).disabled = (g.logger i).disabled
  handlers : ∀ i, (g'.logger i).handlers.map s'.nameOf = (g.logger i).handlers.map s.nameOf
  accepts : ∀ i r, s'.accepts (g'.logger i).filters r = s.accepts (g.logger i).filters r

/-- In the same tree, loggers of the same profiles are the same. -/
theorem Registry.SameLoggers.of_profile {g g' : Registry} {s s' : Store} (htree : g.SameTree g')
    (h : ∀ i, (g'.logger i).profile s' = (g.logger i).profile s) : g.SameLoggers s g' s' where
  tree := htree
  level i := congrArg Profile.level (h i)
  propagate i := congrArg Profile.propagate (h i)
  disabled i := congrArg Profile.disabled (h i)
  handlers i := congrArg Profile.handlers (h i)
  accepts i r := congrArg (Profile.accepts · r) (h i)

namespace Configuration

open Registry

variable {g g₁ g₂ : Registry} {s s' s₁ s₂ : Store} {d : Document} {c c₁ c₂ : Configured} {w : Wiring}

/-- **Made by** a document that was carried out on a store: every handler of a logger has
    come since, and the document has it under its name. -/
def Configured.Made (c : Configured) (s s' : Store) (x : Logger) : Prop :=
  ∀ h ∈ x.handlers, s.handlers.size ≤ h ∧ c.handlers.get? (s'.nameOf h) = some h

/-- The handlers of the wiring are made by the document. -/
theorem Wiring.Wired.made {x : Logger} (h : w.Wired x) (hw : w.Built d s s')
    (hc : w.handlers = c.handlers) : c.Made s s' x := by
  intro k hk
  obtain ⟨name, hname⟩ := h k hk
  exact ⟨(hw.handlers name k hname).1, by rw [hw.nameOf_eq hname, ← hc, hname]⟩

/-- **To carry out a document twice is to do it once**: the loggers are the same after the
    second time as after the first, and those with a section have the handlers that were
    built the second time. -/
theorem Document.apply_twice (huse : g.InUse s) (hfirst : d.apply g s = (.ok c₁, g₁, s₁))
    (hsecond : d.apply g₁ s₁ = (.ok c₂, g₂, s₂)) :
    g₁.SameLoggers s₁ g₂ s₂ ∧
      (∀ k ∈ d.loggers.keys, ∃ i, g₂.standing? k = some i ∧ c₂.Made s₁ s₂ (g₂.logger i)) ∧
      (d.root?.isSome → c₂.Made s₁ s₂ (g₂.logger rootId)) := by
  obtain ⟨hg, hb⟩ := huse.sound_backed
  have htended := d.apply_tended hg hb hfirst
  obtain ⟨_, -, -, honce⟩ := d.apply_reshapes hg hb hfirst
  obtain ⟨w, hc, hw, htwice⟩ := d.apply_reshapes htended.sound htended.backed hsecond
  -- Every name has a logger since the first time.
  have htree : SameTree g₁ g₂ := htwice.tree honce.named
  refine ⟨.of_profile htree fun i => ?_, fun k hk => ?_, fun hroot => ?_⟩
  · calc (g₂.logger i).profile s₂
      _ = (d.shapeOf g₂ i).apply ((g₁.logger i).profile s₁) := htwice.reshaped.profile i
      _ = (d.shapeOf g₁ i).apply ((g₁.logger i).profile s₁) := by rw [d.shapeOf_congr htree]
      _ = (d.shapeOf g₁ i).apply ((d.shapeOf g₁ i).apply ((g.logger i).profile s)) := by
        rw [honce.reshaped.profile]
      _ = (g₁.logger i).profile s₁ := by rw [Shape.apply_apply, honce.reshaped.profile]
  · obtain ⟨i, hi⟩ := Option.isSome_iff_exists.mp (htwice.named k hk)
    refine ⟨i, hi, (htwice.reshaped.wired i (.inl ?_)).made hw hc⟩
    rw [shapeOf, Shape.isSome_handlers_andThen, Shape.isSome_handlers_andThen,
      isSome_sectionShape hk hi]
    rfl
  · refine (htwice.reshaped.wired rootId (.inl ?_)).made hw hc
    obtain ⟨e, he⟩ := Option.isSome_iff_exists.mp hroot
    rw [shapeOf, Shape.isSome_handlers_andThen, rootShape, he, Bool.or_eq_true]
    exact .inr rfl

/-- A document that makes a logger, resets the one below it and disables another one.  The
    second time the logger gets a new handler, and its filter once more. -/
theorem Document.apply_twice_above_a_child :
    let g : Registry :=
      ((({} : Registry).getLogger "app.child").2.getLogger "other").2.setLevel 1 Level.error
    let d : Document :=
      { version := 1, filters := [("own", { name := "app" })],
        handlers := [("null", { kind := .null })],
        loggers := [("app", { handlers := ["null"], filters := ["own"] })],
        root? := some { level? := some Level.info, handlers := ["null"] } }
    let s : Store := { origin := default }
    ∃ c₁ g₁ s₁ c₂ g₂ s₂, d.apply g s = (.ok c₁, g₁, s₁) ∧ d.apply g₁ s₁ = (.ok c₂, g₂, s₂) ∧
      g₁.SameLoggers s₁ g₂ s₂ ∧ c₂.Made s₁ s₂ (g₂.logger 3) ∧ c₂.Made s₁ s₂ (g₂.logger rootId) ∧
      g₁.logger 3 =
        { name := "app", parent? := some rootId, handlers := [0], filters := [0] } ∧
      g₂.logger 3 =
        { name := "app", parent? := some rootId, handlers := [1], filters := [0, 1] } := by
  intro g d s
  have huse : g.InUse s :=
    (((InUse.new none s).call (.getLogger "app.child") (by simp [Call.Possible, Call.loggers])
      trivial).call (.getLogger "other") (by simp [Call.Possible, Call.loggers]) trivial).call
        (.setLevel 1 Level.error) (by decide) trivial
  have hfound : (d.apply g s).1.isOk = true ∧
      (d.apply (d.apply g s).2.1 (d.apply g s).2.2).1.isOk = true ∧
      (d.apply g s).2.1.logger 3 =
        { name := "app", parent? := some rootId, handlers := [0], filters := [0] } ∧
      (d.apply (d.apply g s).2.1 (d.apply g s).2.2).2.1.logger 3 =
        { name := "app", parent? := some rootId, handlers := [1], filters := [0, 1] } ∧
      (d.apply (d.apply g s).2.1 (d.apply g s).2.2).2.1.standing? "app" = some 3 := by
    decide +kernel
  rcases hfirst : d.apply g s with ⟨r₁, g₁, s₁⟩
  rw [hfirst] at hfound
  rcases hsecond : d.apply g₁ s₁ with ⟨r₂, g₂, s₂⟩
  dsimp only at hfound
  rw [hsecond] at hfound
  obtain ⟨hok₁, hok₂, hlogger₁, hlogger₂, hstands⟩ := hfound
  cases r₁ with
  | error fault => cases hok₁
  | ok c₁ =>
    cases r₂ with
    | error fault => cases hok₂
    | ok c₂ =>
      obtain ⟨hsame, hnamed, hroot⟩ := d.apply_twice huse hfirst hsecond
      obtain ⟨i, hi, hmade⟩ := hnamed "app" (by decide)
      obtain rfl : 3 = i := Option.some.inj (hstands.symm.trans hi)
      exact ⟨c₁, g₁, s₁, c₂, g₂, s₂, rfl, hsecond, hsame, hmade, hroot rfl, hlogger₁, hlogger₂⟩

end Configuration

end Logbook
