import Logbook.Proofs.Configuration.InUse
import Logbook.Proofs.Files.Opened

/-! # A basic configuration that fails

    With force the handlers of the root are removed and closed before anything else is
    looked at, so they are gone also if the configuration fails then.  What follows is
    tried out in full before the root is touched: a failure leaves the loggers, and all
    handlers there are.  The file that was to be logged to may have been made, or begun
    anew, by then.
-/

namespace Logbook

/-- To make a file sink opens its file at most, whatever comes of it. -/
theorem FileSink.build_opens {path : Path} {mode : FileMode} {w w' : World}
    {r : Except LogError FileSink} (h : FileSink.build { path, mode } w = (r, w')) :
    w.files.Opens path mode w'.files := by
  unfold build at h
  split at h
  · next hmake =>
    cases h
    exact LogFile.reopen_opens (f := { path, mode }) rfl hmake
  · next hmake =>
    cases h
    exact LogFile.reopen_opens (f := { path, mode }) rfl hmake

namespace Configuration

open Registry

variable {g g' : Registry} {s s' : Store} {o : BasicOptions} {h k : HandlerId}
  {hs : List HandlerId} {fault : LogError}

/-! ## Handlers that are closed -/

/-- One handler is closed and given up, and then the others are. -/
theorem closeReporting_cons (h : HandlerId) (hs : List HandlerId) (s : Store) :
    ∃ s₁, closeReporting (h :: hs) s = closeReporting hs s₁ ∧ (s.close h).2.Persists s₁ ∧
      ∀ k, ¬ s.Reaches h k → s.Spares k s₁ := by
  have hspares : ∀ k, ¬ s.Reaches h k → s.Spares k (s.close h).2 :=
    fun _ hfar => Store.spares_closeAmong _ s hfar
  -- Whatever is reported, the handler is given up then.
  have hgiveUp : ∀ s₂ : Store, s₂.handlers = (s.close h).2.handlers →
      s₂.filters = (s.close h).2.filters → (s.close h).2.Persists (s₂.giveUp h) ∧
        ∀ k, ¬ s.Reaches h k → s.Spares k (s₂.giveUp h) := by
    intro s₂ hhandlers hfilters
    have hpersists : (s.close h).2.Persists s₂ :=
      .of_eq hhandlers (congrArg (Array.map Filter.test) hfilters)
    refine ⟨hpersists.trans (Store.persists_giveUp s₂ h), fun k hfar => ?_⟩
    have hheld : s.Spares k { s₂ with held := s₂.held.erase h } :=
      (hspares k hfar).trans (.of_eq hhandlers hfilters)
    exact hheld.trans (Store.spares_letGoAmong _ _ (hheld.far hfar))
  rw [closeReporting]
  generalize s.close h = closed at hgiveUp ⊢
  obtain ⟨e | _, s₁⟩ := closed
  · exact ⟨_, rfl, hgiveUp (s₁.complainOfClose h e) rfl rfl⟩
  · exact ⟨_, rfl, hgiveUp s₁ rfl rfl⟩

/-- Handlers that are closed one after the other are closed in the end. -/
theorem isClosed_closeReporting {x : Handler} (hh : h ∈ hs) (hx : s.handlers[h]? = some x) :
    ∃ y, (closeReporting hs s).handlers[h]? = some y ∧ y.closed = true := by
  induction hs generalizing s x with
  | nil => cases hh
  | cons head rest ih =>
    obtain ⟨s₁, heq, hpersists, -⟩ := closeReporting_cons head rest s
    rw [heq]
    rcases List.mem_cons.mp hh with rfl | hin
    · -- Once it is closed, nothing that happens to the others opens it again.
      obtain ⟨y, hy, hclosed⟩ := Store.isClosed_close hx
      obtain ⟨z, hz, -, hkept⟩ :=
        (hpersists.trans (persists_closeReporting rest s₁)).handler h y hy
      exact ⟨z, hz, hkept hclosed⟩
    · obtain ⟨y, hy, -⟩ := ((Store.persists_close s head).trans hpersists).handler h x hx
      exact ih hin hy

/-- To close handlers spares what none of them reaches. -/
theorem spares_closeReporting (hfar : ∀ h ∈ hs, ¬ s.Reaches h k) :
    s.Spares k (closeReporting hs s) := by
  induction hs generalizing s with
  | nil => exact .refl k s
  | cons head rest ih =>
    obtain ⟨s₁, heq, -, hspares⟩ := closeReporting_cons head rest s
    have hone := hspares k (hfar head List.mem_cons_self)
    rw [heq]
    exact hone.trans (ih fun h hh => hone.far (hfar h (List.mem_cons_of_mem _ hh)))

/-! ## A root that is not set up -/

/-- **Tried**: what is left of a basic configuration that was tried out.  The handlers that
    were there are as they were.  Every entry of the tree of files is where it was, and
    every file holds what it held, but perhaps the one that the options name and that was
    to be begun anew. -/
structure BasicOptions.Tried (o : BasicOptions) (s s' : Store) : Prop where
  handlers : ∀ h : HandlerId, h < s.handlers.size → s'.handlers[h]? = s.handlers[h]?
  entry : ∀ {l e}, s.world.files.entryAt? l = some e → s'.world.files.entryAt? l = some e
  content : ∀ id, (∀ path, o.path? = some path →
      o.mode = .append ∨ s'.world.files.status true path ≠ .ok (.file id)) →
    s'.world.files.contentOf id = s.world.files.contentOf id

/-- Nothing that a basic configuration would leave has happened to the files. -/
theorem BasicOptions.Tried.of_files (hfiles : s'.world.files = s.world.files)
    (hhandlers : ∀ h, h < s.handlers.size → s'.handlers[h]? = s.handlers[h]?) : o.Tried s s' :=
  ⟨hhandlers, fun hl => hfiles ▸ hl, fun _ _ => hfiles ▸ rfl⟩

/-- To make the handlers of a basic configuration, whatever comes of it. -/
theorem makeHandlers_tried {r : Except LogError (List HandlerId)}
    (hrun : o.makeHandlers s = (r, s')) : o.Tried s s' := by
  have hold : ∀ (x : Handler) (s₁ : Store), s₁.handlers = s.handlers → ∀ h, h < s.handlers.size →
      (s₁.addHandler x).2.handlers[h]? = s.handlers[h]? := by
    intro x s₁ hs₁ h hh
    rw [Store.addHandler, hs₁, Array.getElem?_push_lt hh, Array.getElem?_eq_getElem hh]
  unfold BasicOptions.makeHandlers at hrun
  cases hgiven : o.handlers? with
  | some hs =>
    simp only [hgiven] at hrun
    cases hrun
    exact .of_files rfl fun _ _ => rfl
  | none =>
    cases hpath : o.path? with
    | some path =>
      simp only [hgiven, hpath] at hrun
      -- The file that is opened is that of the options.
      have hopens : ∀ {r w}, FileSink.build { path, mode := o.mode } s.world = (r, w) →
          ∀ s₁ : Store, s₁.world = w →
            (∀ h, h < s.handlers.size → s₁.handlers[h]? = s.handlers[h]?) → o.Tried s s₁ := by
        rintro r w hbuild s₁ rfl hhandlers
        have hone := FileSink.build_opens hbuild
        exact ⟨hhandlers, hone.entry, fun id hid => hone.content id (hid path hpath)⟩
      split at hrun
      · next hbuild =>
        cases hrun
        exact hopens hbuild _ rfl fun _ _ => rfl
      · next world hbuild =>
        cases hrun
        exact hopens hbuild _ rfl (hold _ { s with world } rfl)
    | none =>
      cases hstream : o.stream? <;> simp only [hgiven, hpath, hstream] at hrun <;> cases hrun <;>
        exact .of_files rfl (hold _ s rfl)

/-- To set up a root without handlers fails before it touches a logger. -/
theorem setUpRoot_error (hrun : setUpRoot o g s = (.error fault, g', s')) :
    g' = g ∧ o.Tried s s' := by
  unfold setUpRoot at hrun
  split at hrun
  · cases hrun
    exact ⟨rfl, .of_files rfl fun _ _ => rfl⟩
  · split at hrun
    · next hmake =>
      cases hrun
      exact ⟨rfl, makeHandlers_tried hmake⟩
    · next hmake =>
      split at hrun
      · cases hrun
        exact ⟨rfl, makeHandlers_tried hmake⟩
      · dsimp only at hrun
        split at hrun <;> cases hrun

/-! ## What a failure leaves -/

/-- The loggers and the store that a basic configuration starts from: with force the root
    has lost its handlers, and they are closed. -/
def BasicOptions.start (o : BasicOptions) (g : Registry) (s : Store) : Registry × Store :=
  if o.force then (g.clearHandlers rootId, closeReporting (g.logger rootId).handlers s) else (g, s)

/-- A root without handlers is set up from there. -/
theorem basic_eq (o : BasicOptions) (g : Registry) (s : Store) : basic o g s =
    if ((o.start g s).1.logger rootId).handlers.isEmpty then
      setUpRoot o (o.start g s).1 (o.start g s).2
    else (.ok (), o.start g s) := rfl

/-- **What a basic configuration that fails leaves.** -/
structure BasicOptions.Leaves (o : BasicOptions) (g : Registry) (s : Store) (g' : Registry)
    (s' : Store) : Prop where
  /-- Without force the registry is as it was; with force the root has no handlers, and
      nothing else has changed. -/
  registry : g' = if o.force then g.clearHandlers rootId else g
  /-- With force every handler that the root had is closed. -/
  closed : o.force = true → ∀ h ∈ (g.logger rootId).handlers, h < s.handlers.size →
    ∃ y, s'.handlers[h]? = some y ∧ y.closed = true
  /-- A handler is as it was, unless with force one that the root had leads to it. -/
  spared : ∀ h : HandlerId, h < s.handlers.size →
    (o.force = true → ∀ k ∈ (g.logger rootId).handlers, ¬ s.Reaches k h) →
    s'.handlers[h]? = s.handlers[h]?
  /-- Every handler has the formatter that it had, whatever has become of it. -/
  formatter : ∀ (h : HandlerId) (x : Handler), s.handlers[h]? = some x →
    ∃ y : Handler, s'.handlers[h]? = some y ∧ y.formatter? = x.formatter?
  /-- The configuration itself has at most tried to open its file. -/
  tried : o.Tried (o.start g s).2 s'

/-- What is tried out from the start leaves that. -/
theorem BasicOptions.leaves (o : BasicOptions) (g : Registry)
    (htried : o.Tried (o.start g s).2 s') : o.Leaves g s (o.start g s).1 s' := by
  cases hforce : o.force with
  | false =>
    have hstart : o.start g s = (g, s) := by rw [start, hforce, if_neg Bool.false_ne_true]
    have hold := htried.handlers
    rw [hstart] at hold
    constructor
    case registry => rw [hstart, hforce, if_neg Bool.false_ne_true]
    case closed =>
      rw [hforce]
      exact fun h => by cases h
    case spared => exact fun h hh _ => hold h hh
    case formatter =>
      intro h x hx
      exact ⟨x, (hold h (Array.getElem?_eq_some_iff.mp hx).1).trans hx, rfl⟩
    case tried => exact htried
  | true =>
    have hstart : o.start g s =
        (g.clearHandlers rootId, closeReporting (g.logger rootId).handlers s) := by
      rw [start, hforce, if_pos rfl]
    have hpersists := persists_closeReporting (g.logger rootId).handlers s
    have hold : ∀ h : HandlerId, h < s.handlers.size →
        s'.handlers[h]? = (closeReporting (g.logger rootId).handlers s).handlers[h]? := by
      intro h hh
      have hsame := htried.handlers h
      rw [hstart] at hsame
      exact hsame (Nat.lt_of_lt_of_le hh hpersists.size_handlers)
    constructor
    case registry => rw [hstart, hforce, if_pos rfl]
    case closed =>
      intro _ h hmem hh
      rw [hold h hh]
      exact isClosed_closeReporting hmem (Array.getElem?_eq_getElem hh)
    case spared =>
      intro h hh hfar
      rw [hold h hh, (spares_closeReporting (hfar hforce)).handler]
    case formatter =>
      intro h x hx
      obtain ⟨y, hy, hid, -⟩ := hpersists.handler h x hx
      rw [hold h (Array.getElem?_eq_some_iff.mp hx).1]
      exact ⟨y, hy, congrArg (fun p => p.1.formatter?) hid⟩
    case tried => exact htried

/-- **A basic configuration that fails** has not touched a logger, but that with force the
    root has lost its handlers. -/
theorem basic_failed (hrun : basic o g s = (.error fault, g', s')) : o.Leaves g s g' s' := by
  rw [basic_eq] at hrun
  split at hrun
  · obtain ⟨rfl, htried⟩ := setUpRoot_error hrun
    exact o.leaves g htried
  · cases hrun

/-- Options that exclude each other, with force: the handler of the root is gone and closed. -/
theorem basic_failed_with_force :
    let g : Registry := ({} : Registry).addHandler rootId 0
    let s : Store := { origin := default, handlers := #[{ sink := .null }] }
    let o : BasicOptions := { path? := some ⟨"x.log"⟩, stream? := some .err, force := true }
    ∃ fault g' s', basic o g s = (.error fault, g', s') ∧ o.Leaves g s g' s' ∧
      g' = g.clearHandlers rootId ∧ ∃ y, s'.handlers[0]? = some y ∧ y.closed = true := by
  intro g s o
  have hfailed : (basic o g s).1.isOk = false := by decide +kernel
  rcases hrun : basic o g s with ⟨r, g', s'⟩
  rw [hrun] at hfailed
  cases r with
  | ok => cases hfailed
  | error fault =>
    have hleaves := basic_failed hrun
    exact ⟨fault, g', s', rfl, hleaves, hleaves.registry,
      hleaves.closed rfl 0 (by decide) (by decide)⟩

/-- A failure is not without effects.  With force the root has lost its handler, although
    the options exclude each other; and a file that is to be begun anew is empty, although
    the template is broken. -/
theorem basic_failed_after_effects :
    let g : Registry := ({} : Registry).addHandler rootId 0
    let s : Store := { origin := default, handlers := #[{ sink := .null }] }
    let forced : BasicOptions := { path? := some ⟨"x.log"⟩, stream? := some .err, force := true }
    let files : FileSystem :=
      { entries := [(["app.log"], .file 1)], data := #[{}, { content := [111, 108, 100] }] }
    let t : Store := { origin := default, world := { files } }
    let anew : BasicOptions :=
      { path? := some ⟨"app.log"⟩, mode := .truncate, format? := some "%(message" }
    ((basic forced g s).1.isOk = false ∧ (g.logger rootId).handlers = [0] ∧
      ((basic forced g s).2.1.logger rootId).handlers = []) ∧
    (basic anew {} t).1.isOk = false ∧ files.contentOf 1 = [111, 108, 100] ∧
      (basic anew {} t).2.2.world.files.contentOf 1 = [] := by
  decide +kernel

end Configuration

end Logbook
