import Logbook.Configuration.Basic
import Logbook.Proofs.Configuration.Sections

/-! # Registries in use

    A program makes a registry and goes on to call it and its loggers, to log, to have
    documents carried out and to set the root up in one go, while handlers and filters
    are added to the store.  Whatever it does, and whatever fails, the registry is sound
    and what is attached to its loggers is in the store.
-/

namespace Logbook

/-- What a call attaches to a logger is in a store. -/
def Call.Backed (c : Call) (s : Store) : Prop :=
  match c with
  | .addHandler _ h => h < s.handlers.size
  | .addFilter _ f => f < s.filters.size
  | _ => True

namespace Registry

variable {g g' : Registry} {s s' : Store} {i : LoggerId} {f : Logger → Logger} {c : Call}

/-! ## What is attached -/

theorem Backed.modify (h : g.Backed s) (i : LoggerId)
    (hf : ∀ x, x.Backed s → (f x).Backed s) : (g.modify i f).Backed s := by
  intro j
  rw [logger_modify]
  split
  · exact hf _ (h j)
  · exact h j

theorem Backed.addHandler (h : g.Backed s) (i : LoggerId) {k : HandlerId}
    (hk : k < s.handlers.size) : (g.addHandler i k).Backed s := by
  refine h.modify i fun x hx => ⟨fun k' hk' => ?_, hx.filters⟩
  rcases Handler.mem_adjoin.mp hk' with hold | rfl
  · exact hx.handlers k' hold
  · exact hk

theorem Backed.addFilter (h : g.Backed s) (i : LoggerId) {k : FilterId}
    (hk : k < s.filters.size) : (g.addFilter i k).Backed s := by
  refine h.modify i fun x hx => ⟨hx.handlers, fun k' hk' => ?_⟩
  rcases Handler.mem_adjoin.mp hk' with hold | rfl
  · exact hx.filters k' hold
  · exact hk

/-- Kept answers are not attached to anything. -/
theorem SameButMemos.backed (h : SameButMemos g g') (hb : g.Backed s) : g'.Backed s := by
  intro j
  have hhandlers := h.view_eq Logger.handlers (fun _ _ => rfl) j
  have hfilters := h.view_eq Logger.filters (fun _ _ => rfl) j
  exact ⟨hhandlers ▸ (hb j).handlers, hfilters ▸ (hb j).filters⟩

/-- A call that attaches what is there. -/
theorem Backed.call (h : g.Backed s) (hg : g.Sound) (hc : c.Backed s) : (g.call c).Backed s := by
  cases c with
  | getLogger name => exact (Configuration.Tended.of_met h (hg.met name)).backed
  | setParent i p =>
    rcases call_setParent g i p with ⟨-, heq⟩ | ⟨-, heq⟩
    · rw [heq]
      exact h
    · rw [heq]
      exact h.modify i fun _ hx => ⟨hx.handlers, hx.filters⟩
  | effectiveLevel i => exact (g.sameButMemos_effectiveLevel i).backed h
  | isEnabledFor i level => exact (g.sameButMemos_isEnabledFor i level).backed h
  | disable _ | setLastResort _ | setFactory _ | setResolver _ => exact h
  | addHandler i k => exact h.addHandler i hc
  | addFilter i k => exact h.addFilter i hc
  -- The other calls change no list, or make one shorter.
  | setLevel i _ | setDisabled i _ | setPropagate i _ =>
    exact h.modify i fun _ hx => ⟨hx.handlers, hx.filters⟩
  | removeHandler i _ =>
    exact h.modify i fun _ hx => ⟨fun k hk => hx.handlers k (List.mem_filter.mp hk).1, hx.filters⟩
  | removeFilter i _ =>
    exact h.modify i fun _ hx => ⟨hx.handlers, fun k hk => hx.filters k (List.mem_filter.mp hk).1⟩
  | clearHandlers i =>
    exact h.modify i fun _ hx => ⟨fun _ hk => absurd hk List.not_mem_nil, hx.filters⟩
  | clearFilters i =>
    exact h.modify i fun _ hx => ⟨hx.handlers, fun _ hk => absurd hk List.not_mem_nil⟩

/-! ## Records -/

theorem persists_offerAll (hs : List HandlerId) (r : Record) (s : Store) :
    s.Persists (offerAll hs r s).2 := by
  induction hs generalizing r s with
  | nil => exact .refl s
  | cons h hs ih =>
    have hone : s.Persists (offer h r s).2 := by
      unfold offer
      split
      · exact Store.persists_handle s.everyone s h r
      · exact .refl s
    exact hone.trans (ih _ _)

/-- To give a record to the handlers on its way changes no logger, and the store persists. -/
theorem callHandlers_keeps (g : Registry) (i : LoggerId) (r : Record) (s : Store) :
    (g.callHandlers i r s).1.loggers = g.loggers ∧ s.Persists (g.callHandlers i r s).2 := by
  unfold callHandlers
  split
  · have hreport : s.Persists (if g.warned then s
        else s.report ["No handlers could be found for logger \"" ++ (g.logger i).name ++ "\""]) := by
      split
      · exact .refl s
      · exact .of_eq rfl rfl
    unfold noHandlers
    dsimp only
    split
    · exact ⟨rfl, hreport⟩
    · next h _ => exact ⟨rfl, hreport.trans (persists_offerAll [h] r _)⟩
  · exact ⟨rfl, persists_offerAll _ r s⟩

/-- To give a record to a logger changes no logger, and the store persists. -/
theorem handle_keeps (g : Registry) (i : LoggerId) (r : Record) (s : Store) :
    (g.handle i r s).1.loggers = g.loggers ∧ s.Persists (g.handle i r s).2 := by
  have hscreen := Store.Persists.screen (g.logger i).filters r s
  unfold handle
  split
  · exact ⟨rfl, .refl s⟩
  · split <;> next heq =>
      rw [heq] at hscreen
      first
        | exact ⟨rfl, hscreen⟩
        | exact (g.callHandlers_keeps i _ _).imp id hscreen.trans

/-- To log an event changes of the loggers the answers that they keep, and the store
    persists. -/
theorem logEvent_keeps (g : Registry) (i : LoggerId) (level : Level) (e : Event)
    (caller : CallSite) (s : Store) (hb : g.Backed s) :
    (g.logEvent i level e caller s).2.1.Backed s ∧
      s.Persists (g.logEvent i level e caller s).2.2 := by
  -- Whether the event is logged is asked first, which changes kept answers alone.
  have hasked := (g.sameButMemos_isEnabledFor i level).backed hb
  unfold logEvent
  split
  · next heq =>
    rw [heq] at hasked
    exact ⟨hasked, .refl s⟩
  · next g₁ heq =>
    rw [heq] at hasked
    unfold dispatch
    split
    · exact ⟨hasked, .refl s⟩
    · next r _ =>
      obtain ⟨hloggers, hs⟩ := g₁.handle_keeps i r s
      refine ⟨fun j => ?_, hs⟩
      have hsame : (g₁.handle i r s).1.logger j = g₁.logger j := by rw [logger, logger, hloggers]
      exact hsame.symm ▸ hasked j

end Registry

namespace Configuration

open Registry

variable {g g' : Registry} {s s' : Store} {o : BasicOptions}

/-! ## The root in one go -/

theorem persists_closeReporting (hs : List HandlerId) (s : Store) :
    s.Persists (closeReporting hs s) := by
  induction hs generalizing s with
  | nil => exact .refl s
  | cons h hs ih =>
    have hclose := Store.persists_close s h
    unfold closeReporting
    generalize s.close h = closed at hclose ⊢
    rcases closed with ⟨e | _, s₁⟩
    · have hcomplain : s.Persists (s₁.complainOfClose h e) := hclose.trans (.of_eq rfl rfl)
      exact (hcomplain.trans (Store.persists_giveUp _ h)).trans (ih _)
    · exact (hclose.trans (Store.persists_giveUp s₁ h)).trans (ih _)

/-- The handlers of a basic configuration are in the store, and what was there persists. -/
theorem makeHandlers_spec (o : BasicOptions) (s : Store)
    (hthere : ∀ hs, o.handlers? = some hs → ∀ h ∈ hs, h < s.handlers.size)
    {r : Except LogError (List HandlerId)} (hrun : o.makeHandlers s = (r, s')) :
    s.Persists s' ∧ ∀ hs, r = .ok hs → ∀ h ∈ hs, h < s'.handlers.size := by
  -- However the sink came about, its handler is the last of the store.
  have hone : ∀ (sink : Sink) (s₁ : Store), s.Persists s₁ →
      s.Persists (s₁.addHandler { sink }).2 ∧
        ∀ h ∈ [(s₁.addHandler { sink }).1], h < (s₁.addHandler { sink }).2.handlers.size := by
    intro sink s₁ hs₁
    refine ⟨hs₁.trans (.addHandler s₁ _), fun h hh => ?_⟩
    rw [List.mem_singleton.mp hh]
    simp [Store.addHandler]
  unfold BasicOptions.makeHandlers at hrun
  cases hgiven : o.handlers? with
  | some hs =>
    simp only [hgiven] at hrun
    cases hrun
    exact ⟨.refl _, fun _ h => by cases h; exact hthere hs hgiven⟩
  | none =>
    cases hpath : o.path? with
    | some path =>
      simp only [hgiven, hpath] at hrun
      split at hrun
      · cases hrun
        exact ⟨.of_eq rfl rfl, fun _ h => by cases h⟩
      · next sink world _ =>
        cases hrun
        obtain ⟨hs, hh⟩ := hone (.file sink) { s with world } (.of_eq rfl rfl)
        exact ⟨hs, fun _ h => by cases h; exact hh⟩
    | none =>
      cases hstream : o.stream? <;> simp only [hgiven, hpath, hstream] at hrun <;> cases hrun
      all_goals
        obtain ⟨hs, hh⟩ := hone (.stream _) s (.refl s)
        exact ⟨hs, fun _ h => by cases h; exact hh⟩

/-- The handlers of the root after they were installed one after the other. -/
theorem installAll_keeps (f : Formatter) (hs : List HandlerId) {p : Registry × Store}
    (hg : p.1.Sound) (hb : p.1.Backed p.2) (hthere : ∀ h ∈ hs, h < p.2.handlers.size) :
    (hs.foldl (fun p h => installOne f h p) p).1.Sound ∧
      (hs.foldl (fun p h => installOne f h p) p).1.Backed
        (hs.foldl (fun p h => installOne f h p) p).2 := by
  induction hs generalizing p with
  | nil => exact ⟨hg, hb⟩
  | cons h hs ih =>
    have hsize : (installOne f h p).2.handlers.size = p.2.handlers.size := by
      simp [installOne, Store.modify]
    have htree : SameTree p.1 (installOne f h p).1 :=
      sameTree_modify p.1 rootId _ (fun _ => rfl) (fun _ => rfl) (fun _ => rfl)
    refine ih (htree.sound hg) ?_ fun k hk => ?_
    · have hbacked := hb.addHandler rootId (hthere h List.mem_cons_self)
      intro i
      exact ⟨fun k hk => hsize ▸ (hbacked i).handlers k hk, (hbacked i).filters⟩
    · rw [hsize]
      exact hthere k (List.mem_cons_of_mem _ hk)

/-- What a basic configuration is given is in the store. -/
def BasicOptions.Backed (o : BasicOptions) (s : Store) : Prop :=
  ∀ hs, o.handlers? = some hs → ∀ h ∈ hs, h < s.handlers.size

/-- To set up a root without handlers, whatever comes of it, keeps a registry sound and
    backed. -/
theorem setUpRoot_keeps (hg : g.Sound) (hb : g.Backed s) (ho : o.Backed s)
    {r : Except LogError Unit} (hrun : setUpRoot o g s = (r, g', s')) :
    g'.Sound ∧ g'.Backed s' := by
  unfold setUpRoot at hrun
  split at hrun
  · cases hrun
    exact ⟨hg, hb⟩
  · split at hrun
    · next hmake =>
      cases hrun
      obtain ⟨hs, -⟩ := makeHandlers_spec o s ho hmake
      exact ⟨hg, fun i => (hb i).persist hs⟩
    · next hs s₁ hmake =>
      obtain ⟨hpersists, hthere⟩ := makeHandlers_spec o s ho hmake
      have hb₁ : g.Backed s₁ := fun i => (hb i).persist hpersists
      split at hrun
      · cases hrun
        exact ⟨hg, hb₁⟩
      · next f _ =>
        -- The handlers were made first, so those that are attached are there.
        obtain ⟨hg₂, hb₂⟩ := installAll_keeps (p := (g, s₁)) f hs hg hb₁ (hthere hs rfl)
        dsimp only at hrun
        generalize hs.foldl (fun p h => installOne f h p) (g, s₁) = installed at hg₂ hb₂ hrun
        split at hrun
        · next level _ =>
          cases hrun
          have hlevel := sameTree_modify installed.1 rootId ({ · with level }) (fun _ => rfl)
            (fun _ => rfl) (fun _ => rfl)
          have htree : SameTree installed.1 (installed.1.setLevel rootId level) :=
            ⟨hlevel.size, hlevel.nodes, hlevel.name, hlevel.link, hlevel.gone⟩
          exact ⟨htree.sound hg₂, hb₂.modify rootId fun _ hx => ⟨hx.handlers, hx.filters⟩⟩
        · cases hrun
          exact ⟨hg₂, hb₂⟩

/-- To set the root up in one go, whatever comes of it, keeps a registry sound and backed. -/
theorem basic_keeps (hg : g.Sound) (hb : g.Backed s) (ho : o.Backed s)
    {r : Except LogError Unit} (hrun : basic o g s = (r, g', s')) : g'.Sound ∧ g'.Backed s' := by
  unfold basic at hrun
  cases hforce : o.force with
  | false =>
    simp only [hforce, Bool.false_eq_true, if_false] at hrun
    split at hrun
    · exact setUpRoot_keeps hg hb ho hrun
    · cases hrun
      exact ⟨hg, hb⟩
  | true =>
    simp only [hforce, if_true] at hrun
    have htree : SameTree g (g.clearHandlers rootId) :=
      sameTree_modify g rootId _ (fun _ => rfl) (fun _ => rfl) (fun _ => rfl)
    have hs := persists_closeReporting (g.logger rootId).handlers s
    have hb' : (g.clearHandlers rootId).Backed (closeReporting (g.logger rootId).handlers s) := by
      -- The handlers that were closed are attached no longer.
      refine Backed.modify (fun i => (hb i).persist hs) rootId fun x hx => ⟨?_, hx.filters⟩
      exact fun _ hk => absurd hk List.not_mem_nil
    split at hrun
    · refine setUpRoot_keeps (htree.sound hg) hb' (fun hs' heq h hh => ?_) hrun
      exact Nat.lt_of_lt_of_le (ho hs' heq h hh) hs.size_handlers
    · cases hrun
      exact ⟨htree.sound hg, hb'⟩

end Configuration

/-! ## Everything a program does -/

/-- **In use**: a registry and a store that a program has come to. -/
inductive Registry.InUse : Registry → Store → Prop where
  | new (lastResort? : Option HandlerId) (s : Store) : InUse { lastResort? } s
  | call {g : Registry} {s : Store} (c : Call) (before : InUse g s) (possible : c.Possible g)
      (there : c.Backed s) : InUse (g.call c) s
  /-- Handlers and filters are added, and the handlers of the store are set to work. -/
  | store {g : Registry} {s s' : Store} (before : InUse g s)
      (handlers : s.handlers.size ≤ s'.handlers.size)
      (filters : s.filters.size ≤ s'.filters.size) : InUse g s'
  | logEvent {g : Registry} {s : Store} (i : LoggerId) (level : Level) (e : Event)
      (caller : CallSite) (before : InUse g s) :
      InUse (g.logEvent i level e caller s).2.1 (g.logEvent i level e caller s).2.2
  | handle {g : Registry} {s : Store} (i : LoggerId) (r : Record) (before : InUse g s) :
      InUse (g.handle i r s).1 (g.handle i r s).2
  | callHandlers {g : Registry} {s : Store} (i : LoggerId) (r : Record) (before : InUse g s) :
      InUse (g.callHandlers i r s).1 (g.callHandlers i r s).2
  | document {g : Registry} {s : Store} (d : Configuration.Document) (before : InUse g s) :
      InUse (d.apply g s).2.1 (d.apply g s).2.2
  | basic {g : Registry} {s : Store} (o : Configuration.BasicOptions) (before : InUse g s)
      (there : o.Backed s) :
      InUse (Configuration.basic o g s).2.1 (Configuration.basic o g s).2.2

namespace Registry

variable {g : Registry} {s : Store}

/-- The same loggers are backed by a store that persists. -/
theorem Backed.of_loggers {g' : Registry} {s' : Store} (h : g.Backed s)
    (hloggers : g'.loggers = g.loggers) (hs : s.Persists s') : g'.Backed s' := by
  intro i
  have hsame : g'.logger i = g.logger i := by rw [logger, logger, hloggers]
  rw [hsame]
  exact (h i).persist hs

/-- **Every registry in use** is sound, and what is attached to its loggers is there. -/
theorem InUse.sound_backed (h : g.InUse s) : g.Sound ∧ g.Backed s := by
  induction h with
  | new lastResort? s =>
    obtain ⟨hwhole, hreg⟩ := whole_registered_new lastResort?
    refine ⟨⟨hwhole, hreg⟩, fun i => ?_⟩
    -- To a new registry nothing is attached, whatever the store holds.
    have hblank : ∀ j : LoggerId, (({ lastResort? } : Registry).logger j).handlers = [] ∧
        (({ lastResort? } : Registry).logger j).filters = [] := by
      intro j
      cases j <;> exact ⟨rfl, rfl⟩
    constructor
    · rw [(hblank i).1]
      exact fun _ hk => absurd hk List.not_mem_nil
    · rw [(hblank i).2]
      exact fun _ hk => absurd hk List.not_mem_nil
  | call c _ possible there ih =>
    obtain ⟨hwhole, hreg⟩ := whole_registered_call ih.1.whole ih.1.registered possible
    exact ⟨⟨hwhole, hreg⟩, ih.2.call ih.1 there⟩
  | store _ handlers filters ih =>
    exact ⟨ih.1, fun i => ⟨fun h hh => Nat.lt_of_lt_of_le ((ih.2 i).handlers h hh) handlers,
      fun f hf => Nat.lt_of_lt_of_le ((ih.2 i).filters f hf) filters⟩⟩
  | @logEvent g s i level e caller _ ih =>
    obtain ⟨hb, hs⟩ := g.logEvent_keeps i level e caller s ih.2
    exact ⟨(g.sameTree_logEvent i level e caller s).sound ih.1, fun j => (hb j).persist hs⟩
  | @handle g s i r _ ih =>
    obtain ⟨hloggers, hs⟩ := g.handle_keeps i r s
    exact ⟨(g.sameTree_handle i r s).sound ih.1, ih.2.of_loggers hloggers hs⟩
  | @callHandlers g s i r _ ih =>
    obtain ⟨hloggers, hs⟩ := g.callHandlers_keeps i r s
    exact ⟨(g.sameTree_callHandlers i r s).sound ih.1, ih.2.of_loggers hloggers hs⟩
  | document d _ ih =>
    have htended := Configuration.Document.apply_tended ih.1 ih.2 (d := d) rfl
    exact ⟨htended.sound, htended.backed⟩
  | basic o _ there ih => exact Configuration.basic_keeps ih.1 ih.2 there rfl

end Registry

end Logbook
