import Logbook.Configuration.Wiring
import Logbook.Proofs.Delivery.Persistence
import Logbook.Proofs.Table

/-! # What a document is built into

    Filters and handlers that a document names get places of their own behind those that
    were there, which persist.  What stands under a name is what the document describes:
    a filter that accepts by the name in its entry, a handler with the name of its entry.
    If all goes well, everything that the document names has been built, and nothing
    else.
-/

namespace Logbook.Configuration

variable {s s' s₀ : Store} {w w' : Wiring} {d : Document} {name : String} {e : HandlerEntry}

/-! ## Filters -/

/-- What the filter of an entry tests. -/
def FilterEntry.test (e : FilterEntry) : Record → Bool × Record :=
  (Filter.ofName { name := e.name }).test

/-- The filters under names are those of the entries. -/
structure FiltersStand (entries : Table FilterEntry) (filters : Table FilterId) (s : Store) :
    Prop where
  keys : filters.keys = entries.keys
  test : ∀ k f, filters.get? k = some f →
    ∃ e, entries.get? k = some e ∧ s.tests[f]? = some e.test

/-- Filters go on to stand as long as the store persists. -/
theorem FiltersStand.persist {entries : Table FilterEntry} {filters : Table FilterId}
    (h : FiltersStand entries filters s) (hs : s.Persists s') : FiltersStand entries filters s' where
  keys := h.keys
  test k f hf := by
    obtain ⟨e, he, htest⟩ := h.test k f hf
    exact ⟨e, he, hs.test f _ htest⟩

/-- The filters of a document. -/
theorem buildFilters_spec (entries : Table FilterEntry) (s : Store) :
    s.Persists (buildFilters entries s).2 ∧
      FiltersStand entries (buildFilters entries s).1 (buildFilters entries s).2 := by
  induction entries generalizing s with
  | nil => exact ⟨.refl s, rfl, fun k f hf => by cases hf⟩
  | cons head rest ih =>
    obtain ⟨name, e⟩ := head
    obtain ⟨hpersists, hkeys, htest⟩ := ih (s.addFilter (Filter.ofName { name := e.name })).2
    have hadded : s.Persists (s.addFilter (Filter.ofName { name := e.name })).2 := .addFilter s _
    have hnew : (s.addFilter (Filter.ofName { name := e.name })).2.tests[s.filters.size]? =
        some e.test := by
      simp [Store.addFilter, Store.tests, FilterEntry.test, Array.getElem_push]
    refine ⟨hadded.trans hpersists, congrArg (name :: ·) hkeys, ?_⟩
    intro k f hf
    -- The entry is put in front, so it hides later entries of the same name.
    by_cases hk : k = name
    · subst hk
      have hself : s.filters.size = f := by simpa [buildFilters, Table.get?, Store.addFilter] using hf
      refine ⟨e, by simp [Table.get?], hpersists.test f _ ?_⟩
      rw [← hself]
      exact hnew
    · have hbeq : (k == name) = false := by simpa using hk
      obtain ⟨e', he', hfound⟩ := htest k f (by
        simpa [buildFilters, Table.get?, List.lookup_cons, hbeq] using hf)
      exact ⟨e', by simpa [Table.get?, List.lookup_cons, hbeq] using he', hfound⟩

/-! ## Handlers -/

/-- To build a sink changes of the wiring its listeners alone. -/
theorem buildSink_wiring (w : Wiring) (component : String) (k : HandlerKind) (s : Store) :
    ∃ listeners, (w.buildSink component k s).2.1 = { w with listeners } := by
  unfold Wiring.buildSink
  split
  · exact ⟨_, rfl⟩
  · exact ⟨_, rfl⟩
  · exact ⟨_, rfl⟩
  · split <;> exact ⟨_, rfl⟩
  · split <;> exact ⟨_, rfl⟩
  · split <;> exact ⟨_, rfl⟩

theorem persists_buildFile (component : String) (o : Except LogError FileSinkOptions) (s : Store) :
    s.Persists (buildFile component o s).2 := by
  unfold buildFile
  split
  · exact .refl s
  · split <;> exact .of_eq rfl rfl

/-- To build a sink changes no handler and no filter. -/
theorem persists_buildSink (w : Wiring) (component : String) (k : HandlerKind) (s : Store) :
    s.Persists (w.buildSink component k s).2.2 := by
  unfold Wiring.buildSink
  split
  · exact .refl s
  · exact .refl s
  · exact .refl s
  · split <;> exact .refl s
  · split
    · exact .refl s
    · exact .of_eq rfl rfl
  · split
    · exact .refl s
    · exact persists_buildFile component _ s

/-- **One handler**: once its sink is built, what it refers to is looked up, and the handler
    gets the next place of the store and its name in the wiring. -/
theorem buildHandler_cases {r : Except LogError Unit}
    (hrun : w.buildHandler name e s = (r, w', s')) :
    ∃ r₁ listeners s₁,
      w.buildSink (handlerComponent name) e.kind s = (r₁, { w with listeners }, s₁) ∧
      ((∃ fault, r = .error fault) ∧ w' = { w with listeners } ∧ s' = s₁ ∨
        r = .ok () ∧ ∃ x : Handler, x.name? = some name ∧ s' = (s₁.addHandler x).2 ∧
          w' = { w with listeners, handlers := w.handlers.insert name s₁.handlers.size }) := by
  obtain ⟨listeners, hwiring⟩ := buildSink_wiring w (handlerComponent name) e.kind s
  unfold Wiring.buildHandler at hrun
  dsimp only at hrun
  rcases hsink : w.buildSink (handlerComponent name) e.kind s with ⟨r₁, w₁, s₁⟩
  rw [hsink] at hrun hwiring
  obtain rfl : w₁ = { w with listeners } := hwiring
  refine ⟨r₁, listeners, s₁, rfl, ?_⟩
  -- A failed sink ends it; else a formatter or a filter may still be unknown.
  cases r₁ with
  | error fault =>
    cases hrun
    exact .inl ⟨⟨fault, rfl⟩, rfl, rfl⟩
  | ok sink =>
    dsimp only at hrun
    split at hrun
    · cases hrun
      exact .inl ⟨⟨_, rfl⟩, rfl, rfl⟩
    · split at hrun
      · cases hrun
        exact .inl ⟨⟨_, rfl⟩, rfl, rfl⟩
      · cases hrun
        exact .inr ⟨rfl, _, rfl, rfl, rfl⟩

/-- **Stands**: a wiring on a store that persists since another one.  What is under a name
    in it came in between and is what the document describes. -/
structure Wiring.Stands (w : Wiring) (d : Document) (s₀ s : Store) : Prop where
  persists : s₀.Persists s
  filters : FiltersStand d.filters w.filters s
  handlers : ∀ k h, w.handlers.get? k = some h →
    s₀.handlers.size ≤ h ∧ ∃ x, s.handlers[h]? = some x ∧ x.name? = some k

/-- What stands goes on to stand as long as the store persists. -/
theorem Wiring.Stands.persist (h : w.Stands d s₀ s) (hs : s.Persists s') : w.Stands d s₀ s' where
  persists := h.persists.trans hs
  filters := h.filters.persist hs
  handlers k i hi := by
    obtain ⟨hnew, x, hx, hname⟩ := h.handlers k i hi
    obtain ⟨y, hy, hid, -⟩ := hs.handler i x hx
    have hname' : y.name? = x.name? := congrArg (fun p => p.1.name?) hid
    exact ⟨hnew, y, hy, hname'.trans hname⟩

/-- A handler of the wiring answers to its name. -/
theorem Wiring.Stands.nameOf_eq (h : w.Stands d s₀ s) {k : String} {i : HandlerId}
    (hi : w.handlers.get? k = some i) : s.nameOf i = k := by
  obtain ⟨-, x, hx, hname⟩ := h.handlers k i hi
  rw [Store.nameOf, hx]
  show x.name = k
  rw [Handler.name, hname]
  rfl

/-- A handler that is built stands under its name, besides those that stood before; what
    fails leaves those. -/
theorem buildHandler_stands (h : w.Stands d s₀ s) (name : String) (e : HandlerEntry)
    {result : Except LogError Unit} (hrun : w.buildHandler name e s = (result, w', s')) :
    w'.Stands d s₀ s' ∧ (result = .ok () →
      ∀ k, (w'.handlers.get? k).isSome ↔ (w.handlers.get? k).isSome ∨ k = name) := by
  obtain ⟨r₁, listeners, s₁, hsink, hcases⟩ := buildHandler_cases hrun
  have hpersists := persists_buildSink w (handlerComponent name) e.kind s
  rw [hsink] at hpersists
  have hstands : Wiring.Stands { w with listeners } d s₀ s₁ := by
    -- A sink that is built changes the listeners alone, which do not matter to what stands.
    obtain ⟨hold, hfilters, hnamed⟩ := h.persist hpersists
    exact ⟨hold, hfilters, hnamed⟩
  rcases hcases with ⟨⟨fault, rfl⟩, rfl, rfl⟩ | ⟨rfl, x, hname, rfl, rfl⟩
  · exact ⟨hstands, nofun⟩
  · have hadded := hstands.persist (.addHandler s₁ x)
    refine ⟨⟨hadded.persists, hadded.filters, fun k i hi => ?_⟩, fun _ k => ?_⟩
    · rw [Table.get?_insert] at hi
      split at hi
      · next hk =>
        cases hi
        exact ⟨hstands.persists.size_handlers, x, Array.getElem?_push_size,
          hname.trans (congrArg some hk.symm)⟩
      · exact hadded.handlers k i hi
    · rw [Table.get?_insert]
      split
      · next hk => simp [hk]
      · next hk => simp [hk]

/-- Handlers that are built one after the other. -/
theorem buildHandlers_stands (entries : List (String × HandlerEntry)) (h : w.Stands d s₀ s)
    {result : Except LogError Unit} (hrun : Wiring.buildHandlers entries w s = (result, w', s')) :
    w'.Stands d s₀ s' ∧ (result = .ok () →
      ∀ k, (w'.handlers.get? k).isSome ↔ (w.handlers.get? k).isSome ∨ k ∈ Table.keys entries) := by
  induction entries generalizing w s with
  | nil =>
    cases hrun
    exact ⟨h, fun _ k => by simp [Table.keys]⟩
  | cons head rest ih =>
    obtain ⟨name, e⟩ := head
    unfold Wiring.buildHandlers at hrun
    rcases hone : w.buildHandler name e s with ⟨r, w₁, s₁⟩
    rw [hone] at hrun
    obtain ⟨hstands, hkeys⟩ := buildHandler_stands h name e hone
    -- The first failure ends the run with what stands so far.
    cases r with
    | error fault =>
      cases hrun
      exact ⟨hstands, fun heq => by cases heq⟩
    | ok =>
      obtain ⟨hstands', hkeys'⟩ := ih hstands hrun
      refine ⟨hstands', fun hok k => ?_⟩
      rw [hkeys' hok, hkeys rfl, or_assoc]
      simp [Table.keys]

/-- Those that do not have to wait are built, and the others are told. -/
theorem buildReady_stands (entries : List (String × HandlerEntry)) (h : w.Stands d s₀ s)
    {result : Except LogError (List (String × HandlerEntry))}
    (hrun : Wiring.buildReady entries w s = (result, w', s')) :
    w'.Stands d s₀ s' ∧ ∀ deferred, result = .ok deferred →
      ∀ k, (w'.handlers.get? k).isSome ∨ k ∈ Table.keys deferred ↔
        (w.handlers.get? k).isSome ∨ k ∈ Table.keys entries := by
  induction entries generalizing w s w' s' result with
  | nil =>
    cases hrun
    refine ⟨h, fun deferred heq k => ?_⟩
    cases heq
    rfl
  | cons head rest ih =>
    obtain ⟨name, e⟩ := head
    unfold Wiring.buildReady at hrun
    split at hrun
    · -- A handler that waits is passed on, so its name is among the deferred ones.
      rcases hrest : Wiring.buildReady rest w s with ⟨r, w₁, s₁⟩
      rw [hrest] at hrun
      obtain ⟨hstands, hkeys⟩ := ih h hrest
      cases r with
      | error fault =>
        cases hrun
        exact ⟨hstands, fun _ heq => by cases heq⟩
      | ok later =>
        cases hrun
        refine ⟨hstands, fun deferred heq k => ?_⟩
        cases heq
        have hrest := hkeys later rfl k
        simp only [Table.keys, List.map_cons, List.mem_cons] at hrest ⊢
        rw [or_left_comm, hrest, or_left_comm]
    · rcases hone : w.buildHandler name e s with ⟨r, w₁, s₁⟩
      rw [hone] at hrun
      obtain ⟨hstands, hkeys⟩ := buildHandler_stands h name e hone
      cases r with
      | error fault =>
        cases hrun
        exact ⟨hstands, fun _ heq => by cases heq⟩
      | ok =>
        obtain ⟨hstands', hkeys'⟩ := ih hstands hrun
        refine ⟨hstands', fun deferred heq k => ?_⟩
        rw [hkeys' deferred heq, hkeys rfl, or_assoc]
        simp [Table.keys]

/-- **Built**: what stands is all that the document names. -/
structure Wiring.Built (w : Wiring) (d : Document) (s₀ s : Store) : Prop
    extends w.Stands d s₀ s where
  complete : ∀ k, (w.handlers.get? k).isSome ↔ k ∈ d.handlers.keys

theorem Wiring.Built.persist (h : w.Built d s₀ s) (hs : s.Persists s') : w.Built d s₀ s' :=
  ⟨h.toStands.persist hs, h.complete⟩

/-- The filters under names are those of the document. -/
theorem Wiring.Built.isSome_filters (h : w.Built d s₀ s) (k : String) :
    (w.filters.get? k).isSome ↔ k ∈ d.filters.keys := by
  rw [Table.isSome_get?_iff, h.filters.keys]

/-- **What comes of building a document**: the store persists, and if nothing failed,
    everything that the document names has been built. -/
theorem build_spec (d : Document) (s : Store) {result : Except LogError Unit}
    (hrun : d.build s = (result, w, s')) :
    s.Persists s' ∧ (result = .ok () → w.Built d s s') := by
  unfold Document.build at hrun
  split at hrun
  · cases hrun
    exact ⟨.refl _, fun heq => by cases heq⟩
  · next formatters _ =>
    obtain ⟨hpersists, hfilters⟩ := buildFilters_spec d.filters s
    have hstart : Wiring.Stands { formatters, filters := (buildFilters d.filters s).1 } d s
        (buildFilters d.filters s).2 := ⟨hpersists, hfilters, fun k h hh => by cases hh⟩
    dsimp only at hrun
    -- Two passes: those that are ready, then those that had to wait for another.
    unfold Wiring.buildAll at hrun
    split at hrun
    · next hready =>
      cases hrun
      exact ⟨(buildReady_stands d.handlers hstart hready).1.persists, fun heq => by cases heq⟩
    · next deferred w₁ s₁ hready =>
      obtain ⟨hstands, hkeys⟩ := buildReady_stands d.handlers hstart hready
      obtain ⟨hstands', hkeys'⟩ := buildHandlers_stands deferred hstands hrun
      refine ⟨hstands'.persists, fun hok => ⟨hstands', fun k => ?_⟩⟩
      rw [hkeys' hok, hkeys deferred rfl]
      simp [Table.get?]

/-- What a document is built into has the filters of the document. -/
theorem build_filters (h : d.build s = (.ok (), w, s')) : w.filters.keys = d.filters.keys :=
  ((build_spec d s h).2 rfl).filters.keys

end Logbook.Configuration
