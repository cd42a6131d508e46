import Logbook.Proofs.Configuration.Sections

/-! # Handlers, one after the other

    When files can be opened and formatters and filters are known, a handler can fail to
    be built for one reason: it refers to a handler that is not built yet.  So of handlers
    that are built in some order either each one refers to handlers before it, and all are
    built, or the first that does not fails with the first such reference.

    A handler that has been built gets the next place of the store.  What it refers to are
    the handlers that stand under those names, then and later, because a name is given
    once.
-/

namespace Logbook.Configuration

variable {w w' : Wiring} {s s' : Store} {others : Nat} {name : String} {e : HandlerEntry}
  {k : HandlerKind} {world world' : World} {entries done : List (String × HandlerEntry)}

/-! ## Everything but the references -/

/-- The world after the file of a handler has been opened, if that goes well; handlers
    without a file leave it as it is. -/
def HandlerKind.open? (k : HandlerKind) (world : World) : Option World :=
  match k.fileOptions? with
  | none => some world
  | some (.error _) => none
  | some (.ok o) =>
    match FileSink.build o world with
    | (.error _, _) => none
    | (.ok _, world) => some world

/-- The files of handlers can be opened one after the other. -/
def FilesOpen : List (String × HandlerEntry) → World → Prop
  | [], _ => True
  | (_, e) :: rest, world => ∃ world', e.kind.open? world = some world' ∧ FilesOpen rest world'

/-- The formatter and the filters of a handler are known. -/
structure Wiring.Equips (w : Wiring) (e : HandlerEntry) : Prop where
  formatter : ∀ n ∈ e.formatter?, n ∈ w.formatters.keys
  filters : ∀ n ∈ e.filters, n ∈ w.filters.keys

/-- A handler that refers to others has no file. -/
theorem HandlerKind.open?_of_references (h : k.references ≠ []) (world : World) :
    k.open? world = some world := by
  unfold open?
  cases k <;> first | rfl | exact absurd rfl h

/-! ## The sink -/

/-- **Wired**: the sink of a handler is made for the handlers under the names that the entry
    refers to. -/
def HandlerKind.Wired (k : HandlerKind) (handlers : Table HandlerId) (listeners : List Listener)
    (sink : Sink) : Prop :=
  match k with
  | .memory _ _ target? _ =>
    ∃ m, sink = .memory m ∧ m.target?.map some = target?.map handlers.get?
  | .queue _ names _ =>
    ∃ queue, sink = .queue { queue } ∧
      ∃ l ∈ listeners, l.queue = queue ∧ l.handlers.map some = names.map handlers.get?
  | _ => True

/-- A sink stays wired when other names and other listeners come. -/
theorem HandlerKind.Wired.mono {handlers handlers' : Table HandlerId}
    {listeners listeners' : List Listener} {sink : Sink} (h : k.Wired handlers listeners sink)
    (hkept : ∀ n i, handlers.get? n = some i → handlers'.get? n = some i)
    (hlisteners : listeners ⊆ listeners') : k.Wired handlers' listeners' sink := by
  cases k with
  | memory capacity flushLevel? target? flushOnClose =>
    obtain ⟨m, rfl, htarget⟩ := h
    refine ⟨m, rfl, ?_⟩
    cases target? with
    | none => exact htarget
    | some target =>
      obtain ⟨i, hi, hfound⟩ := Option.map_eq_some_iff.mp htarget
      rw [hi, Option.map_some, Option.map_some, hkept target i hfound.symm]
  | queue capacity? names respectLevels =>
    obtain ⟨queue, rfl, l, hl, hqueue, hhandlers⟩ := h
    refine ⟨queue, rfl, l, hlisteners hl, hqueue, ?_⟩
    rw [hhandlers]
    -- Each of the names stood for a handler, so it still stands for that one.
    refine List.map_congr_left fun n hn => ?_
    have hfound : handlers.get? n ∈ l.handlers.map some := by
      rw [hhandlers]
      exact List.mem_map_of_mem hn
    obtain ⟨i, -, hi⟩ := List.mem_map.mp hfound
    rw [hkept n i hi.symm, hi]
  | _ => trivial

/-- Names that are all known, and what they stand for. -/
theorem map_get?_of_lookupAll {α : Type} {what component : String} {t : Table α}
    {names : List String} {as : List α} (h : lookupAll what component t names = .ok as) :
    (∀ n ∈ names, n ∈ t.keys) ∧ as.map some = names.map t.get? := by
  obtain ⟨hknown, rfl⟩ := lookupAll_ok h
  refine ⟨fun n hn => Table.isSome_get?_iff.mp (hknown n hn), ?_⟩
  clear h
  induction names with
  | nil => rfl
  | cons n names ih =>
    obtain ⟨a, ha⟩ := Option.isSome_iff_exists.mp (hknown n List.mem_cons_self)
    rw [List.filterMap_cons_some ha, List.map_cons, List.map_cons, ha,
      ih fun m hm => hknown m (List.mem_cons_of_mem _ hm)]

/-- A file that can be opened is opened. -/
theorem buildFile_ok {o : Except LogError FileSinkOptions} (ho : k.fileOptions? = some o)
    (hopen : k.open? s.world = some world) (component : String) :
    ∃ sink, buildFile component o s = (.ok sink, { s with world }) := by
  unfold HandlerKind.open? at hopen
  rw [ho] at hopen
  cases o with
  | error fault => cases hopen
  | ok o =>
    dsimp only at hopen
    unfold buildFile
    rcases hbuild : FileSink.build o s.world with ⟨_ | sink, world'⟩
    · rw [hbuild] at hopen
      cases hopen
    · rw [hbuild] at hopen
      obtain rfl := Option.some.inj hopen
      exact ⟨.file sink, by dsimp only; rw [hbuild]⟩

/-- The sink of a kind of handler is built, with all that it refers to. -/
def Wiring.Builds (w : Wiring) (component : String) (k : HandlerKind) (s : Store)
    (world : World) : Prop :=
  ∃ sink listeners s', w.buildSink component k s = (.ok sink, { w with listeners }, s') ∧
    (∀ r ∈ k.references, r ∈ w.handlers.keys) ∧ w.listeners ⊆ listeners ∧
    s'.handlers = s.handlers ∧ s'.world = world ∧ k.Wired w.handlers listeners sink

/-- A sink that refers to nothing has all that it refers to. -/
theorem Wiring.Builds.alone {component : String} {sink : Sink} (hreferences : k.references = [])
    (hwired : ∀ handlers listeners sink, k.Wired handlers listeners sink)
    (hrun : w.buildSink component k s = (.ok sink, w, s')) (hhandlers : s'.handlers = s.handlers)
    (hworld : s'.world = world) : w.Builds component k s world := by
  refine ⟨sink, w.listeners, s', hrun, ?_, List.Subset.refl _, hhandlers, hworld, hwired _ _ _⟩
  rw [hreferences]
  exact fun r hr => absurd hr List.not_mem_nil

/-- A sink that writes to a file of its own. -/
theorem Wiring.builds_file {component : String} {o : Except LogError FileSinkOptions}
    (ho : k.fileOptions? = some o) (hopen : k.open? s.world = some world) (hreferences : k.references = [])
    (hwired : ∀ handlers listeners sink, k.Wired handlers listeners sink)
    (hrun : w.buildSink component k s =
      ((buildFile component o s).1, w, (buildFile component o s).2)) :
    w.Builds component k s world := by
  obtain ⟨sink, hsink⟩ := buildFile_ok ho hopen component
  rw [hsink] at hrun
  exact .alone hreferences hwired hrun rfl rfl

/-- A memory sink is built if its target is there. -/
theorem Wiring.builds_memory (w : Wiring) (component : String) (s : Store) (capacity : Nat)
    (flushLevel? : Option Level) (target? : Option String) (flushOnClose : Bool) :
    w.Builds component (.memory capacity flushLevel? target? flushOnClose) s s.world ∨
      ∃ fault, w.buildSink component (.memory capacity flushLevel? target? flushOnClose) s =
        (.error fault, w, s) ∧
        FirstUnknown "handler" component w.handlers.keys target?.toList fault := by
  have hreferences : (HandlerKind.memory capacity flushLevel? target? flushOnClose).references =
      target?.toList := by
    cases target? <;> rfl
  unfold Wiring.Builds Wiring.buildSink
  rw [hreferences]
  cases hlook : w.handlersNamed component target?.toList with
  | error fault => exact .inr ⟨fault, by dsimp only; rw [hlook], lookupAll_error hlook⟩
  | ok targets =>
    obtain ⟨hknown, htargets⟩ := map_get?_of_lookupAll hlook
    refine .inl ⟨_, w.listeners, s, by dsimp only; rw [hlook], hknown, List.Subset.refl _, rfl,
      rfl, _, rfl, ?_⟩
    cases target? with
    | none =>
      obtain rfl : targets = [] := List.map_eq_nil_iff.mp htargets
      rfl
    | some target =>
      obtain ⟨i, rest, rfl, hi, -⟩ := List.map_eq_cons_iff.mp htargets
      exact congrArg some hi

/-- A queue sink is built, with a listener, if the handlers of the listener are there. -/
theorem Wiring.builds_queue (w : Wiring) (component : String) (s : Store)
    (capacity? : Option Nat) (names : List String) (respectLevels : Bool) :
    w.Builds component (.queue capacity? names respectLevels) s s.world ∨
      ∃ fault, w.buildSink component (.queue capacity? names respectLevels) s =
        (.error fault, w, s) ∧
        FirstUnknown "handler" component w.handlers.keys names fault := by
  unfold Wiring.Builds Wiring.buildSink
  cases hlook : w.handlersNamed component names with
  | error fault => exact .inr ⟨fault, by dsimp only; rw [hlook], lookupAll_error hlook⟩
  | ok targets =>
    obtain ⟨hknown, htargets⟩ := map_get?_of_lookupAll hlook
    let listener : Listener :=
      { queue := s.queues.size, handlers := targets, respectsLevel := respectLevels,
        worker := .listening }
    refine .inl ⟨.queue { queue := s.queues.size }, w.listeners ++ [listener],
      (s.addQueue { capacity? }).2, by dsimp only; rw [hlook]; rfl, hknown,
      List.subset_append_left _ _, rfl, rfl, ?_⟩
    exact ⟨_, rfl, listener, List.mem_append_right _ List.mem_cons_self, rfl, htargets⟩

/-- **The sink of a handler** whose file can be opened is built exactly if all that it refers
    to is there. -/
theorem buildSink_spec (w : Wiring) (component : String) (hopen : k.open? s.world = some world) :
    w.Builds component k s world ∨
    ∃ fault w' s', w.buildSink component k s = (.error fault, w', s') ∧
      FirstUnknown "handler" component w.handlers.keys k.references fault := by
  cases k with
  | stream target =>
    exact .inl (.alone rfl (fun _ _ _ => trivial) rfl rfl (Option.some.inj hopen))
  | null => exact .inl (.alone rfl (fun _ _ _ => trivial) rfl rfl (Option.some.inj hopen))
  | socket host port =>
    exact .inl (.alone rfl (fun _ _ _ => trivial) rfl rfl (Option.some.inj hopen))
  | file path mode delay =>
    exact .inl (Wiring.builds_file rfl hopen rfl (fun _ _ _ => trivial) rfl)
  | watchedFile path mode delay =>
    exact .inl (Wiring.builds_file rfl hopen rfl (fun _ _ _ => trivial) rfl)
  | rotatingFile path maxBytes backups delay compress =>
    exact .inl (Wiring.builds_file rfl hopen rfl (fun _ _ _ => trivial) rfl)
  | timedRotatingFile path period count backups utc atTime? delay compress =>
    exact .inl (Wiring.builds_file rfl hopen rfl (fun _ _ _ => trivial) rfl)
  | memory capacity flushLevel? target? flushOnClose =>
    -- Memories and queues look up what they refer to, and have no file.
    obtain rfl := Option.some.inj hopen
    refine (w.builds_memory component s capacity flushLevel? target? flushOnClose).imp_right ?_
    rintro ⟨fault, hrun, hunknown⟩
    refine ⟨fault, w, s, hrun, ?_⟩
    cases target? <;> exact hunknown
  | queue capacity? names respectLevels =>
    obtain rfl := Option.some.inj hopen
    refine (w.builds_queue component s capacity? names respectLevels).imp_right ?_
    rintro ⟨fault, hrun, hunknown⟩
    exact ⟨fault, w, s, hrun, hunknown⟩

/-! ## One handler -/

/-- Formatters that are known are found. -/
theorem formatterNamed_ok (hknown : ∀ n ∈ e.formatter?, n ∈ w.formatters.keys)
    (component : String) :
    ∃ formatter?, w.formatterNamed component e.formatter? = .ok formatter? := by
  cases hf : e.formatter? with
  | none => exact ⟨none, rfl⟩
  | some n =>
    obtain ⟨f, hfound⟩ := Option.isSome_iff_exists.mp (Table.isSome_get?_iff.mpr (hknown n hf))
    exact ⟨some f, by rw [Wiring.formatterNamed, hfound]⟩

/-- Names that are known are found. -/
theorem exists_lookupAll {α : Type} {t : Table α} {names : List String}
    (hknown : ∀ n ∈ names, n ∈ t.keys) (what component : String) :
    ∃ as, lookupAll what component t names = .ok as := by
  cases hlook : lookupAll what component t names with
  | ok as => exact ⟨as, rfl⟩
  | error fault =>
    obtain ⟨before, n, after, rfl, -, hunknown, -⟩ := lookupAll_error hlook
    exact absurd (hknown n (List.mem_append_right _ List.mem_cons_self)) hunknown

/-- A handler that is built gets a place under its name, besides those that stood before. -/
theorem buildHandler_handlers (hrun : w.buildHandler name e s = (.ok (), w', s')) :
    ∃ h, w'.handlers = w.handlers.insert name h := by
  obtain ⟨_, listeners, s₁, -, ⟨⟨_, heq⟩, -⟩ | ⟨-, x, -, -, rfl⟩⟩ := buildHandler_cases hrun
  · cases heq
  · exact ⟨_, rfl⟩

/-- **One handler** that lacks nothing but perhaps references is built exactly if all that it
    refers to is there.  It gets the next place of the store. -/
theorem buildHandler_spec (hequips : w.Equips e) (hopen : e.kind.open? s.world = some world)
    (name : String) :
    (∃ listeners x s',
      w.buildHandler name e s =
        (.ok (), { w with listeners, handlers := w.handlers.insert name s.handlers.size }, s') ∧
      (∀ r ∈ e.kind.references, r ∈ w.handlers.keys) ∧ w.listeners ⊆ listeners ∧
      s'.handlers = s.handlers.push x ∧ s'.world = world ∧ x.name? = some name ∧
      e.kind.Wired w.handlers listeners x.sink) ∨
    ∃ fault w' s', w.buildHandler name e s = (.error fault, w', s') ∧
      FirstUnknown "handler" (handlerComponent name) w.handlers.keys e.kind.references fault := by
  unfold Wiring.buildHandler
  dsimp only
  rcases buildSink_spec w (handlerComponent name) hopen with
    ⟨sink, listeners, s₁, hsink, hknown, hlisteners, hhandlers, hworld, hwired⟩ |
      ⟨fault, w₁, s₁, hsink, hunknown⟩
  · -- The sink may have added a listener; formatters and filters are as they were.
    obtain ⟨formatter?, hformatter⟩ :=
      formatterNamed_ok (w := { w with listeners }) hequips.formatter (handlerComponent name)
    obtain ⟨filters, hfilters⟩ := exists_lookupAll hequips.filters "filter" (handlerComponent name)
    let x : Handler :=
      { sink, name? := some name, level := e.level?.getD Level.notset, formatter?,
        filters := filters.foldl Handler.adjoin [] }
    refine .inl ⟨listeners, x, (s₁.addHandler x).2, ?_, hknown, hlisteners,
      congrArg (Array.push · x) hhandlers, hworld, rfl, hwired⟩
    rw [hsink]
    dsimp only
    rw [hformatter]
    dsimp only
    rw [Wiring.filtersNamed, hfilters, ← hhandlers]
    rfl
  · rw [hsink]
    exact .inr ⟨fault, w₁, s₁, rfl, hunknown⟩

/-! ## One after the other -/

/-- **Holds**: a wiring in which some handlers have been built, one after the other, since
    there were a number of others in the store. -/
structure Wiring.Holds (w : Wiring) (others : Nat) (done : List (String × HandlerEntry))
    (s : Store) : Prop where
  size : s.handlers.size = others + done.length
  names : ∀ n, n ∈ w.handlers.keys ↔ n ∈ Table.keys done
  /-- Each one has a place of its own, under its name, and is wired. -/
  built : ∀ i p, done[i]? = some p →
    w.handlers.get? p.1 = some (others + i) ∧
      ∃ x, s.handlers[others + i]? = some x ∧ x.name? = some p.1 ∧
        p.2.kind.Wired w.handlers w.listeners x.sink

/-- Nothing has been built yet. -/
theorem Wiring.Holds.nil (h : w.handlers = []) (s : Store) : w.Holds s.handlers.size [] s :=
  ⟨rfl, fun n => by rw [h]; rfl, fun i p hi => by cases hi⟩

/-- One more handler has been built, under a new name. -/
theorem Wiring.Holds.snoc (h : w.Holds others done s) (hnew : name ∉ Table.keys done)
    {listeners : List Listener} {x : Handler} (hlisteners : w.listeners ⊆ listeners)
    (hhandlers : s'.handlers = s.handlers.push x) (hname : x.name? = some name)
    (hwired : e.kind.Wired w.handlers listeners x.sink) :
    Wiring.Holds { w with listeners, handlers := w.handlers.insert name s.handlers.size } others
      (done ++ [(name, e)]) s' := by
  -- The name is new, so the names that were there stand for what they stood for.
  have hfresh : ∀ n i, w.handlers.get? n = some i → n ≠ name := by
    rintro n i hi rfl
    exact hnew ((h.names n).mp (Table.isSome_get?_iff.mp (by rw [hi]; rfl)))
  have hkept : ∀ n i, w.handlers.get? n = some i →
      (w.handlers.insert name s.handlers.size).get? n = some i := by
    intro n i hi
    rw [Table.get?_insert_of_ne _ _ (hfresh n i hi), hi]
  refine ⟨?_, fun n => ?_, fun i p hp => ?_⟩
  · rw [hhandlers, Array.size_push, h.size, List.length_append, List.length_singleton,
      Nat.add_assoc]
  · rw [← Table.isSome_get?_iff, Table.get?_insert]
    have hn := h.names n
    rw [← Table.isSome_get?_iff] at hn
    by_cases heq : n = name
    · simp [heq, Table.keys]
    · simpa [heq, Table.keys] using hn
  · rw [List.getElem?_append] at hp
    split at hp
    · next hi =>
      obtain ⟨hfound, x', hx', hname', hwired'⟩ := h.built i p hp
      have hlt : others + i < s.handlers.size := by
        rw [h.size]
        omega
      refine ⟨hkept _ _ hfound, x', ?_, hname', hwired'.mono hkept hlisteners⟩
      rw [hhandlers, Array.getElem?_push_lt hlt, ← hx', Array.getElem?_eq_getElem hlt]
    · next hi =>
      obtain ⟨hi', rfl⟩ : i - done.length = 0 ∧ p = (name, e) := by
        rw [List.getElem?_singleton] at hp
        split at hp
        · next hzero => exact ⟨hzero, (Option.some.inj hp).symm⟩
        · cases hp
      have hsize : others + i = s.handlers.size := by
        rw [h.size]
        omega
      rw [hsize]
      refine ⟨Table.get?_insert_self _ _ _, x, ?_, hname, hwired.mono hkept (List.Subset.refl _)⟩
      rw [hhandlers, Array.getElem?_push_size]

/-- What is known matters by its members. -/
theorem FirstUnknown.congr {what component : String} {known known' names : List String}
    {fault : LogError} (h : FirstUnknown what component known names fault)
    (heq : ∀ n, n ∈ known ↔ n ∈ known') : FirstUnknown what component known' names fault := by
  obtain ⟨before, n, after, hnames, hbefore, hn, hfault⟩ := h
  exact ⟨before, n, after, hnames, fun p hp => (heq p).mp (hbefore p hp), mt (heq n).mpr hn, hfault⟩

/-- **Supplied**: handlers in an order in which each refers to those before it alone. -/
def Supplied : List (String × HandlerEntry) → List (String × HandlerEntry) → Prop
  | _, [] => True
  | done, p :: rest =>
    (∀ r ∈ p.2.kind.references, r ∈ Table.keys done) ∧ Supplied (done ++ [p]) rest

theorem supplied_iff :
    Supplied done entries ↔ ∀ before p after, entries = before ++ p :: after →
      ∀ r ∈ p.2.kind.references, r ∈ Table.keys (done ++ before) := by
  induction entries generalizing done with
  | nil => simp [Supplied]
  | cons q rest ih =>
    rw [Supplied, ih]
    constructor
    · rintro ⟨hq, hrest⟩ before p after heq r hr
      cases before with
      | nil =>
        obtain ⟨rfl, rfl⟩ := List.cons.inj heq
        rw [List.append_nil]
        exact hq r hr
      | cons q' before =>
        obtain ⟨rfl, rfl⟩ := List.cons.inj heq
        simpa using hrest before p after rfl r hr
    · intro hall
      refine ⟨fun r hr => by simpa using hall [] q rest rfl r hr, fun before p after heq r hr => ?_⟩
      simpa using hall (q :: before) p after (by rw [heq]; rfl) r hr

/-- **Handlers that are built one after the other** and lack nothing but perhaps references:
    all of them are built if each refers to handlers before it, and else the first that does
    not fails with its first such reference. -/
theorem buildHandlers_spec (hw : w.Holds others done s)
    (hdistinct : (Table.keys (done ++ entries)).Nodup) (hequips : ∀ p ∈ entries, w.Equips p.2)
    (hopen : FilesOpen entries s.world) :
    (∃ w' s', Wiring.buildHandlers entries w s = (.ok (), w', s') ∧
      w'.Holds others (done ++ entries) s' ∧ Supplied done entries) ∨
    ∃ fault w' s', Wiring.buildHandlers entries w s = (.error fault, w', s') ∧
      ∃ before p after, entries = before ++ p :: after ∧ Supplied done before ∧
        FirstUnknown "handler" (handlerComponent p.1) (Table.keys (done ++ before))
          p.2.kind.references fault := by
  induction entries generalizing w s done with
  | nil => exact .inl ⟨w, s, rfl, by rwa [List.append_nil], trivial⟩
  | cons head rest ih =>
    obtain ⟨name, e⟩ := head
    obtain ⟨world, hworld, hrest⟩ := hopen
    have hsnoc : done ++ (name, e) :: rest = (done ++ [(name, e)]) ++ rest := by simp
    have hnew : name ∉ Table.keys done := by
      intro hin
      rw [Table.keys, List.map_append, List.nodup_append] at hdistinct
      exact hdistinct.2.2 name hin name List.mem_cons_self rfl
    unfold Wiring.buildHandlers
    rcases buildHandler_spec (hequips _ List.mem_cons_self) hworld name with
      ⟨listeners, x, s₁, hrun, hknown, hlisteners, hhandlers, hworld₁, hname, hwired⟩ |
        ⟨fault, w₁, s₁, hrun, hunknown⟩
    · rw [hrun]
      -- What the others lack is not changed by it, and its file is open: they go on from here.
      have hholds := hw.snoc hnew hlisteners hhandlers hname hwired
      have hequips' : ∀ p ∈ rest, Wiring.Equips
          { w with listeners, handlers := w.handlers.insert name s.handlers.size } p.2 := by
        intro p hp
        obtain ⟨hformatter, hfilters⟩ := hequips p (List.mem_cons_of_mem _ hp)
        exact ⟨hformatter, hfilters⟩
      have hhead : ∀ r ∈ e.kind.references, r ∈ Table.keys done :=
        fun r hr => (hw.names r).mp (hknown r hr)
      rcases ih hholds (hsnoc ▸ hdistinct) hequips' (hworld₁ ▸ hrest) with
        ⟨w', s', hrun', hholds', hsupplied⟩ |
          ⟨fault, w', s', hrun', before, p, after, heq, hsupplied, hunknown⟩
      · exact .inl ⟨w', s', hrun', hsnoc ▸ hholds', hhead, hsupplied⟩
      · refine .inr ⟨fault, w', s', hrun', (name, e) :: before, p, after, by rw [heq]; rfl,
          ⟨hhead, hsupplied⟩, ?_⟩
        simpa using hunknown
    · rw [hrun]
      refine .inr ⟨fault, w₁, s₁, rfl, [], (name, e), rest, rfl, trivial, ?_⟩
      refine hunknown.congr fun n => ?_
      rw [List.append_nil, hw.names]

end Logbook.Configuration
