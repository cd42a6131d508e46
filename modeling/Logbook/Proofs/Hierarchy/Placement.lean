import Logbook.Proofs.Hierarchy.Registered
import Mathlib.Data.List.Sort

/-! # The place of a logger

    As long as nobody sets a parent, every logger hangs below the registered
    logger with the longest name above its own, whatever the order was in which
    the loggers were made.  A new logger takes the loggers under it that hung
    from farther up: those waited for its name.  What already hung from a longer
    name stays there.
-/

namespace Logbook.Registry

variable {g g' : Registry} {i j p p' : LoggerId} {name n k : String}
  {steps : List (Registry × Call)}

/-! ## Nearest loggers -/

/-- The nearest logger depends on what the names above stand for. -/
theorem Nearest.of_above (h : g.Nearest n p)
    (hcalled : ∀ q, NameAbove q n → g'.loggerCalled? q = g.loggerCalled? q) : g'.Nearest n p := by
  rcases h with ⟨q, hq, habove, hlongest⟩ | ⟨rfl, hnone⟩
  · refine .inl ⟨q, (hcalled q habove).trans hq, habove, fun q' hq' habove' => ?_⟩
    rw [hcalled q' habove'] at hq'
    exact hlongest q' hq' habove'
  · exact .inr ⟨rfl, fun q hq => (hcalled q hq).trans (hnone q hq)⟩

/-- A new logger that is not above a name changes nothing for it. -/
theorem Created.nearest_of_not_above (h : Created g g' name) (hnear : g.Nearest n p)
    (hname : ¬ NameAbove name n) : g'.Nearest n p := by
  refine hnear.of_above fun q hq => ?_
  rw [h.loggerCalled?_eq, if_neg]
  rintro rfl
  exact hname hq

/-- Below a new logger the nearest one is the new one, unless the nearest so far
    hangs below the new one itself. -/
theorem Created.nearest_of_above (h : Created g g' name) (hnear : g.Nearest n p)
    (hname : NameAbove name n) (hfresh : g.loggerCalled? name = none) :
    (∃ q, g.loggerCalled? q = some p ∧ NameAbove name q ∧ g'.Nearest n p) ∨
    (∀ q, NameAbove q n → name.length < q.length → g.loggerCalled? q = none) ∧
      g'.Nearest n g.loggers.size := by
  have hself : g'.loggerCalled? name = some g.loggers.size := by
    rw [h.loggerCalled?_eq, if_pos rfl]
  have hold : ∀ q, q ≠ name → g'.loggerCalled? q = g.loggerCalled? q := fun q hq => by
    rw [h.loggerCalled?_eq, if_neg hq]
  -- The new logger is the nearest if no registered name above is longer.
  have hnew : (∀ q, NameAbove q n → name.length < q.length → g.loggerCalled? q = none) →
      g'.Nearest n g.loggers.size := by
    intro hnone
    refine .inl ⟨name, hself, hname, fun q hq habove => ?_⟩
    by_contra hlen
    have hlt : name.length < q.length := Nat.lt_of_not_le hlen
    rw [hold q (by rintro rfl; exact Nat.lt_irrefl _ hlt), hnone q habove hlt] at hq
    cases hq
  rcases hnear with ⟨q, hq, habove, hlongest⟩ | ⟨rfl, hnone⟩
  · -- Names above one name form a chain: the lengths say which of two is nearer.
    by_cases hlen : name.length < q.length
    · refine .inl ⟨q, hq, hname.of_length_lt habove hlen, .inl ⟨q, ?_, habove, ?_⟩⟩
      · rwa [hold q (by rintro rfl; exact Nat.lt_irrefl _ hlen)]
      · intro q' hq' habove'
        by_cases heq : q' = name
        · exact heq ▸ Nat.le_of_lt hlen
        · rw [hold q' heq] at hq'
          exact hlongest q' hq' habove'
    · have hnone : ∀ q', NameAbove q' n → name.length < q'.length → g.loggerCalled? q' = none := by
        intro q' habove' hlt
        by_contra hsome
        have hle := hlongest q' (Option.isSome_iff_ne_none.mpr hsome) habove'
        exact hlen (Nat.lt_of_lt_of_le hlt hle)
      exact .inr ⟨hnone, hnew hnone⟩
  · have hnone' : ∀ q, NameAbove q n → name.length < q.length → g.loggerCalled? q = none :=
      fun q hq _ => hnone q hq
    exact .inr ⟨hnone', hnew hnone'⟩

/-- Nearest loggers depend on the names only. -/
theorem Nearest.congr (h : g.Nearest n p) (hnodes : g'.nodes = g.nodes) : g'.Nearest n p := by
  have hcalled := loggerCalled?_congr hnodes
  simpa only [Nearest, hcalled] using h

/-- Registries with the same registered names agree on the name of the nearest
    logger. -/
theorem Nearest.name_eq (hreg : g.Registered) (hreg' : g'.Registered) (h : g.Nearest n p)
    (h' : g'.Nearest n p')
    (hsame : ∀ k, (g.loggerCalled? k).isSome ↔ (g'.loggerCalled? k).isSome) :
    (g.logger p).name = (g'.logger p').name := by
  rcases h with ⟨q, hq, habove, hlongest⟩ | ⟨rfl, hnone⟩ <;>
    rcases h' with ⟨q', hq', habove', hlongest'⟩ | ⟨rfl, hnone'⟩
  · -- Each name is the longest one above `n` in its own registry, and both are in both.
    have hle := hlongest q' ((hsame q').mpr (hq' ▸ rfl)) habove'
    have hle' := hlongest' q ((hsame q).mp (hq ▸ rfl)) habove
    obtain ⟨-, -, hp, -⟩ := hreg.called q p hq
    obtain ⟨-, -, hp', -⟩ := hreg'.called q' p' hq'
    rw [hp, hp', habove.eq_of_length_eq habove' (Nat.le_antisymm hle' hle)]
  · have hsome := (hsame q).mp (hq ▸ rfl)
    rw [hnone' q habove] at hsome
    cases hsome
  · have hsome := (hsame q').mpr (hq' ▸ rfl)
    rw [hnone q' habove'] at hsome
    cases hsome
  · rw [hreg.root_name, hreg'.root_name]

/-! ## Loggers in place -/

/-- **Placed**: every logger but the root hangs below the nearest one. -/
def Placed (g : Registry) : Prop :=
  ∀ i, i < g.loggers.size → i ≠ rootId →
    ∃ p, (g.logger i).parent? = some p ∧ g.Nearest (g.logger i).name p

/-- A new logger finds its place, and takes those under it that belong there. -/
theorem Created.placed (h : Created g g' name) (hwhole : g.Whole) (hreg : g.Registered)
    (hfresh : g.loggerCalled? name = none) (hempty : name ≠ "") (hplaced : g.Placed) :
    g'.Placed := by
  intro i hi hi0
  rcases h.lt_or_eq hi with hlt | rfl
  · obtain ⟨p, hlink, hnear⟩ := hplaced i hlt hi0
    have hne : i ≠ g.loggers.size := Nat.ne_of_lt hlt
    have hparent : g.parent? i = some p := (hwhole.parent?_eq i).trans hlink
    rw [h.view_eq Logger.name (fun _ _ => rfl) hne, h.link_eq, if_neg hne]
    by_cases habove : NameAbove name (g.logger i).name
    · rcases h.nearest_of_above hnear habove hfresh with ⟨q, hq, hqabove, hnear'⟩ | ⟨hnone, hnear'⟩
      · -- The parent hangs below the new logger already.
        obtain ⟨-, hp0, hpname, -⟩ := hreg.called q p hq
        rw [if_neg]
        · exact ⟨p, hlink, hnear'⟩
        · rintro ⟨-, hadopts⟩
          obtain ⟨p', hp', hcase⟩ := (adopts_iff hempty).mp hadopts
          rw [hparent] at hp'
          injection hp' with hp'
          subst hp'
          rcases hcase with hroot | ⟨-, hnot⟩
          · exact hp0 hroot
          · exact hnot (hpname.symm ▸ hqabove)
      · rw [if_pos]
        · exact ⟨_, rfl, hnear'⟩
        · -- No registered name lies between, so the logger waits for this one.
          refine ⟨hreg.awaited name i hfresh hlt hi0 habove fun q hq hqi =>
            hnone q hqi hq.length_lt, (adopts_iff hempty).mpr ⟨p, hparent, ?_⟩⟩
          rcases hnear with ⟨q, hq, hqabove, -⟩ | ⟨rfl, -⟩
          · obtain ⟨-, -, hpname, -⟩ := hreg.called q p hq
            right
            rw [hpname]
            constructor
            · rintro rfl
              rw [hfresh] at hq
              cases hq
            · intro hbelow
              rw [hnone q hqabove hbelow.length_lt] at hq
              cases hq
          · exact .inl rfl
    · -- Who waits for a name is below it, so this logger is not touched.
      rw [if_neg fun hadopted => habove (hreg.waits name i hadopted.1).2.2]
      exact ⟨p, hlink, h.nearest_of_not_above hnear habove⟩
  · -- The new logger itself: the walk upwards ended at the nearest.
    rw [h.new]
    exact ⟨_, rfl, h.nearest_of_not_above (g.nearest_above? name) fun habove => habove.ne rfl⟩

/-- A registry in the same tree with its loggers in place has them in place too. -/
theorem SameTree.placed (h : SameTree g g') (hplaced : g.Placed) : g'.Placed := by
  intro i hi hi0
  obtain ⟨p, hlink, hnear⟩ := hplaced i (h.size ▸ hi) hi0
  rw [h.link, h.name]
  exact ⟨p, hlink, hnear.congr h.nodes⟩

/-- As long as no parent is set, every state of a run has its loggers in place. -/
theorem Run.placed (h : Run steps g) (hset : ∀ s ∈ steps, ∀ i p, s.2 ≠ .setParent i p) :
    g.Placed := by
  induction h with
  | new lastResort? =>
    intro i hi hi0
    exact absurd (Nat.lt_one_iff.mp hi) hi0
  | @call steps g c before possible ih =>
    have hplaced : g.Placed := ih fun s hs => hset s (List.mem_append_left _ hs)
    obtain ⟨hwhole, hreg⟩ := before.whole_registered
    -- A call creates a logger, sets a parent or leaves the tree as it is.
    rcases call_cases g c with ⟨name, -, hempty, -, hfresh, heq⟩ | ⟨i, p, hc, -⟩ | hsame
    · rw [heq]
      exact (hreg.created hwhole name).placed hwhole hreg hfresh hempty hplaced
    · exact absurd hc (hset (g, c) (by simp) i p)
    · exact hsame.placed hplaced

/-- Where loggers are placed, the parent of a registered one is the nearest. -/
theorem Placed.nearest_parent (h : g.Placed) (hwhole : g.Whole) (hreg : g.Registered)
    (hn : g.loggerCalled? n = some i) : ∃ p, g.parent? i = some p ∧ g.Nearest n p := by
  obtain ⟨hlt, hi0, hname, -⟩ := hreg.called n i hn
  obtain ⟨p, hlink, hnear⟩ := h i hlt hi0
  exact ⟨p, (hwhole.parent?_eq i).trans hlink, hname ▸ hnear⟩

/-! ## Names that are asked for -/

/-- The registry after a program has asked for the loggers of some names, one
    after the other. -/
def ask (g : Registry) (names : List String) : Registry :=
  names.foldl (fun g name => (g.getLogger name).2) g

/-- A name that stands for a logger of its own: neither empty nor that of the
    root. -/
def Proper (name : String) : Prop := name ≠ "" ∧ name ≠ rootName

instance (name : String) : Decidable (Proper name) := inferInstanceAs (Decidable (_ ∧ _))

/-- The name of the parent of the logger with a name. -/
def parentName? (g : Registry) (name : String) : Option String :=
  (g.loggerCalled? name).bind fun i => (g.parent? i).map fun p => (g.logger p).name

theorem ask_append (g : Registry) (names later : List String) :
    g.ask (names ++ later) = (g.ask names).ask later :=
  List.foldl_append

theorem ask_concat (g : Registry) (names : List String) (name : String) :
    g.ask (names ++ [name]) = ((g.ask names).getLogger name).2 :=
  ask_append g names [name]

/-- To ask for names goes on with a run. -/
theorem Run.ask (h : Run steps g) (names : List String) :
    ∃ more, Run (steps ++ more) (g.ask names) ∧ ∀ s ∈ more, ∃ name, s.2 = .getLogger name := by
  induction names generalizing g steps with
  | nil => exact ⟨[], by simpa [Registry.ask] using h, by simp⟩
  | cons name names ih =>
    obtain ⟨more, hrun, hmore⟩ := ih (h.getLogger name)
    rw [List.append_assoc] at hrun
    refine ⟨(g, .getLogger name) :: more, hrun, fun s hs => ?_⟩
    rcases List.mem_cons.mp hs with rfl | hin
    · exact ⟨name, rfl⟩
    · exact hmore s hin

/-- To ask a new registry for names is a run in which no parent is set. -/
theorem run_ask (lastResort? : Option HandlerId) (names : List String) :
    ∃ steps, Run steps (Registry.ask { lastResort? } names) ∧
      ∀ s ∈ steps, ∀ i p, s.2 ≠ .setParent i p := by
  obtain ⟨steps, hrun, hsteps⟩ := (Run.new lastResort?).ask names
  refine ⟨steps, by simpa using hrun, fun s hs i p hset => ?_⟩
  obtain ⟨name, hname⟩ := hsteps s hs
  rw [hname] at hset
  cases hset

/-- A name that has a logger stands for it, and nothing is made. -/
theorem getLogger_of_called (hreg : g.Registered) (hk : g.loggerCalled? k = some i) :
    g.getLogger k = (i, g) := by
  obtain ⟨-, -, -, hproper⟩ := hreg.called k i hk
  rw [getLogger_eq, if_neg (not_or.mpr hproper), hk]

/-- A proper name stands for the logger that was given for it, and no other name
    changes its logger. -/
theorem loggerCalled?_getLogger (hwhole : g.Whole) (hreg : g.Registered) (name k : String) :
    (g.getLogger name).2.loggerCalled? k =
      if k = name ∧ Proper name then some (g.getLogger name).1 else g.loggerCalled? k := by
  by_cases hname : name = "" ∨ name = rootName
  · rw [getLogger_eq, if_pos hname, if_neg]
    rintro ⟨-, hempty, hroot⟩
    exact hname.elim hempty hroot
  · have hproper : Proper name := not_or.mp hname
    simp only [hproper, and_true]
    cases hcalled : g.loggerCalled? name with
    | some i =>
      rw [getLogger_of_called hreg hcalled]
      split
      · next hk => rw [hk, hcalled]
      · rfl
    | none =>
      rw [getLogger_eq, if_neg hname, hcalled]
      exact (hreg.created hwhole name).loggerCalled?_eq k

/-- A name keeps its logger for ever. -/
theorem loggerCalled?_ask (hrun : Run steps g) (hk : g.loggerCalled? k = some i)
    (names : List String) : (g.ask names).loggerCalled? k = some i := by
  induction names generalizing g steps with
  | nil => exact hk
  | cons name names ih =>
    obtain ⟨hwhole, hreg⟩ := hrun.whole_registered
    refine ih (hrun.getLogger name) ?_
    show (g.getLogger name).2.loggerCalled? k = some i
    -- To ask for the name again gives the logger it has; to ask for another leaves it.
    by_cases hname : k = name
    · subst hname
      rw [getLogger_of_called hreg hk]
      exact hk
    · rw [loggerCalled?_getLogger hwhole hreg, if_neg fun h => hname h.1]
      exact hk

/-- The proper names that were asked for have loggers, and no others. -/
theorem loggerCalled?_isSome_ask_iff (lastResort? : Option HandlerId) (names : List String)
    (k : String) :
    ((ask { lastResort? } names).loggerCalled? k).isSome ↔ k ∈ names ∧ Proper k := by
  -- From the end, since the last name is asked in the registry that the others made.
  induction names using List.reverseRecOn with
  | nil => simp [ask, loggerCalled?, loggerAt?, Table.get?]
  | append_singleton names name ih =>
    obtain ⟨steps, hrun, -⟩ := run_ask lastResort? names
    obtain ⟨hwhole, hreg⟩ := hrun.whole_registered
    rw [ask_concat, loggerCalled?_getLogger hwhole hreg, List.mem_append, List.mem_singleton]
    split
    · next h =>
      obtain ⟨rfl, hproper⟩ := h
      simp [hproper]
    · next h =>
      rw [ih, or_and_right]
      refine (or_iff_left ?_).symm
      rintro ⟨rfl, hproper⟩
      exact h ⟨rfl, hproper⟩

/-- The registered names, as the table has them. -/
theorem Registered.mem_names_iff (h : g.Registered) :
    n ∈ g.names ↔ (g.loggerCalled? n).isSome := by
  rw [names, named, List.mem_map, Option.isSome_iff_exists]
  constructor
  · rintro ⟨⟨name, i⟩, hmem, rfl⟩
    obtain ⟨⟨name', node⟩, hnode, hchoose⟩ := List.mem_filterMap.mp hmem
    cases node with
    | logger i' =>
      injection hchoose with hpair
      injection hpair with hname hi
      subst hname hi
      exact ⟨_, loggerAt?_eq_some_iff.mpr (h.sorted.get?_eq_some_iff.mpr hnode)⟩
    | placeholder _ => cases hchoose
  · rintro ⟨i, hi⟩
    exact ⟨(n, i), List.mem_filterMap.mpr
      ⟨(n, .logger i), Table.mem_of_get? (loggerAt?_eq_some_iff.mp hi), rfl⟩, rfl⟩

/-- The names ascend strictly. -/
theorem Registered.pairwise_names (h : g.Registered) : g.names.Pairwise (· < ·) := by
  refine h.sorted.filterMap_keys _ ?_
  rintro ⟨name, node⟩ q hq
  cases node with
  | logger i =>
    injection hq with hq
    rw [← hq]
  | placeholder _ => cases hq

/-- A proper name stands for a logger of that name once it was asked for. -/
theorem getLogger_of_proper (hrun : Run steps g) (hn : Proper n) :
    (g.getLogger n).2.loggerCalled? n = some (g.getLogger n).1 ∧
      (g.getLogger n).1 ≠ rootId ∧ ((g.getLogger n).2.logger (g.getLogger n).1).name = n := by
  obtain ⟨hwhole, hreg⟩ := hrun.whole_registered
  have hcalled : (g.getLogger n).2.loggerCalled? n = some (g.getLogger n).1 := by
    rw [loggerCalled?_getLogger hwhole hreg, if_pos ⟨rfl, hn⟩]
  obtain ⟨-, hi0, hname, -⟩ := (hrun.getLogger n).whole_registered.2.called n _ hcalled
  exact ⟨hcalled, hi0, hname⟩

/-- Sequences with the same proper names give each logger the same parent. -/
theorem parentName?_ask_eq (lastResort? : Option HandlerId) {names others : List String}
    (hsame : ∀ n, Proper n → (n ∈ others ↔ n ∈ names)) (n : String) :
    (ask { lastResort? } others).parentName? n = (ask { lastResort? } names).parentName? n := by
  obtain ⟨_, hrun, hset⟩ := run_ask lastResort? names
  obtain ⟨_, hrun', hset'⟩ := run_ask lastResort? others
  obtain ⟨hwhole, hreg⟩ := hrun.whole_registered
  obtain ⟨hwhole', hreg'⟩ := hrun'.whole_registered
  have hsome : ∀ k, ((ask { lastResort? } others).loggerCalled? k).isSome ↔
      ((ask { lastResort? } names).loggerCalled? k).isSome := by
    intro k
    rw [loggerCalled?_isSome_ask_iff, loggerCalled?_isSome_ask_iff]
    exact and_congr_left (hsame k)
  -- The loggers may have different places in the two registries, but their names agree.
  unfold parentName?
  cases hi : (ask { lastResort? } names).loggerCalled? n with
  | none =>
    have hnone : (ask { lastResort? } others).loggerCalled? n = none := by
      rw [← Option.not_isSome_iff_eq_none, hsome, hi]
      simp
    rw [hnone]
    rfl
  | some i =>
    obtain ⟨i', hi'⟩ := Option.isSome_iff_exists.mp ((hsome n).mpr (hi ▸ rfl))
    obtain ⟨p, hp, hnear⟩ := (hrun.placed hset).nearest_parent hwhole hreg hi
    obtain ⟨p', hp', hnear'⟩ := (hrun'.placed hset').nearest_parent hwhole' hreg' hi'
    rw [hi']
    simp only [Option.bind_some, hp, hp', Option.map_some]
    rw [hnear'.name_eq hreg' hreg hnear hsome]

/-- **The tree of the names that were asked for.**  A proper name yields one
    logger for ever; the names of the registry are the proper ones that were asked
    for, in ascending order and each once; every logger hangs below the nearest
    one; and the tree is the same for all sequences with the same names. -/
theorem ask_places (lastResort? : Option HandlerId) (names : List String) :
    let g := ask { lastResort? } names
    (∀ n, Proper n →
      (g.getLogger n).1 ≠ rootId ∧
      ((g.getLogger n).2.logger (g.getLogger n).1).name = n ∧
      ∀ later, (((g.getLogger n).2.ask later).getLogger n).1 = (g.getLogger n).1) ∧
    g.names.Pairwise (· < ·) ∧
    (∀ n, n ∈ g.names ↔ n ∈ names ∧ Proper n) ∧
    (∀ n i, g.loggerCalled? n = some i → ∃ p, g.parent? i = some p ∧ g.Nearest n p) ∧
    ∀ others, (∀ n, Proper n → (n ∈ others ↔ n ∈ names)) →
      (ask { lastResort? } others).names = g.names ∧
      ∀ n, (ask { lastResort? } others).parentName? n = g.parentName? n := by
  intro g
  obtain ⟨steps, hrun, hset⟩ := run_ask lastResort? names
  obtain ⟨hwhole, hreg⟩ := hrun.whole_registered
  have hnames : ∀ n, n ∈ g.names ↔ n ∈ names ∧ Proper n := fun n =>
    hreg.mem_names_iff.trans (loggerCalled?_isSome_ask_iff lastResort? names n)
  refine ⟨fun n hn => ?_, hreg.pairwise_names, hnames, fun n i hi =>
    (hrun.placed hset).nearest_parent hwhole hreg hi, fun others hsame => ⟨?_, fun n =>
    parentName?_ask_eq lastResort? hsame n⟩⟩
  · obtain ⟨hcalled, hi0, hname⟩ := getLogger_of_proper hrun hn
    refine ⟨hi0, hname, fun later => ?_⟩
    have hafter := hrun.getLogger n
    obtain ⟨_, hlater, -⟩ := hafter.ask later
    have hkept := loggerCalled?_ask hafter hcalled later
    rw [getLogger_of_called hlater.whole_registered.2 hkept]
  · -- Sorted lists of the same names are the same list.
    obtain ⟨_, hrun', -⟩ := run_ask lastResort? others
    have hreg' := hrun'.whole_registered.2
    refine hreg'.pairwise_names.eq_of_mem_iff hreg.pairwise_names fun n => ?_
    rw [hnames, hreg'.mem_names_iff, loggerCalled?_isSome_ask_iff]
    exact and_congr_left (hsame n)

/-- Three names below one another, asked for from below and from above. -/
theorem ask_places_any_order :
    (ask {} ["a..b", "a.", "a"]).names = (ask {} ["a", "a.", "a..b"]).names ∧
      ∀ n, (ask {} ["a..b", "a.", "a"]).parentName? n =
        (ask {} ["a", "a.", "a..b"]).parentName? n := by
  obtain ⟨-, -, -, -, hsame⟩ := ask_places none ["a", "a.", "a..b"]
  refine hsame ["a..b", "a.", "a"] fun n _ => ?_
  simp only [List.mem_cons, List.not_mem_nil, or_false]
  tauto

/-- A name that comes late takes the place between two that were there; a doubled
    dot makes a name of its own. -/
example : ["a", "a.", "a..b", "a.b"].map (ask {} ["a..b", "a.b", "a.", "a"]).parentName? =
    [some "root", some "a", some "a.", some "a"] := by decide

end Logbook.Registry
