import Logbook.Proofs.Names
import Logbook.Proofs.Table

/-! # The walk upwards from a new name

    A registry walks along the names above a new one, the longest first.  The
    first logger that is met is the one with the longest name, and it ends the
    walk; the names that are passed before note the new logger.
-/

namespace Logbook.Registry

variable {g : Registry} {i j : LoggerId} {name : String}

/-! ## One walk -/

/-- The logger that a name stands for in a table. -/
def loggerAt? (nodes : Table Node) (name : String) : Option LoggerId :=
  match nodes.get? name with
  | some (.logger i) => some i
  | _ => none

/-- The loggers that wait for a name in a table. -/
def waitingAt (nodes : Table Node) (name : String) : List LoggerId :=
  match nodes.get? name with
  | some (.placeholder below) => below
  | _ => []

/-- The registered logger with a name. -/
def loggerCalled? (g : Registry) (name : String) : Option LoggerId := loggerAt? g.nodes name

/-- The loggers that wait for a name. -/
def waiting (g : Registry) (name : String) : List LoggerId := waitingAt g.nodes name

/-- What names stand for is a matter of the table. -/
theorem loggerCalled?_congr {g' : Registry} (h : g'.nodes = g.nodes) (name : String) :
    g'.loggerCalled? name = g.loggerCalled? name := by
  rw [loggerCalled?, h, loggerCalled?]

/-- Who waits for a name is a matter of the table. -/
theorem waiting_congr {g' : Registry} (h : g'.nodes = g.nodes) (name : String) :
    g'.waiting name = g.waiting name := by
  rw [waiting, h, waiting]

/-- The names on a walk before the first that stands for a logger. -/
def passed (nodes : Table Node) (names : List String) : List String :=
  names.takeWhile fun n => (loggerAt? nodes n).isNone

/-- A name stands for a logger exactly when the table says so. -/
theorem loggerAt?_eq_some_iff {nodes : Table Node} :
    loggerAt? nodes name = some i ↔ nodes.get? name = some (.logger i) := by
  unfold loggerAt?
  split
  · next k hk => simp [hk]
  · next hk =>
    constructor
    · intro h
      cases h
    · intro h
      exact absurd h (hk i)

/-- The walk upwards finds the first logger, and enters the new one under every
    name that it passes. -/
theorem linkUpwards_spec (i : LoggerId) (nodes₀ : Table Node) :
    ∀ (names : List String) (nodes : Table Node), names.Nodup →
      (∀ n ∈ names, nodes.get? n = nodes₀.get? n) →
      (linkUpwards i names nodes).1 = names.findSome? (loggerAt? nodes₀) ∧
      ∀ k, (linkUpwards i names nodes).2.get? k =
        if k ∈ passed nodes₀ names then
          some (.placeholder (Handler.adjoin (waitingAt nodes₀ k) i))
        else nodes.get? k := by
  intro names
  induction names with
  | nil =>
    intro nodes _ _
    exact ⟨rfl, fun k => by simp [linkUpwards, passed]⟩
  | cons n names ih =>
    intro nodes hnodup hsame
    obtain ⟨hfresh, hnames⟩ := List.nodup_cons.mp hnodup
    have hn : nodes.get? n = nodes₀.get? n := hsame n List.mem_cons_self
    -- A name that is passed is entered, and the rest of the walk does not see that.
    have hpass : ∀ below, loggerAt? nodes₀ n = none →
        below = Handler.adjoin (waitingAt nodes₀ n) i →
        (linkUpwards i names (nodes.insert n (.placeholder below))).1 =
            (n :: names).findSome? (loggerAt? nodes₀) ∧
          ∀ k, (linkUpwards i names (nodes.insert n (.placeholder below))).2.get? k =
            if k ∈ passed nodes₀ (n :: names) then
              some (.placeholder (Handler.adjoin (waitingAt nodes₀ k) i))
            else nodes.get? k := by
      intro below hnone hbelow
      have hrest : ∀ m ∈ names,
          (nodes.insert n (.placeholder below)).get? m = nodes₀.get? m := by
        intro m hm
        have hne : m ≠ n := fun heq => hfresh (heq ▸ hm)
        rw [Table.get?_insert, if_neg hne]
        exact hsame m (List.mem_cons_of_mem _ hm)
      obtain ⟨hfirst, htable⟩ := ih _ hnames hrest
      refine ⟨by rw [hfirst, List.findSome?_cons, hnone], fun k => ?_⟩
      have hcons : passed nodes₀ (n :: names) = n :: passed nodes₀ names := by
        simp [passed, hnone]
      rw [htable, hcons, Table.get?_insert]
      by_cases hk : k ∈ passed nodes₀ names
      · rw [if_pos hk, if_pos (List.mem_cons_of_mem _ hk)]
      · rw [if_neg hk]
        by_cases hkn : k = n
        · subst hkn
          rw [if_pos rfl, if_pos List.mem_cons_self, hbelow]
        · rw [if_neg hkn, if_neg (by simp [hkn, hk])]
    cases hget : nodes₀.get? n with
    | none =>
      have hnone : loggerAt? nodes₀ n = none := by simp [loggerAt?, hget]
      have := hpass [i] hnone (by simp [waitingAt, hget, Handler.adjoin])
      simpa only [linkUpwards, hn, hget] using this
    | some node =>
      cases node with
      | logger above =>
        have hsome : loggerAt? nodes₀ n = some above := loggerAt?_eq_some_iff.mpr hget
        constructor
        · simp only [linkUpwards, hn, hget, List.findSome?_cons, hsome]
        · intro k
          simp [linkUpwards, hn, hget, passed, hsome]
      | placeholder below =>
        have hnone : loggerAt? nodes₀ n = none := by simp [loggerAt?, hget]
        have := hpass (Handler.adjoin below i) hnone (by simp [waitingAt, hget])
        simpa only [linkUpwards, hn, hget] using this

/-- The walk upwards keeps the table sorted. -/
theorem sorted_linkUpwards (i : LoggerId) (names : List String) {nodes : Table Node}
    (h : nodes.Sorted) : (linkUpwards i names nodes).2.Sorted := by
  induction names generalizing nodes with
  | nil => exact h
  | cons n names ih =>
    unfold linkUpwards
    split
    · exact h
    · exact ih (h.insert _ _)
    · exact ih (h.insert _ _)

/-! ## What the walk finds -/

/-- **Nearest**: of the registered loggers above a name the one with the longest
    name, or the root if there is none. -/
def Nearest (g : Registry) (name : String) (p : LoggerId) : Prop :=
  (∃ q, g.loggerCalled? q = some p ∧ NameAbove q name ∧
      ∀ q', (g.loggerCalled? q').isSome → NameAbove q' name → q'.length ≤ q.length) ∨
    p = rootId ∧ ∀ q, NameAbove q name → g.loggerCalled? q = none

/-- The first logger on the walk upwards. -/
def above? (g : Registry) (name : String) : Option LoggerId :=
  (dottedPrefixes name).findSome? g.loggerCalled?

/-- The walk upwards finds the logger with the longest name. -/
theorem above?_eq_some_iff {p : LoggerId} : g.above? name = some p ↔
    ∃ q, g.loggerCalled? q = some p ∧ NameAbove q name ∧
      ∀ q', (g.loggerCalled? q').isSome → NameAbove q' name → q'.length ≤ q.length := by
  constructor
  · intro h
    obtain ⟨front, q, back, hsplit, hq, hfront⟩ := List.findSome?_eq_some_iff.mp h
    have hpair := hsplit ▸ pairwise_dottedPrefixes name
    refine ⟨q, hq, mem_dottedPrefixes.mp (hsplit ▸ by simp), fun q' hq' habove => ?_⟩
    have hmem : q' ∈ front ++ q :: back := hsplit ▸ mem_dottedPrefixes.mpr habove
    -- What comes before in the list stands for no logger, what comes after is shorter.
    rcases List.mem_append.mp hmem with hin | hin
    · rw [hfront q' hin] at hq'
      cases hq'
    · rcases List.mem_cons.mp hin with rfl | hback
      · exact Nat.le_refl _
      · have hback' := (List.pairwise_append.mp hpair).2.1
        exact Nat.le_of_lt ((List.pairwise_cons.mp hback').1 q' hback)
  · rintro ⟨q, hq, habove, hlongest⟩
    cases hfound : g.above? name with
    | none =>
      rw [above?, List.findSome?_eq_none_iff] at hfound
      rw [hfound q (mem_dottedPrefixes.mpr habove)] at hq
      cases hq
    | some p' =>
      obtain ⟨front, q', back, hsplit, hq', hfront⟩ := List.findSome?_eq_some_iff.mp hfound
      have hpair := hsplit ▸ pairwise_dottedPrefixes name
      have habove' : NameAbove q' name := mem_dottedPrefixes.mp (hsplit ▸ by simp)
      have hle : q'.length ≤ q.length := hlongest q' (by simp [hq']) habove'
      have hmem : q ∈ front ++ q' :: back := hsplit ▸ mem_dottedPrefixes.mpr habove
      rcases List.mem_append.mp hmem with hin | hin
      · rw [hfront q hin] at hq
        cases hq
      · rcases List.mem_cons.mp hin with rfl | hback
        · rw [← hq', hq]
        · have hback' := (List.pairwise_append.mp hpair).2.1
          have hlt := (List.pairwise_cons.mp hback').1 q hback
          omega

/-- The walk upwards finds nothing if there is nothing above. -/
theorem above?_eq_none_iff :
    g.above? name = none ↔ ∀ q, NameAbove q name → g.loggerCalled? q = none := by
  simp only [above?, List.findSome?_eq_none_iff, mem_dottedPrefixes]

/-- The walk upwards ends at the nearest logger. -/
theorem nearest_above? (g : Registry) (name : String) :
    g.Nearest name ((g.above? name).getD rootId) := by
  cases h : g.above? name with
  | none => exact .inr ⟨rfl, above?_eq_none_iff.mp h⟩
  | some p => exact .inl (above?_eq_some_iff.mp h)

/-- In a list of ever shorter names, what comes before the first that fails a
    test. -/
theorem mem_takeWhile_iff {names : List String} {test : String → Bool} {k : String}
    (h : names.Pairwise fun a b => b.length < a.length) :
    k ∈ names.takeWhile test ↔
      k ∈ names ∧ test k ∧ ∀ q ∈ names, k.length < q.length → test q := by
  induction names with
  | nil => simp
  | cons n names ih =>
    obtain ⟨hhead, hrest⟩ := List.pairwise_cons.mp h
    by_cases hn : test n
    · rw [List.takeWhile_cons_of_pos hn, List.mem_cons, List.mem_cons, ih hrest]
      constructor
      · rintro (rfl | ⟨hk, htest, hlonger⟩)
        · refine ⟨.inl rfl, hn, fun q hq hlt => ?_⟩
          rcases List.mem_cons.mp hq with rfl | hq
          · exact hn
          · exact absurd (hhead q hq) (Nat.lt_asymm hlt)
        · refine ⟨.inr hk, htest, fun q hq hlt => ?_⟩
          rcases List.mem_cons.mp hq with rfl | hq
          · exact hn
          · exact hlonger q hq hlt
      · rintro ⟨rfl | hk, htest, hlonger⟩
        · exact .inl rfl
        · exact .inr ⟨hk, htest, fun q hq => hlonger q (List.mem_cons_of_mem _ hq)⟩
    · -- The first name fails, and it is longer than all that follow.
      rw [List.takeWhile_cons_of_neg hn]
      simp only [List.not_mem_nil, false_iff]
      rintro ⟨hk, htest, hlonger⟩
      rcases List.mem_cons.mp hk with rfl | hk
      · exact hn htest
      · exact hn (hlonger n List.mem_cons_self (hhead k hk))

/-- The names that a new logger is entered under: those above it that stand for no
    logger and have no logger between. -/
theorem mem_passed_iff {k : String} : k ∈ passed g.nodes (dottedPrefixes name) ↔
    NameAbove k name ∧ g.loggerCalled? k = none ∧
      ∀ q, NameAbove q name → k.length < q.length → g.loggerCalled? q = none := by
  rw [passed, mem_takeWhile_iff (pairwise_dottedPrefixes name)]
  simp only [mem_dottedPrefixes, Option.isNone_iff_eq_none, loggerCalled?]

end Logbook.Registry
