import Logbook.Proofs.Delivery.Acts

/-! # The acts of a request

    A memory sink is asked to keep a record, to hand on what it has, to turn to another
    target, and in the end to close.  Each request is a few acts.  Here they are told apart
    by what they do to the sink itself: what it hands on and what it keeps then is what it
    kept before, with the record it was given.
-/

namespace Logbook

/-- What the handler of a memory sink is asked for before it is closed. -/
inductive Request where
  | emit (r : Record)
  | flush
  | setTarget (target? : Option HandlerId)

/-- The handlers that a request names. -/
def Request.concerns : Request → List HandlerId
  | .setTarget target? => target?.toList
  | _ => []

/-- The record that a sink is given on a request, if the filters accept it. -/
def Request.given? (accepted? : Record → Option Record) : Request → Option Record
  | .emit r => accepted? r
  | _ => none

/-! ## The sink -/

namespace Act

/-- What an act does to the sink. -/
def onSink : Act → MemorySink → MemorySink
  | .keep r, m => m.push r
  | .empty, m => { m with buffer := [] }
  | .aim target?, m => { m with target? }
  | _, m => m

/-- What several acts do to the sink. -/
def allOnSink (acts : List Act) (m : MemorySink) : MemorySink :=
  acts.foldl (fun m a => a.onSink m) m

variable {x : Handler} {m : MemorySink} {acts : List Act}

theorem allOnSink_append (acts acts' : List Act) (m : MemorySink) :
    allOnSink (acts ++ acts') m = allOnSink acts' (allOnSink acts m) := List.foldl_append

/-- The sink of the handler changes as told, and its filters stay. -/
theorem onHandler_eq (a : Act) (hx : x.sink = .memory m) :
    (a.onHandler x).sink = .memory (a.onSink m) ∧ (a.onHandler x).filters = x.filters ∧
      (a ≠ .mark → (a.onHandler x).closed = x.closed) := by
  cases a with
  | keep | empty | aim => simp [onHandler, Handler.onMemory, onSink, hx]
  | count => exact ⟨hx, rfl, fun _ => rfl⟩
  | mark => exact ⟨hx, rfl, fun hne => absurd rfl hne⟩
  | ask | hand | letGo => exact ⟨hx, rfl, fun _ => rfl⟩

theorem allOnHandler_eq (acts : List Act) (hx : x.sink = .memory m) :
    (allOnHandler acts x).sink = .memory (allOnSink acts m) ∧
      (allOnHandler acts x).filters = x.filters ∧
      (.mark ∉ acts → (allOnHandler acts x).closed = x.closed) := by
  induction acts generalizing x m with
  | nil => exact ⟨hx, rfl, fun _ => rfl⟩
  | cons a acts ih =>
    obtain ⟨hsink, hfilters, hclosed⟩ := a.onHandler_eq hx
    obtain ⟨hsink', hfilters', hclosed'⟩ := ih hsink
    refine ⟨hsink', hfilters'.trans hfilters, ?_⟩
    intro hmark
    rw [List.mem_cons, not_or] at hmark
    exact (hclosed' hmark.2).trans (hclosed (Ne.symm hmark.1))

/-- What is handed on does nothing to the sink. -/
theorem allOnSink_hand (target : HandlerId) (records : List Record) (m : MemorySink) :
    allOnSink (records.map (.hand target)) m = m := by
  induction records with
  | nil => rfl
  | cons r rs ih => exact ih

theorem handed_hand (target : HandlerId) (records : List Record) :
    handed (records.map (.hand target)) = records.map fun r => (target, r) := by
  induction records with
  | nil => rfl
  | cons r rs ih => exact congrArg ((target, r) :: ·) ih

theorem mem_handed {job : HandlerId × Record} : job ∈ handed acts ↔ .hand job.1 job.2 ∈ acts := by
  unfold handed
  rw [List.mem_filterMap]
  constructor
  · rintro ⟨a, ha, heq⟩
    split at heq
    · cases heq
      exact ha
    · cases heq
  · intro ha
    exact ⟨_, ha, rfl⟩

/-- To let go of handlers does nothing to the sink, and hands nothing on. -/
theorem allOnSink_letGo (hs : List HandlerId) (m : MemorySink) :
    allOnSink (hs.map .letGo) m = m := by
  induction hs with
  | nil => rfl
  | cons h hs ih => exact ih

theorem handed_letGo (hs : List HandlerId) : handed (hs.map .letGo) = [] := by
  induction hs with
  | nil => rfl
  | cons h hs ih => exact ih

end Act

namespace MemorySink

open Act

variable {m : MemorySink} {r : Record}

/-- To hand on what there is, if there is a target. -/
def handing (m : MemorySink) : List Act :=
  match m.target? with
  | none => []
  | some target => .empty :: m.buffer.map (.hand target)

/-- To keep a record, and to hand on what there is if that is due. -/
def keeping (m : MemorySink) (r : Record) : List Act :=
  .keep r :: if (m.push r).isDue r.level then (m.push r).handing else []

/-- To aim at another target and to let go of the one there was. -/
def turning (m : MemorySink) (target? : Option HandlerId) : List Act :=
  .aim target? :: m.target?.toList.map .letGo

/-- To close: to hand on what there is, if that is wanted, and to forget the records and
    the target. -/
def closing (m : MemorySink) : List Act :=
  .mark :: (if m.flushOnClose then m.handing else []) ++
    .empty :: .aim none :: m.target?.toList.map .letGo

/-- What the handler of a sink does on a request. -/
def acts (m : MemorySink) (accepted? : Record → Option Record) : Request → List Act
  | .emit r =>
    match accepted? r with
    | some r' => .ask r :: (m.keeping r' ++ [.count .emitted])
    | none => [.ask r, .count .filtered]
  | .flush => m.handing
  | .setTarget target? => m.turning target?

/-- A sink after a request. -/
def serve (m : MemorySink) (accepted? : Record → Option Record) : Request → MemorySink
  | .emit r =>
    match accepted? r with
    | some r' => (m.receive r').2
    | none => m
  | .flush => m.drain.2
  | .setTarget target? => { m with target? }

/-- Without a target nothing is handed on. -/
theorem drain_of_none (h : m.target? = none) : m.drain = (none, m) ∧ m.handing = [] := by
  simp [drain, handing, h]

/-- With a target everything is handed on to it. -/
theorem drain_of_some {target : HandlerId} (h : m.target? = some target) :
    m.drain = (some (target, m.buffer), { m with buffer := [] }) ∧
      m.handing = .empty :: m.buffer.map (.hand target) := by
  simp [drain, handing, h]

/-! ### What a sink is after its acts -/

theorem allOnSink_handing (m : MemorySink) : allOnSink m.handing m = m.drain.2 := by
  cases hm : m.target? with
  | none =>
    obtain ⟨hdrain, hhanding⟩ := drain_of_none hm
    rw [hdrain, hhanding]
    rfl
  | some target =>
    obtain ⟨hdrain, hhanding⟩ := drain_of_some hm
    rw [hdrain, hhanding]
    exact allOnSink_hand target m.buffer _

theorem allOnSink_keeping (m : MemorySink) (r : Record) :
    allOnSink (m.keeping r) m = (m.receive r).2 := by
  unfold keeping receive
  split
  · exact (m.push r).allOnSink_handing
  · rfl

/-- Once the records and the target are forgotten, it is all one whether the records were
    handed on. -/
theorem closed_finishing (m : MemorySink) :
    (allOnSink (if m.flushOnClose then m.handing else []) m).closed = m.closed := by
  split
  · rw [allOnSink_handing]
    unfold drain
    split <;> rfl
  · rfl

theorem allOnSink_closing (m : MemorySink) : allOnSink m.closing m = m.closed := by
  have hall : allOnSink m.closing m = allOnSink (.empty :: .aim none :: m.target?.toList.map .letGo)
      (allOnSink (if m.flushOnClose then m.handing else []) m) := allOnSink_append _ _ _
  rw [hall, ← m.closed_finishing]
  exact allOnSink_letGo _ _

/-- The acts of a request turn the sink into what it is after that. -/
theorem allOnSink_acts (m : MemorySink) (accepted? : Record → Option Record) (q : Request) :
    allOnSink (m.acts accepted? q) m = m.serve accepted? q := by
  cases q with
  | emit r =>
    cases haccepted : accepted? r with
    | none =>
      simp only [acts, serve, haccepted]
      rfl
    | some r' =>
      simp only [acts, serve, haccepted]
      exact (allOnSink_append _ _ m).trans (m.allOnSink_keeping r')
  | flush => exact m.allOnSink_handing
  | setTarget target? => exact allOnSink_letGo _ _

/-- Nothing but the target and what waits changes in a sink. -/
theorem settings_serve (m : MemorySink) (accepted? : Record → Option Record) (q : Request) :
    m.serve accepted? q = { m with
      target? := (m.serve accepted? q).target?, buffer := (m.serve accepted? q).buffer } := by
  -- Whatever the request, it drains the buffer, adds to it or sets the target.
  have hdrain : ∀ m : MemorySink, m.drain.2 =
      { m with target? := m.drain.2.target?, buffer := m.drain.2.buffer } := by
    intro m
    rw [target?_drain]
    unfold drain
    split <;> rfl
  cases q with
  | emit r =>
    unfold serve
    dsimp only
    split
    · unfold receive
      split
      · exact hdrain (m.push _)
      · rfl
    · rfl
  | flush => exact hdrain m
  | setTarget target? => rfl

/-- A sink has the target that it had, or the one that the request names. -/
theorem target_of_serve {accepted? : Record → Option Record} {q : Request} {k : HandlerId}
    (hk : (m.serve accepted? q).target? = some k) : m.target? = some k ∨ k ∈ q.concerns := by
  cases q with
  | emit r =>
    left
    unfold serve at hk
    dsimp only at hk
    split at hk
    · rw [← hk]
      exact (m.target?_receive _).symm
    · exact hk
  | flush => exact .inl (m.target?_drain.symm.trans hk)
  | setTarget target? => exact .inr (Option.mem_toList.mpr hk)

/-! ### What the acts concern -/

/-- What a sink does that hands on what there is. -/
theorem mem_handing {a : Act} (ha : a ∈ m.handing) :
    a = .empty ∨ ∃ k r, m.target? = some k ∧ a = .hand k r := by
  cases hm : m.target? with
  | none =>
    rw [(drain_of_none hm).2] at ha
    cases ha
  | some target =>
    rw [(drain_of_some hm).2] at ha
    rcases List.mem_cons.mp ha with rfl | hhand
    · exact .inl rfl
    · obtain ⟨r, -, rfl⟩ := List.mem_map.mp hhand
      exact .inr ⟨target, r, rfl, rfl⟩

/-- A sink that hands on what there is concerns no handler but its target. -/
theorem concerns_handing {a : Act} {k : HandlerId} (ha : a ∈ m.handing) (hk : k ∈ a.concerns) :
    m.target? = some k := by
  rcases mem_handing ha with rfl | ⟨target, r, htarget, rfl⟩
  · cases hk
  · rw [List.mem_singleton.mp hk]
    exact htarget

/-- What a sink does on a request: it turns to another target and lets go of its own only
    if the request is to do so. -/
theorem mem_acts {accepted? : Record → Option Record} {q : Request} {a : Act}
    (ha : a ∈ m.acts accepted? q) :
    (a.concerns = [] ∧ a ≠ .mark) ∨ (∃ k r, m.target? = some k ∧ a = .hand k r) ∨
      ∃ target?, q = .setTarget target? ∧
        (a = .aim target? ∨ ∃ k, m.target? = some k ∧ a = .letGo k) := by
  -- A flush and a record that is due hand on alike, and to the target the sink has.
  have hhanding : ∀ m' : MemorySink, m'.target? = m.target? → a ∈ m'.handing →
      (a.concerns = [] ∧ a ≠ .mark) ∨ ∃ k r, m.target? = some k ∧ a = .hand k r := by
    intro m' hm' ha
    rcases mem_handing ha with rfl | hhand
    · exact .inl ⟨rfl, by simp⟩
    · rw [hm'] at hhand
      exact .inr hhand
  cases q with
  | emit r =>
    rw [← or_assoc]
    left
    unfold acts at ha
    dsimp only at ha
    split at ha
    · next r' _ =>
      simp only [keeping, List.mem_cons, List.mem_append, List.not_mem_nil, or_false] at ha
      rcases ha with rfl | (rfl | hdue) | rfl
      · exact .inl ⟨rfl, by simp⟩
      · exact .inl ⟨rfl, by simp⟩
      · split at hdue
        · exact hhanding (m.push r') rfl hdue
        · cases hdue
      · exact .inl ⟨rfl, by simp⟩
    · simp only [List.mem_cons, List.not_mem_nil, or_false] at ha
      rcases ha with rfl | rfl <;> exact .inl ⟨rfl, by simp⟩
  | flush =>
    rw [← or_assoc]
    exact .inl (hhanding m rfl ha)
  | setTarget target? =>
    refine .inr (.inr ⟨target?, rfl, ?_⟩)
    rcases List.mem_cons.mp ha with haim | hletGo
    · exact .inl haim
    · obtain ⟨k, hk, rfl⟩ := List.mem_map.mp hletGo
      exact .inr ⟨k, Option.mem_toList.mp hk, rfl⟩

/-- What a sink does on a request concerns its target and what the request names. -/
theorem concerns_acts {accepted? : Record → Option Record} {q : Request} {a : Act} {k : HandlerId}
    (ha : a ∈ m.acts accepted? q) (hk : k ∈ a.concerns) : m.target? = some k ∨ k ∈ q.concerns := by
  rcases mem_acts ha with ⟨hnone, -⟩ | ⟨k', r, hk', rfl⟩ | ⟨target?, rfl, rfl | ⟨k', hk', rfl⟩⟩
  · rw [hnone] at hk
    cases hk
  · rw [List.mem_singleton.mp hk]
    exact .inl hk'
  · exact .inr hk
  · rw [List.mem_singleton.mp hk]
    exact .inl hk'

/-- No request closes the handler. -/
theorem mark_notMem_acts {accepted? : Record → Option Record} {q : Request} :
    Act.mark ∉ m.acts accepted? q := by
  intro ha
  rcases mem_acts ha with ⟨-, hne⟩ | ⟨k, r, -, heq⟩ | ⟨target?, -, heq | ⟨k, -, heq⟩⟩
  · exact hne rfl
  · cases heq
  · cases heq
  · cases heq

/-- No handler is let go on a request that names no target. -/
theorem letGo_notMem_acts {accepted? : Record → Option Record} {q : Request}
    (hkeeps : ∀ target?, q ≠ .setTarget target?) (k : HandlerId) :
    Act.letGo k ∉ m.acts accepted? q := by
  intro ha
  rcases mem_acts ha with ⟨hnone, -⟩ | ⟨k', r, -, heq⟩ | ⟨target?, hq, -⟩
  · cases hnone
  · cases heq
  · exact hkeeps target? hq

/-- Such a request is one for the target that there is. -/
theorem target_of_handed {accepted? : Record → Option Record} {q : Request}
    (hkeeps : ∀ target?, q ≠ .setTarget target?) {job : HandlerId × Record}
    (hjob : job ∈ handed (m.acts accepted? q)) : m.target? = some job.1 := by
  rcases mem_acts (mem_handed.mp hjob) with ⟨hnone, -⟩ | ⟨k, r, hk, heq⟩ | ⟨target?, hq, -⟩
  · cases hnone
  · cases heq
    exact hk
  · exact absurd hq (hkeeps target?)

/-- What a sink does that is closed concerns its target alone. -/
theorem concerns_closing {a : Act} {k : HandlerId} (ha : a ∈ m.closing) (hk : k ∈ a.concerns) :
    m.target? = some k := by
  simp only [closing, List.cons_append, List.mem_cons, List.mem_append, List.mem_map] at ha
  rcases ha with rfl | hfinish | rfl | rfl | ⟨target, htarget, rfl⟩
  · cases hk
  · split at hfinish
    · exact concerns_handing hfinish hk
    · cases hfinish
  · cases hk
  · cases hk
  · rw [List.mem_singleton.mp hk]
    exact Option.mem_toList.mp htarget

/-! ### What is handed on -/

theorem handed_handing (m : MemorySink) :
    handed m.handing = m.target?.toList.flatMap fun target => m.buffer.map fun r => (target, r) := by
  cases hm : m.target? with
  | none =>
    rw [(drain_of_none hm).2]
    rfl
  | some target =>
    rw [(drain_of_some hm).2, Option.toList_some, List.flatMap_singleton]
    exact handed_hand target m.buffer

theorem handed_closing (m : MemorySink) :
    handed m.closing = if m.flushOnClose then
      m.target?.toList.flatMap fun target => m.buffer.map fun r => (target, r) else [] := by
  have hall : handed m.closing = handed (if m.flushOnClose then m.handing else []) ++
      handed (.empty :: .aim none :: m.target?.toList.map .letGo) := handed_append _ _
  have hlast : handed (.empty :: .aim none :: m.target?.toList.map .letGo) = [] := handed_letGo _
  rw [hall, hlast, List.append_nil]
  split
  · exact m.handed_handing
  · rfl

/-- Nothing is lost when records are handed on. -/
theorem handed_handing_append (m : MemorySink) :
    (handed m.handing).map Prod.snd ++ m.drain.2.buffer = m.buffer := by
  rw [handed_handing]
  cases hm : m.target? with
  | none =>
    rw [(drain_of_none hm).1]
    rfl
  | some target =>
    rw [(drain_of_some hm).1]
    simp [Function.comp_def]

/-- Nor when a record is kept. -/
theorem handed_keeping_append (m : MemorySink) (r : Record) :
    (handed (m.keeping r)).map Prod.snd ++ (m.receive r).2.buffer = m.buffer ++ [r] := by
  unfold keeping receive
  split
  · exact (m.push r).handed_handing_append
  · rfl

/-- **One request**: what is handed on and what waits then is what waited before, with the
    record that the sink was given. -/
theorem handed_acts_append (m : MemorySink) (accepted? : Record → Option Record) (q : Request) :
    (handed (m.acts accepted? q)).map Prod.snd ++ (m.serve accepted? q).buffer =
      m.buffer ++ (q.given? accepted?).toList := by
  cases q with
  | emit r =>
    cases haccepted : accepted? r with
    | none =>
      simp only [acts, serve, Request.given?, haccepted]
      exact (List.append_nil _).symm
    | some r' =>
      -- To ask the filters and to count the call hand nothing on.
      have hhanded : handed (.ask r :: (m.keeping r' ++ [.count .emitted])) =
          handed (m.keeping r') := (handed_append (m.keeping r') _).trans (List.append_nil _)
      simp only [acts, serve, Request.given?, haccepted, hhanded]
      exact m.handed_keeping_append r'
  | flush =>
    show (handed m.handing).map Prod.snd ++ m.drain.2.buffer = m.buffer ++ []
    rw [handed_handing_append, List.append_nil]
  | setTarget target? =>
    have hhanded : handed (m.turning target?) = [] := handed_letGo _
    show (handed (m.turning target?)).map Prod.snd ++ m.buffer = m.buffer ++ []
    rw [hhanded, List.append_nil]
    rfl

/-! ### How much waits -/

/-- A sink with a target that is given a record keeps less than its capacity, or nothing,
    and all of it below its flush level. -/
theorem bounds_receive {target : HandlerId} (hm : m.target? = some target) (r : Record)
    (hbelow : ∀ r ∈ m.buffer, r.level < m.flushLevel) :
    (m.receive r).2.buffer.length < max m.capacity 1 ∧
      ∀ r' ∈ (m.receive r).2.buffer, r'.level < m.flushLevel := by
  unfold receive
  split
  · rw [(drain_of_some (m := m.push r) hm).1]
    exact ⟨Nat.lt_of_lt_of_le Nat.one_pos (Nat.le_max_right _ _), fun r' hr' => by cases hr'⟩
  · -- Not due means room in the buffer and a level below the flush level.
    next hdue =>
    rw [isDue, Bool.or_eq_true, decide_eq_true_eq, decide_eq_true_eq, not_or, Nat.not_le,
      Level.not_le_iff] at hdue
    refine ⟨Nat.lt_of_lt_of_le hdue.1 (Nat.le_max_left _ _), ?_⟩
    intro r' hr'
    rcases List.mem_append.mp hr' with hold | hnew
    · exact hbelow r' hold
    · rw [List.mem_singleton.mp hnew]
      exact hdue.2

/-- So does one that is served any request but one for another target, and nothing waits
    after a flush. -/
theorem bounds_serve {target : HandlerId} {q : Request} (m : MemorySink)
    (accepted? : Record → Option Record) (hm : m.target? = some target)
    (hkeeps : ∀ target?, q ≠ .setTarget target?)
    (hroom : m.buffer.length < max m.capacity 1) (hbelow : ∀ r ∈ m.buffer, r.level < m.flushLevel) :
    (m.serve accepted? q).target? = some target ∧
      (m.serve accepted? q).buffer.length < max m.capacity 1 ∧
      (∀ r ∈ (m.serve accepted? q).buffer, r.level < m.flushLevel) ∧
      (q = .flush → (m.serve accepted? q).buffer = []) := by
  cases q with
  | emit r =>
    unfold serve
    dsimp only
    split
    · next r' _ =>
      obtain ⟨hroom', hbelow'⟩ := bounds_receive hm r' hbelow
      exact ⟨(m.target?_receive r').trans hm, hroom', hbelow', fun heq => by cases heq⟩
    · exact ⟨hm, hroom, hbelow, fun heq => by cases heq⟩
  | flush =>
    have hdrain : m.serve accepted? .flush = { m with buffer := [] } := by
      rw [serve, (drain_of_some hm).1]
    rw [hdrain]
    exact ⟨hm, Nat.lt_of_lt_of_le Nat.one_pos (Nat.le_max_right _ _),
      fun r (hr : r ∈ []) => absurd hr List.not_mem_nil, fun _ => rfl⟩
  | setTarget target? => exact absurd rfl (hkeeps target?)

end MemorySink

end Logbook
