import Logbook.Sink.Socket
import Mathlib.Logic.Relation

/-! # Reconnection

    A socket sink that finds no peer drops what it is given and waits before it tries again.
    The first delay is the one to start with; each further one is the last one grown, and
    cut to the ceiling.

    * **The delay**: only the first one can pass the ceiling, and it does if it is set higher.
      If it is not, no delay ever passes the ceiling, whatever the growth and whatever comes
      of the attempts.
    * **Attempts**: how an attempt would come out matters only while there is no connection
      and the time of the next attempt has come.
    * **Dropped**: a text that finds no connection leaves no trace in the sink or the world,
      so it cannot be sent later.
-/

namespace Logbook

open Time

/-! ## The schedule -/

namespace Backoff

variable {b : Backoff}

/-- **Paced**: a schedule has the settings that it was given, and its delay is within the
    ceiling or is the one to start with. -/
structure Paced (start ceiling : Span) (growth : Span → Span) (b : Backoff) : Prop where
  first : b.start = start
  limit : b.ceiling = ceiling
  grow : b.grow = fun d => .ok (growth d)
  period : b.period ≤ ceiling ∨ b.period = start

variable {start ceiling : Span} {growth : Span → Span}

/-- The next delay is the one to start with, or has been cut to the ceiling. -/
theorem Paced.delay (h : Paced start ceiling growth b) :
    ∃ d, b.delay = .ok d ∧ (d ≤ ceiling ∨ d = start) := by
  unfold Backoff.delay
  split
  · exact ⟨b.start, rfl, .inr h.first⟩
  · simp only [h.grow, h.limit]
    exact ⟨_, rfl, .inl (Nat.min_le_right _ _)⟩

theorem Paced.succeeded (h : Paced start ceiling growth b) :
    Paced start ceiling growth b.succeeded :=
  ⟨h.first, h.limit, h.grow, .inl (Nat.zero_le _)⟩

/-- A failure keeps the pace, also when the next attempt cannot be scheduled. -/
theorem Paced.failed (h : Paced start ceiling growth b) (now : Nat) :
    Paced start ceiling growth (b.failed now).2 := by
  obtain ⟨d, hdelay, hd⟩ := h.delay
  rw [Backoff.failed, hdelay]
  dsimp only
  split <;> exact ⟨h.first, h.limit, h.grow, hd⟩

/-- The delay after a failure is kept, also when it ends too late. -/
theorem failed_period {d : Span} (hdelay : b.delay = .ok d) (now : Nat) :
    (b.failed now).2.period = d := by
  rw [failed, hdelay]
  dsimp only
  split <;> rfl

/-- A delay that ends while the clock still runs is scheduled. -/
theorem failed_of_delay {d : Span} {now : Nat} (hdelay : b.delay = .ok d)
    (hend : now + d < clockEnd) :
    b.failed now = (.ok (), { b with period := d, retryAt? := some (now + d) }) := by
  rw [failed, hdelay]
  exact if_pos hend

end Backoff

/-! ## Attempts -/

namespace SocketSink

variable {s : SocketSink} {w : World}

/-- **Due**: there is no connection, and the time of the next attempt has come. -/
def Due (s : SocketSink) (w : World) : Prop :=
  s.connection? = none ∧ ∀ at_, s.backoff.retryAt? = some at_ → at_ ≤ w.readSteady.1

theorem due_iff : s.Due w ↔
    s.isConnected = false ∧ s.backoff.permits w.readSteady.1 = true := by
  unfold Due isConnected Backoff.permits
  refine and_congr (by simp) ?_
  split <;> simp_all

/-- Without an attempt that is due nothing becomes of the sink. -/
theorem connect_of_not_due (h : ¬ s.Due w) :
    ∃ w₁, ∀ wire, s.connect wire w = (.ok (), s, w₁) := by
  rw [due_iff, not_and] at h
  cases hconnected : s.isConnected with
  | true => exact ⟨w, fun wire => by rw [connect, if_pos hconnected]⟩
  | false =>
    have hearly := Bool.eq_false_iff.mpr (h hconnected)
    refine ⟨w.readSteady.2, fun wire => ?_⟩
    rw [connect, if_neg (Bool.eq_false_iff.mp hconnected)]
    simp only [hearly, Bool.not_false, if_true]

/-- An attempt that is due is made, and decides. -/
theorem connect_of_due (h : s.Due w) (wire : Wire) :
    s.connect wire w =
      match wire.dial w.readSteady.2 with
      | (some c, w) => (.ok (), { s with connection? := some c, backoff := s.backoff.succeeded }, w)
      | (none, w₁) =>
        match s.backoff.failed w.readSteady.1 with
        | (.ok (), backoff) => (.ok (), { s with backoff }, w₁)
        | (.error fault, backoff) => (.error (.panicked fault.message), { s with backoff }, w₁) := by
  obtain ⟨hfree, hpermits⟩ := due_iff.mp h
  rw [connect, if_neg (Bool.eq_false_iff.mp hfree)]
  have hlate : ¬ (!s.backoff.permits w.readSteady.1) = true := by simp [hpermits]
  exact if_neg hlate

/-- Whether there is a connection after the attempt is for the wire to say. -/
theorem connection_of_due (h : s.Due w) (wire : Wire) :
    (s.connect wire w).2.1.connection? = (wire.dial w.readSteady.2).1 := by
  rw [connect_of_due h]
  rcases wire.dial w.readSteady.2 with ⟨_ | c, w₁⟩
  · dsimp only
    split <;> exact h.1
  · rfl

/-- The schedule after the attempt. -/
theorem backoff_of_due (h : s.Due w) (wire : Wire) :
    (s.connect wire w).2.1.backoff =
      match (wire.dial w.readSteady.2).1 with
      | some _ => s.backoff.succeeded
      | none => (s.backoff.failed w.readSteady.1).2 := by
  rw [connect_of_due h]
  rcases wire.dial w.readSteady.2 with ⟨_ | c, w₁⟩
  · rcases s.backoff.failed w.readSteady.1 with ⟨_ | _, b⟩ <;> rfl
  · rfl

/-! ## Texts -/

/-- Over wires that send alike a text fares alike as long as no attempt is due. -/
theorem emitOver_of_not_due (h : ¬ s.Due w) (wire : Wire) (dial : World → Option ConnectionId × World)
    (text : String) : s.emitOver { wire with dial } text w = s.emitOver wire text w := by
  obtain ⟨w₁, hconnect⟩ := connect_of_not_due h
  rw [emitOver, emitOver, hconnect, hconnect]

/-- **Dropped**: a text that finds no connection changes nothing that the attempt to connect
    has not changed. -/
theorem emitOver_of_none {wire : Wire} (hnone : (s.connect wire w).2.1.connection? = none)
    (hok : (s.connect wire w).1 = .ok ()) (text : String) :
    s.emitOver wire text w = (.ok false, (s.connect wire w).2) := by
  rcases hconnect : s.connect wire w with ⟨r, s₁, w₁⟩
  rw [hconnect] at hnone hok
  obtain rfl : r = .ok () := hok
  rw [emitOver, hconnect]
  simp only [show s₁.connection? = none from hnone]

/-- Connecting goes well as long as the delay after a failure ends while the clock runs. -/
theorem connect_ok {d : Span} (wire : Wire) (hdelay : s.backoff.delay = .ok d)
    (hend : w.readSteady.1 + d < Backoff.clockEnd) : (s.connect wire w).1 = .ok () := by
  by_cases hdue : s.Due w
  · rw [connect_of_due hdue, Backoff.failed_of_delay hdelay hend]
    rcases wire.dial w.readSteady.2 with ⟨_ | c, w₁⟩ <;> rfl
  · obtain ⟨w₁, hconnect⟩ := connect_of_not_due hdue
    rw [hconnect]

/-! ## Runs -/

variable {start ceiling : Span} {growth : Span → Span}

/-- A sink that has not tried to connect yet, with a first delay, a ceiling, and any way for a
    delay to grow. -/
def withBackoff (s : SocketSink) (start ceiling : Span) (growth : Span → Span) : SocketSink :=
  { s with connection? := none, backoff := { start, ceiling, grow := fun d => .ok (growth d) } }

/-- One step in the life of a sink. -/
inductive Step : SocketSink × World → SocketSink × World → Prop where
  /-- A text is emitted, whatever becomes of connecting and sending. -/
  | emit (s : SocketSink) (w : World) (wire : Wire) (text : String) :
    Step (s, w) (s.emitOver wire text w).2
  /-- The sink is closed. -/
  | close (s : SocketSink) (w : World) : Step (s, w) (s.close, w)
  /-- Time passes, and the world goes on. -/
  | outside (s : SocketSink) (w w' : World) : Step (s, w) (s, w')

/-- **Runs**: steps one after the other. -/
abbrev Runs : SocketSink × World → SocketSink × World → Prop := Relation.ReflTransGen Step

/-- Connecting keeps the pace, however the attempt comes out. -/
theorem connect_paced (h : s.backoff.Paced start ceiling growth) (wire : Wire) (w : World) :
    (s.connect wire w).2.1.backoff.Paced start ceiling growth := by
  by_cases hdue : s.Due w
  · rw [backoff_of_due hdue]
    split
    · exact h.succeeded
    · exact h.failed _
  · obtain ⟨w₁, hconnect⟩ := connect_of_not_due hdue
    rw [hconnect]
    exact h

/-- After connecting, only the connection of the sink can change. -/
theorem emitOver_backoff (s : SocketSink) (wire : Wire) (text : String) (w : World) :
    (s.emitOver wire text w).2.1.backoff = (s.connect wire w).2.1.backoff := by
  unfold emitOver
  rcases s.connect wire w with ⟨_ | _, s₁, w₁⟩
  · rfl
  · dsimp only
    split
    · rfl
    · split <;> rfl

/-- One step keeps the pace. -/
theorem Step.paced {a b : SocketSink × World} (hstep : Step a b)
    (h : a.1.backoff.Paced start ceiling growth) : b.1.backoff.Paced start ceiling growth := by
  cases hstep with
  | emit s w wire text =>
    rw [emitOver_backoff]
    exact connect_paced h wire w
  | close s w => exact h
  | outside s w w' => exact h

/-- A whole run keeps the pace. -/
theorem Runs.paced {a b : SocketSink × World} (hruns : Runs a b)
    (h : a.1.backoff.Paced start ceiling growth) : b.1.backoff.Paced start ceiling growth := by
  induction hruns with
  | refl => exact h
  | tail _ hstep ih => exact hstep.paced ih

theorem withBackoff_paced (s : SocketSink) (start ceiling : Span) (growth : Span → Span) :
    (s.withBackoff start ceiling growth).backoff.Paced start ceiling growth :=
  ⟨rfl, rfl, rfl, .inl (Nat.zero_le _)⟩

/-- A wire to a peer that nobody can reach. -/
def unreachable : Wire := { dial := fun w => (none, w), send }

/-- The first failure sets the delay to the one to start with, whatever the ceiling. -/
theorem period_first_failure (s : SocketSink) (start ceiling : Span) (growth : Span → Span)
    (text : String) (w : World) :
    ((s.withBackoff start ceiling growth).emitOver unreachable text w).2.1.backoff.period =
      start := by
  have hdue : (s.withBackoff start ceiling growth).Due w := ⟨rfl, fun _ h => nomatch h⟩
  rw [emitOver_backoff, backoff_of_due hdue]
  exact Backoff.failed_period rfl _

/-- **Delays within the ceiling**: in every state that a sink can reach the delay is within
    the ceiling, exactly if the first delay is.  In each of these states, whether an attempt
    to connect succeeds matters only if there is no connection and the time of the next
    attempt has come; then the connection is what comes of the attempt.  A text that finds no
    connection after that is dropped, and nothing of it stays in the sink or the world; and
    if the first delay is within the ceiling, only the end of the clock can keep it from
    getting so far. -/
theorem period_le_ceiling (s : SocketSink) (start ceiling : Span) (growth : Span → Span)
    (w : World) :
    ((∀ s' w', Runs (s.withBackoff start ceiling growth, w) (s', w') →
        s'.backoff.period ≤ ceiling) ↔ start ≤ ceiling) ∧
    ∀ s' w', Runs (s.withBackoff start ceiling growth, w) (s', w') → ∀ (wire : Wire) (text : String),
      ((∃ dial, s'.emitOver { wire with dial } text w' ≠ s'.emitOver wire text w') → s'.Due w') ∧
      (s'.Due w' →
        (s'.connect wire w').2.1.connection? = (wire.dial w'.readSteady.2).1) ∧
      (¬ s'.Due w' → (s'.connect wire w').2.1 = s') ∧
      ((s'.connect wire w').2.1.connection? = none → (s'.connect wire w').1 = .ok () →
        s'.emitOver wire text w' = (.ok false, (s'.connect wire w').2)) ∧
      (start ≤ ceiling → w'.readSteady.1 + ceiling < Backoff.clockEnd →
        (s'.connect wire w').1 = .ok ()) := by
  have hpaced : ∀ s' w', Runs (s.withBackoff start ceiling growth, w) (s', w') →
      s'.backoff.Paced start ceiling growth := fun s' w' hruns =>
    hruns.paced (s.withBackoff_paced start ceiling growth)
  refine ⟨⟨fun hall => ?_, fun hle s' w' hruns => ?_⟩, fun s' w' hruns wire text => ⟨?_, ?_, ?_, ?_, ?_⟩⟩
  · have hfirst := hall _ _ (.single (.emit _ _ unreachable ""))
    rwa [period_first_failure s start ceiling growth "" w] at hfirst
  · rcases (hpaced s' w' hruns).period with h | h
    · exact h
    · exact h ▸ hle
  · exact fun ⟨dial, hne⟩ => Classical.byContradiction fun hdue =>
      hne (emitOver_of_not_due hdue wire dial text)
  · exact fun hdue => connection_of_due hdue wire
  · intro hdue
    obtain ⟨w₁, hconnect⟩ := connect_of_not_due hdue
    rw [hconnect]
  · exact fun hnone hok => emitOver_of_none hnone hok text
  · intro hle hend
    obtain ⟨d, hdelay, hd⟩ := (hpaced s' w' hruns).delay
    have hdle : d ≤ ceiling := hd.elim id fun h => h ▸ hle
    exact connect_ok wire hdelay (Nat.lt_of_le_of_lt (Nat.add_le_add_left hdle _) hend)

theorem period_le_ceiling_unreachable :
    let s := withBackoff { host := "logs", port := 9020 } Span.second (30 * Span.second) (2 * ·)
    let first := (s.emitOver unreachable "nobody home" {}).2
    Runs (s, {}) first ∧ first.1.backoff.period ≤ 30 * Span.second ∧
      first.1.emitOver unreachable "still nobody" first.2 =
        (.ok false, (first.1.connect unreachable first.2).2) := by
  intro s first
  have hruns : Runs (s, {}) first := .single (.emit _ _ _ _)
  obtain ⟨hle, hall⟩ :=
    period_le_ceiling { host := "logs", port := 9020 } Span.second (30 * Span.second) (2 * ·) {}
  obtain ⟨-, -, -, hdropped, -⟩ := hall _ _ hruns unreachable "still nobody"
  exact ⟨hruns, hle.mpr (by decide) _ _ hruns, hdropped rfl rfl⟩

/-- With a first delay of two seconds and a ceiling of one, the first failure passes it. -/
theorem period_over_ceiling :
    ¬ ∀ s' w', Runs (withBackoff { host := "logs", port := 9020 } (2 * Span.second) Span.second
        (2 * ·), {}) (s', w') → s'.backoff.period ≤ Span.second := by
  intro hall
  exact absurd (hall _ _ (.single (.emit _ _ unreachable "m"))) (by decide)

end SocketSink

end Logbook
