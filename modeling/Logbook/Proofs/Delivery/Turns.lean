import Logbook.Logging
import Logbook.Proofs.Hierarchy.Run

/-! # Turns of a program that logs

    A program makes calls on a registry, gives records and events to its loggers,
    lets the registry go, and does what it likes with handlers and filters in
    between.  Whatever the order, no logger ever holds a handler twice, and the
    report that a record found no handler is made once at most.
-/

namespace Logbook

/-- What a program does next. -/
inductive Turn where
  | call (c : Call)
  | drop (held : List LoggerId)
  | callHandlers (i : LoggerId) (r : Record)
  | handle (i : LoggerId) (r : Record)
  | log (i : LoggerId) (level : Level) (e : Event) (caller : CallSite)
  | logInPlace (i : LoggerId) (level : Level) (e : Event)
  /-- Handlers and filters are made, used or closed without a logger. -/
  | elsewhere (s : Store)

namespace Registry

variable {g g' g'' : Registry} {i j : LoggerId} {s : Store} {c : Call} {t : Turn}
  {past : List (Registry × Registry)}

/-- Registry and store after a turn. -/
def turn (g : Registry) (s : Store) : Turn → Registry × Store
  | .call c => (g.call c, s)
  | .drop held => (g.drop held, s)
  | .callHandlers i r => g.callHandlers i r s
  | .handle i r => g.handle i r s
  | .log i level e caller => g.log i level e caller s
  | .logInPlace i level e => g.logInPlace i level e s
  | .elsewhere s' => (g, s')

/-- **Turns** from a new registry on: the registry before and after each of them, and
    the state that they have led to. -/
inductive Turns : List (Registry × Registry) → Registry → Store → Prop where
  | new (lastResort? : Option HandlerId) (s : Store) : Turns [] { lastResort? } s
  | turn {past : List (Registry × Registry)} {g : Registry} {s : Store} (t : Turn)
      (before : Turns past g s) :
      Turns (past ++ [(g, (g.turn s t).1)]) (g.turn s t).1 (g.turn s t).2

/-! ## Outputs -/

/-- **Attached**: no logger holds a handler twice. -/
def Attached (g : Registry) : Prop := ∀ i, (g.logger i).handlers.Nodup

/-- **The same outputs**: the handlers of all loggers are as they were, and so is
    whether the report was made. -/
structure SameOutputs (g g' : Registry) : Prop where
  handlers : ∀ j, (g'.logger j).handlers = (g.logger j).handlers
  warned : g'.warned = g.warned

theorem SameOutputs.refl (g : Registry) : SameOutputs g g := ⟨fun _ => rfl, rfl⟩

theorem SameOutputs.trans (h : SameOutputs g g') (h' : SameOutputs g' g'') : SameOutputs g g'' :=
  ⟨fun j => (h'.handlers j).trans (h.handlers j), h'.warned.trans h.warned⟩

theorem SameOutputs.invalidate (h : SameOutputs g g') : SameOutputs g g'.invalidate :=
  ⟨h.handlers, h.warned⟩

/-- The same outputs are attached. -/
theorem SameOutputs.attached (h : SameOutputs g g') (hattached : g.Attached) : g'.Attached :=
  fun j => (h.handlers j).symm ▸ hattached j

/-- A change of a logger that does not concern its handlers. -/
theorem sameOutputs_modify (g : Registry) (i : LoggerId) (f : Logger → Logger)
    (hf : ∀ x, (f x).handlers = x.handlers) : SameOutputs g (g.modify i f) :=
  ⟨logger_modify_congr Logger.handlers f hf g i, rfl⟩

theorem sameOutputs_adoptOne (g : Registry) (i child : LoggerId) :
    SameOutputs g (g.adoptOne i child) := by
  rw [adoptOne_eq]
  split
  · exact (sameOutputs_modify g i ({ · with parent? := g.parent? child }) fun _ => rfl).trans
      (sameOutputs_modify _ child ({ · with parent? := some i }) fun _ => rfl)
  · exact SameOutputs.refl g

theorem sameOutputs_adopt (g : Registry) (i : LoggerId) (below : List LoggerId) :
    SameOutputs g (g.adopt i below) := by
  induction below generalizing g with
  | nil => exact SameOutputs.refl g
  | cons child below ih => exact (sameOutputs_adoptOne g i child).trans (ih _)

/-- A new logger has no handlers. -/
theorem sameOutputs_push (g : Registry) (name : String) (nodes : Table Node) :
    SameOutputs g { g with loggers := g.loggers.push { name }, nodes } := by
  refine ⟨fun j => ?_, rfl⟩
  by_cases hj : j = g.loggers.size
  · subst hj
    simp [logger]
  · simp [logger, Array.getElem?_push, hj]

theorem sameOutputs_create (g : Registry) (name : String) (below : List LoggerId) :
    SameOutputs g (g.create name below).2 := by
  have hadopt := (sameOutputs_push g name (g.nodes.insert name (.logger g.loggers.size))).trans
    (sameOutputs_adopt _ g.loggers.size below)
  -- What is left of a creation is the table and the link of the new logger.
  refine hadopt.trans ⟨fun j => ?_, rfl⟩
  exact logger_modify_congr Logger.handlers ({ · with parent? := some _ }) (fun _ => rfl) _ _ j

/-- A question concerns no outputs. -/
theorem SameButMemos.sameOutputs (h : SameButMemos g g') : SameOutputs g g' :=
  ⟨h.view_eq Logger.handlers fun _ _ => rfl, by rw [h.rest]⟩

/-! ## Calls -/

/-- What is attached to a list that holds nothing twice is not there twice. -/
theorem nodup_adjoin {xs : List HandlerId} (h : xs.Nodup) (a : HandlerId) :
    (Handler.adjoin xs a).Nodup := by
  unfold Handler.adjoin
  split
  · exact h
  · next hnot => exact List.nodup_append.mpr ⟨h, List.nodup_singleton a, fun b hb c hc => by
      rintro rfl
      exact hnot (List.mem_singleton.mp hc ▸ hb)⟩

/-- A change of a logger that does not make it hold a handler twice. -/
theorem Attached.modify (h : g.Attached) (i : LoggerId) (f : Logger → Logger)
    (hf : ∀ x, x.handlers.Nodup → (f x).handlers.Nodup) : (g.modify i f).Attached := by
  intro j
  rw [logger_modify]
  split
  · exact hf _ (h j)
  · exact h j

/-- A call keeps the report as it was, and no logger gets a handler twice. -/
theorem outputs_call (h : g.Attached) (c : Call) :
    (g.call c).Attached ∧ (g.call c).warned = g.warned := by
  have hsame : SameOutputs g (g.call c) → (g.call c).Attached ∧ (g.call c).warned = g.warned :=
    fun hsame => ⟨hsame.attached h, hsame.warned⟩
  cases c with
  | getLogger name =>
    refine hsame ?_
    rcases call_getLogger g name with heq | ⟨-, -, -, heq⟩ <;> rw [heq]
    · exact SameOutputs.refl g
    · exact sameOutputs_create g name _
  | setParent i p =>
    refine hsame ?_
    rcases call_setParent g i p with ⟨-, heq⟩ | ⟨-, heq⟩ <;> rw [heq]
    · exact SameOutputs.refl g
    · exact (sameOutputs_modify g i ({ · with parent? := some p }) fun _ => rfl).invalidate
  | effectiveLevel i => exact hsame (g.sameButMemos_effectiveLevel i).sameOutputs
  | isEnabledFor i level => exact hsame (g.sameButMemos_isEnabledFor i level).sameOutputs
  | addHandler i x => exact ⟨h.modify i _ fun _ hx => nodup_adjoin hx x, rfl⟩
  | removeHandler i x => exact ⟨h.modify i _ fun _ hx => hx.filter _, rfl⟩
  | clearHandlers i => exact ⟨h.modify i _ fun _ _ => List.nodup_nil, rfl⟩
  | disable _ | setLastResort _ | setFactory _ | setResolver _ => exact hsame ⟨fun _ => rfl, rfl⟩
  | setLevel i level =>
    exact hsame (sameOutputs_modify g i ({ · with level }) fun _ => rfl).invalidate
  | setDisabled i value =>
    exact hsame (sameOutputs_modify g i ({ · with disabled := value }) fun _ => rfl)
  | setPropagate i value =>
    exact hsame (sameOutputs_modify g i ({ · with propagate := value }) fun _ => rfl)
  | addFilter i f | removeFilter i f | clearFilters i =>
    exact hsame (sameOutputs_modify g i _ fun _ => rfl)

/-- A logger that is let go with its registry holds no handlers any more. -/
theorem Attached.drop (h : g.Attached) (held : List LoggerId) : (g.drop held).Attached := by
  intro j
  by_cases hj : j < g.loggers.size
  · -- Loggers that are held stay as they are, the others lose their handlers.
    have hlogger : (g.drop held).logger j = if j ∈ held then g.logger j else
        { g.logger j with gone := true, handlers := [] } := by
      simp [Registry.drop, logger, hj]
    rw [hlogger]
    split
    · exact h j
    · exact List.nodup_nil
  · rw [logger_of_size_le (by simpa [Registry.drop] using hj)]
    exact List.nodup_nil

/-! ## Records -/

/-- **Reporting**: the outputs are as they were, but for the report that no handler
    was found, which may have been made. -/
structure Reporting (g g' : Registry) : Prop where
  handlers : ∀ j, (g'.logger j).handlers = (g.logger j).handlers
  warned : g.warned = true → g'.warned = true

theorem SameOutputs.reporting (h : SameOutputs g g') : Reporting g g' :=
  ⟨h.handlers, fun hwarned => h.warned.trans hwarned⟩

theorem SameOutputs.trans_reporting (h : SameOutputs g g') (h' : Reporting g' g'') :
    Reporting g g'' :=
  ⟨fun j => (h'.handlers j).trans (h.handlers j), fun hwarned => h'.warned (h.warned.trans hwarned)⟩

theorem reporting_callHandlers (g : Registry) (i : LoggerId) (r : Record) (s : Store) :
    Reporting g (g.callHandlers i r s).1 := by
  unfold callHandlers
  split
  · unfold noHandlers
    dsimp only
    split <;> exact ⟨fun _ => rfl, fun _ => rfl⟩
  · exact (SameOutputs.refl g).reporting

theorem reporting_handle (g : Registry) (i : LoggerId) (r : Record) (s : Store) :
    Reporting g (g.handle i r s).1 := by
  unfold handle
  split
  · exact (SameOutputs.refl g).reporting
  · split
    · exact (SameOutputs.refl g).reporting
    · exact g.reporting_callHandlers i _ _

theorem reporting_dispatch (g : Registry) (i : LoggerId) (level : Level) (e : Event)
    (caller : CallSite) (s : Store) : Reporting g (g.dispatch i level e caller s).2.1 := by
  unfold dispatch
  split
  · exact (SameOutputs.refl g).reporting
  · exact g.reporting_handle i _ s

theorem reporting_logEvent (g : Registry) (i : LoggerId) (level : Level) (e : Event)
    (caller : CallSite) (s : Store) : Reporting g (g.logEvent i level e caller s).2.1 := by
  have hsame := (g.sameButMemos_isEnabledFor i level).sameOutputs
  unfold logEvent
  split
  · next g' heq =>
    rw [heq] at hsame
    exact hsame.reporting
  · next g' heq =>
    rw [heq] at hsame
    exact hsame.trans_reporting (g'.reporting_dispatch i level e caller s)

theorem reporting_log (g : Registry) (i : LoggerId) (level : Level) (e : Event) (caller : CallSite)
    (s : Store) : Reporting g (g.log i level e caller s).1 := by
  have hlog := g.reporting_logEvent i level e caller s
  unfold log
  split <;> next heq =>
    rw [heq] at hlog
    exact hlog

theorem reporting_logInPlace (g : Registry) (i : LoggerId) (level : Level) (e : Event) (s : Store) :
    Reporting g (g.logInPlace i level e s).1 := by
  have hsame := (g.sameButMemos_isEnabledFor i level).sameOutputs
  unfold logInPlace
  split
  · next g' heq =>
    rw [heq] at hsame
    exact hsame.reporting
  · next g' heq =>
    rw [heq] at hsame
    have hlog := g'.reporting_logEvent i level e CallSite.unknown s
    split <;> next heq' =>
      rw [heq'] at hlog
      exact hsame.trans_reporting hlog

/-! ## Runs -/

/-- A turn takes back no report, and no logger gets a handler twice. -/
theorem outputs_turn (h : g.Attached) (t : Turn) (s : Store) :
    (g.turn s t).1.Attached ∧ (g.warned = true → (g.turn s t).1.warned = true) := by
  have hrecord : ∀ {g' : Registry}, Reporting g g' →
      g'.Attached ∧ (g.warned = true → g'.warned = true) := fun hreport =>
    ⟨fun j => (hreport.handlers j).symm ▸ h j, hreport.warned⟩
  cases t with
  | call c =>
    obtain ⟨hattached, hwarned⟩ := outputs_call h c
    exact ⟨hattached, fun hw => hwarned.trans hw⟩
  | drop held => exact ⟨h.drop held, id⟩
  | callHandlers i r => exact hrecord (g.reporting_callHandlers i r s)
  | handle i r => exact hrecord (g.reporting_handle i r s)
  | log i level e caller => exact hrecord (g.reporting_log i level e caller s)
  | logInPlace i level e => exact hrecord (g.reporting_logInPlace i level e s)
  | elsewhere s' => exact ⟨h, id⟩

/-- After any turns no logger holds a handler twice. -/
theorem Turns.attached (h : Turns past g s) : g.Attached := by
  induction h with
  | new lastResort? s =>
    intro i
    cases i <;> exact List.nodup_nil
  | turn t _ ih => exact (outputs_turn ih t _).1

/-- **Reports**: a turn reports that a record found no handler, if it finds that not
    reported yet and leaves it reported. -/
def reports (p : Registry × Registry) : Bool := !p.1.warned && p.2.warned

/-- Over all turns there is one report if the registry has reported, and none
    otherwise. -/
theorem Turns.count_reports (h : Turns past g s) :
    past.countP reports = if g.warned then 1 else 0 := by
  induction h with
  | new lastResort? s => rfl
  | @turn past g s t before ih =>
    -- Once reported, always reported: a later turn cannot count again.
    have hkept := (outputs_turn before.attached t s).2
    rw [List.countP_append, ih, List.countP_singleton]
    cases hwarned : g.warned with
    | true => simp [reports, hwarned, hkept hwarned]
    | false => simp [reports, hwarned]

end Registry

end Logbook
