import Logbook.Proofs.Delivery.Frame
import Logbook.Proofs.Delivery.Turns

/-! # The handlers that get a record

    A record that a logger lets pass goes to the handlers of that logger and of
    those above it, up to the first that does not propagate, where the level of a
    handler is not above that of the record.  Which handlers these are is settled
    before the first of them is called: no outcome of a sink changes a level, a
    list of handlers or the level of the record.
-/

namespace Logbook.Registry

variable {g g' : Registry} {i j : LoggerId} {r r' : Record} {s s' : Store}
  {past : List (Registry × Registry)}

/-! ## Offers -/

/-- Calls handlers one after the other, each with the record as the one before has
    left it. -/
def callEach : List HandlerId → Record → Store → Record × Store
  | [], r, s => (r, s)
  | h :: hs, r, s =>
    let (_, r, s) := s.deliver h r
    callEach hs r s

/-- Those of some handlers whose level is not above a given one. -/
def upTo (s : Store) (level : Level) (hs : List HandlerId) : List HandlerId :=
  hs.filter fun h => s.levelOf h ≤ level

/-- The levels of handlers decide who is called, whatever becomes of the record on
    the way. -/
theorem upTo_congr (h : Store.Kept s s') (level : Level) (hs : List HandlerId) :
    upTo s' level hs = upTo s level hs := by
  simp only [upTo, h.levelOf_eq]

/-- To offer a record to handlers is to call those whose level is not above that of
    the record. -/
theorem offerAll_eq (hs : List HandlerId) (r : Record) (s : Store) :
    offerAll hs r s = callEach (upTo s r.level hs) r s := by
  induction hs generalizing r s with
  | nil => rfl
  | cons h hs ih =>
    by_cases hlevel : s.levelOf h ≤ r.level
    · -- The call changes no level, so the rest is chosen as it was before.
      have hframe := s.frame_deliver h r
      have hrest : upTo (s.deliver h r).2.2 (s.deliver h r).2.1.level hs = upTo s r.level hs := by
        rw [upTo_congr hframe.kept]
        exact congrArg (upTo s · hs) hframe.event.level_eq
      have hfirst : upTo s r.level (h :: hs) = h :: upTo s r.level hs := by
        simp [upTo, hlevel]
      rw [hfirst]
      simp only [offerAll, offer, hlevel, if_true, callEach]
      rw [ih, hrest]
    · have hfirst : upTo s r.level (h :: hs) = upTo s r.level hs := by
        simp [upTo, hlevel]
      rw [hfirst]
      simp only [offerAll, offer, hlevel, if_false]
      exact ih r s

/-! ## Finding handlers -/

/-- What is reported of a record without a handler: one line, the first time. -/
def noHandlersReport (g : Registry) (i : LoggerId) : List String :=
  if g.warned then [] else ["No handlers could be found for logger \"" ++ (g.logger i).name ++ "\""]

/-- A logger has handlers exactly if there are some on the way. -/
theorem hasHandlers_iff : g.hasHandlers i = true ↔ ∃ j ∈ g.route i, (g.logger j).handlers ≠ [] := by
  simp [hasHandlers]

/-- Without handlers on the way there are none to call. -/
theorem handlersFrom_eq_nil_iff : g.handlersFrom i = [] ↔ g.hasHandlers i = false := by
  rw [← Bool.not_eq_true, hasHandlers_iff]
  simp [handlersFrom]

/-- A record that finds no handler is reported the first time, and goes to the
    handler of last resort if its level allows. -/
theorem noHandlers_eq (g : Registry) (i : LoggerId) (r : Record) (s : Store) :
    g.noHandlers i r s = ({ g with warned := true },
      (callEach (upTo s r.level g.lastResort?.toList) r (s.report (g.noHandlersReport i))).2) := by
  have hreport : (if g.warned then s
      else s.report ["No handlers could be found for logger \"" ++ (g.logger i).name ++ "\""]) =
        s.report (g.noHandlersReport i) := by
    unfold noHandlersReport
    split <;> rfl
  unfold noHandlers
  rw [hreport]
  dsimp only
  cases g.lastResort? with
  | none => rfl
  | some h =>
    have hlevels : upTo (s.report (g.noHandlersReport i)) r.level [h] = upTo s r.level [h] :=
      upTo_congr (Store.kept_of_handlers_eq rfl) r.level [h]
    rw [Option.toList_some, ← hlevels, ← offerAll_eq]
    rfl

/-- The handlers on the way of a record are called, and nobody else; if there are
    none at all, the handler of last resort. -/
theorem callHandlers_eq (g : Registry) (i : LoggerId) (r : Record) (s : Store) :
    g.callHandlers i r s =
      if g.hasHandlers i then (g, (callEach (upTo s r.level (g.handlersFrom i)) r s).2)
      else ({ g with warned := true },
        (callEach (upTo s r.level g.lastResort?.toList) r
          (s.report (g.noHandlersReport i))).2) := by
  unfold callHandlers
  cases hfrom : g.handlersFrom i with
  | nil =>
    have hnone : g.hasHandlers i = false := handlersFrom_eq_nil_iff.mp hfrom
    rw [hnone]
    exact g.noHandlers_eq i r s
  | cons h hs =>
    have hsome : g.hasHandlers i = true := by
      by_contra hnone
      rw [Bool.not_eq_true, ← handlersFrom_eq_nil_iff, hfrom] at hnone
      cases hnone
    rw [hsome, if_pos rfl, ← offerAll_eq]

/-! ## What plays no part -/

/-- **The same ways**: links, lives, propagation and handlers of all loggers are the
    same, and what is done about records without a handler.  Nothing is said of
    levels, filters, disabled loggers, names and kept answers. -/
structure SameWays (g g' : Registry) : Prop where
  size : g'.loggers.size = g.loggers.size
  link : ∀ j, (g'.logger j).parent? = (g.logger j).parent?
  gone : ∀ j, (g'.logger j).gone = (g.logger j).gone
  propagate : ∀ j, (g'.logger j).propagate = (g.logger j).propagate
  handlers : ∀ j, (g'.logger j).handlers = (g.logger j).handlers
  lastResort : g'.lastResort? = g.lastResort?
  warned : g'.warned = g.warned

/-- The same ways lead along the same loggers. -/
theorem SameWays.route_eq (h : SameWays g g') (i : LoggerId) : g'.route i = g.route i := by
  have hparent : ∀ j, g'.parent? j = g.parent? j := fun j => parent?_congr h.size h.gone (h.link j)
  have hup : ∀ n i, g'.routeUpTo n i = g.routeUpTo n i := by
    intro n
    induction n with
    | zero => intro i; rfl
    | succ n ih =>
      intro i
      simp only [routeUpTo, hparent, h.propagate, ih]
  rw [route, route, h.size, hup]

/-- A logger does the same with a record wherever the ways are the same, if it is
    the same itself. -/
theorem SameWays.handle_eq (h : SameWays g g') (hself : g'.logger i = g.logger i) (r : Record)
    (s : Store) : (g'.handle i r s).2 = (g.handle i r s).2 := by
  have hfrom : g'.handlersFrom i = g.handlersFrom i := by
    simp only [handlersFrom, h.route_eq, h.handlers]
  have hhas : g'.hasHandlers i = g.hasHandlers i := by
    simp only [hasHandlers, h.route_eq, h.handlers]
  have hreport : g'.noHandlersReport i = g.noHandlersReport i := by
    simp only [noHandlersReport, h.warned, hself]
  have hcall : ∀ r s, (g'.callHandlers i r s).2 = (g.callHandlers i r s).2 := by
    intro r s
    rw [callHandlers_eq, callHandlers_eq, hhas, hfrom, hreport, h.lastResort]
    split <;> rfl
  unfold handle
  rw [hself]
  split
  · rfl
  · split
    · rfl
    · exact hcall _ _

/-! ## Dispatch -/

/-- **Who gets a record.**  After any turns of a program, if there is no loop: a
    disabled logger and one with a filter that rejects call no handler.  Otherwise
    the handlers on the path from the logger to the first that does not propagate
    are called whose level is not above that of the record, each once per
    attachment and in that order; and if there is none on the path, whatever its
    level, the handler of last resort, after the report.  The loggers above play a
    part by links, propagation and handlers alone.  At most one report was ever
    made. -/
theorem Turns.dispatch (h : Turns past g s) (hacyclic : g.Acyclic) (i : LoggerId) (r : Record) :
    (∃ path, Trail g.onward? i path ∧ (∀ j ∈ path, (g.logger j).handlers.Nodup) ∧
      (g.hasHandlers i = true ↔ ∃ j ∈ path, (g.logger j).handlers ≠ []) ∧
      ((g.logger i).disabled = true → g.handle i r s = (g, s)) ∧
      ∀ accepted r' s', Store.screen (g.logger i).filters r s = (accepted, r', s') →
        (g.logger i).disabled = false →
        { s' with filters := s.filters } = s ∧ r.SameEvent r' ∧
        g.handle i r s =
          if accepted = false then (g, s')
          else if g.hasHandlers i then
            (g, (callEach (upTo s r.level (path.flatMap fun j => (g.logger j).handlers)) r' s').2)
          else ({ g with warned := true },
            (callEach (upTo s r.level g.lastResort?.toList) r'
              (s'.report (g.noHandlersReport i))).2)) ∧
    (∀ g', SameWays g g' → g'.logger i = g.logger i →
      (g'.handle i r s).2 = (g.handle i r s).2) ∧
    past.countP reports ≤ 1 := by
  refine ⟨⟨g.route i, hacyclic.trail_route i, fun j _ => h.attached j, hasHandlers_iff, ?_, ?_⟩,
    fun g' hways hself => hways.handle_eq hself r s, ?_⟩
  · intro hdisabled
    unfold handle
    rw [if_pos hdisabled]
  · intro accepted r' s' hscreen hdisabled
    obtain ⟨hevent, hstore⟩ := Store.screen_frame (g.logger i).filters r s
    have hframe := Store.frame_screen (g.logger i).filters r s
    -- The filters have changed neither the level of the record nor that of a handler.
    rw [hscreen] at hevent hstore hframe
    refine ⟨hstore, hevent, ?_⟩
    unfold handle
    rw [if_neg (by simp [hdisabled]), hscreen]
    cases accepted with
    | false => rfl
    | true =>
      dsimp only
      rw [if_neg (by simp), callHandlers_eq, hevent.level_eq]
      rw [upTo_congr hframe.kept, upTo_congr hframe.kept]
      rfl
  · rw [h.count_reports]
    split <;> omega

/-- A warning passes the first handler by, and the panic of the second does not keep
    it from the third, which the root has. -/
theorem dispatch_past_panic :
    let g := (((({} : Registry).getLogger "a").2.addHandler 1 0).addHandler 1 1).addHandler rootId 2
    let r := Record.simple "a" Level.warning "late" default
    let s : Store :=
      { origin := default
        handlers := #[{ sink := .probe {}, level := Level.error },
          { sink := .probe { react := fun _ => .panic none } }, { sink := .probe {} }] }
    g.Acyclic ∧ g.handle 1 r s = (g, (callEach [1, 2] r s).2) := by
  intro g r s
  have hturns : Turns _ g s :=
    ((((Turns.new none s).turn (.call (.getLogger "a"))).turn (.call (.addHandler 1 0))).turn
      (.call (.addHandler 1 1))).turn (.call (.addHandler rootId 2))
  have hacyclic : g.Acyclic := acyclic_of_parent_lt (by decide)
  obtain ⟨⟨path, htrail, -, -, -, hcall⟩, -, -⟩ := hturns.dispatch hacyclic 1 r
  have hpath : path = [1, rootId] :=
    htrail.unique (.step (by decide) (.last (by decide)))
  obtain ⟨-, -, hhandle⟩ := hcall true r s rfl rfl
  have hcalled : upTo s r.level ([1, rootId].flatMap fun j => (g.logger j).handlers) = [1, 2] := by
    decide
  have hfound : g.hasHandlers 1 = true := by decide
  rw [hpath, hcalled, hfound, if_neg (by decide), if_pos rfl] at hhandle
  exact ⟨hacyclic, hhandle⟩

end Logbook.Registry
