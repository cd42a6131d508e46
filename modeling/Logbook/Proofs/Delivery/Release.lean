import Logbook.Proofs.Delivery.Steps
import Logbook.Store.Release

/-! # What closing and letting go does to the store

    A handler that is closed counts as closed, and its sink hands on what it has and is
    closed; one that is let go is closed and counts as let go.  Either lets go of its
    target in turn.  These are the steps of a record but for two things: the handler may
    lose its target, and it may count as let go.
-/

namespace Logbook.Store

/-- Handlers lose a holder one after the other. -/
def letGoAll (s : Store) (idle : List HandlerId) (hs : List HandlerId) : Store :=
  hs.foldl (fun s h => s.letGoAmong idle h) s

variable {P : HandlerId → Prop} {s : Store} {h k : HandlerId} {handler : Handler}

/-! ## Closing -/

/-- What a memory sink does when it is closed, in one line. -/
theorem closeAmong_memory {idle : List HandlerId} {m : MemorySink}
    (hk : s.handlers[k]? = some handler) (hopen : handler.closed = false) (hmem : k ∈ idle)
    (hsink : handler.sink = .memory m) :
    s.closeAmong idle k = (.ok (),
      let s := ((s.modify k ({ · with closed := true })).setSink k (.memory m.finish.2)).forward
        (others idle k) m.finish.1
      (s.setSink k (.memory m.closed)).letGoAll (others idle k) m.target?.toList) := by
  rw [closeAmong, hk]
  dsimp only
  rw [hopen, if_neg Bool.false_ne_true, dif_pos hmem, hsink]
  dsimp only
  have hfinish : (if m.flushOnClose = true then m.drain else (none, m)) = m.finish := rfl
  rw [hfinish]
  cases m.target? <;> rfl

/-- What any other sink does when it is closed. -/
theorem closeAmong_plain {idle : List HandlerId} (hk : s.handlers[k]? = some handler)
    (hopen : handler.closed = false) (hmem : k ∈ idle) (hplain : ∀ m, handler.sink ≠ .memory m) :
    s.closeAmong idle k = ((handler.sink.close s.world).1,
      (s.modify k ({ · with closed := true })).setSink k (handler.sink.close s.world).2) := by
  rw [closeAmong, hk]
  dsimp only
  rw [hopen, if_neg Bool.false_ne_true, dif_pos hmem]
  cases hsink : handler.sink with
  | memory m => exact absurd hsink (hplain m)
  | _ => rfl

/-- A handler that is closed counts as closed first, and what follows is steps of it and of
    those to which its targets lead, if to let go of its target is. -/
theorem steps_of_mark {idle : List HandlerId} (hk : s.handlers[k]? = some handler)
    (hopen : handler.closed = false) (hmem : k ∈ idle) (hP : P k) (henc : s.Encloses P)
    (hlet : ∀ s t, P t → s.Encloses P → Steps Handler.Lasts P s (s.letGoAmong (others idle k) t)) :
    Steps Handler.Lasts P (s.modify k ({ · with closed := true })) (s.closeAmong idle k).2 := by
  have hmark := handlers_modify hk ({ · with closed := true })
  have henc₁ : (s.modify k ({ · with closed := true })).Encloses P :=
    henc.steps ((steps_mark (P := P) s hP).mono fun _ _ hr => hr.lasts)
  by_cases hmemory : ∃ m, handler.sink = .memory m
  · obtain ⟨m, hsink⟩ := hmemory
    rw [closeAmong_memory hk hopen hmem hsink]
    dsimp only
    generalize s.modify k ({ · with closed := true }) = s₁ at hmark henc₁ ⊢
    have htarget : ∀ t, m.target? = some t → P t :=
      fun t ht => henc k t hP ((targetOf?_memory hk hsink).trans ht)
    -- The sink hands on what it has, forgets its target and lets go of it.
    have hdrain : Steps Handler.Remains P s₁ (s₁.setSink k (.memory m.finish.2)) :=
      steps_setSink s₁ hP hmark (by rw [hsink]; rfl) (by rw [hsink]; exact m.target?_finish)
    have hforward := hdrain.trans (steps_forward (others idle k)
      (henc₁.steps (hdrain.mono fun _ _ hr => hr.lasts))
      fun t _ hjob => htarget t (m.target_of_finish hjob))
    generalize (s₁.setSink k (.memory m.finish.2)).forward (others idle k) m.finish.1 = s₂
      at hforward ⊢
    have hclose : Steps Handler.Lasts P s₂ (s₂.setSink k (.memory m.closed)) := by
      refine .one hP (.change fun x hx => ?_)
      obtain ⟨y, hy, hremains⟩ := hforward.handler .refl .trans hmark
      obtain rfl : y = x := Option.some.inj (hy.symm.trans hx)
      refine ⟨congrArg (Prod.mk _) ?_, nofun, id⟩
      rw [hremains.name, hsink]
      rfl
    have hshut := (hforward.mono fun _ _ hr => hr.lasts).trans hclose
    refine hshut.trans ?_
    cases hm : m.target? with
    | none => exact .refl _
    | some t => exact hlet _ t (htarget t hm) (henc₁.steps hshut)
  · have hplain : ∀ m, handler.sink ≠ .memory m := fun m hsink => hmemory ⟨m, hsink⟩
    rw [closeAmong_plain hk hopen hmem hplain]
    refine .one hP (.change fun x hx => ?_)
    obtain rfl := Option.some.inj (hmark.symm.trans hx)
    exact ⟨congrArg (Prod.mk _) (Sink.name_close s.world handler.sink),
      fun t => Sink.target?_close, id⟩

theorem steps_closeAmong_of {idle : List HandlerId} (hP : P k) (henc : s.Encloses P)
    (hlet : k ∈ idle → ∀ s t, P t → s.Encloses P →
      Steps Handler.Lasts P s (s.letGoAmong (others idle k) t)) :
    Steps Handler.Lasts P s (s.closeAmong idle k).2 := by
  cases hk : s.handlers[k]? with
  | none =>
    rw [closeAmong, hk]
    exact .refl s
  | some handler =>
    cases hclosed : handler.closed with
    | true =>
      rw [closeAmong, hk]
      dsimp only
      rw [hclosed, if_pos rfl]
      exact .refl s
    | false =>
      by_cases hmem : k ∈ idle
      · exact ((steps_mark s hP).mono fun _ _ hr => hr.lasts).trans
          (steps_of_mark hk hclosed hmem hP henc (hlet hmem))
      · rw [closeAmong, hk]
        dsimp only
        rw [hclosed, if_neg Bool.false_ne_true, dif_neg hmem]
        exact (steps_closeAtWork s hP).mono fun _ _ hr => hr.lasts

/-- **To let go of a handler** takes steps of it and of those to which its targets lead: by
    induction on the number of handlers that are not at work. -/
theorem steps_letGoAmong (idle : List HandlerId) (s : Store) (hP : P k) (henc : s.Encloses P) :
    Steps Handler.Lasts P s (s.letGoAmong idle k) := by
  induction hn : idle.length using Nat.strongRecOn generalizing idle s k with
  | _ n ih =>
    have hlet : k ∈ idle → ∀ s t, P t → s.Encloses P →
        Steps Handler.Lasts P s (s.letGoAmong (others idle k) t) :=
      fun hmem s t hP henc => ih _ (hn ▸ length_others_lt hmem) _ s hP henc rfl
    have hclose := steps_closeAmong_of hP henc hlet
    rw [letGoAmong]
    split
    · exact .refl s
    · have hcomplain : Steps Handler.Lasts P s
          ((s.closeAmong idle k).2.complainOfRelease (s.closeAmong idle k).1) := by
        refine hclose.trans (.one hP ?_)
        cases (s.closeAmong idle k).1 <;> exact .around rfl rfl rfl
      have hreleased := hcomplain.trans (.one hP (.change fun _ _ => ⟨rfl, fun _ => id, id⟩) :
        Steps _ P _ (Store.modify _ k ({ · with released := true })))
      dsimp only
      split
      · exact hreleased
      · next t ht =>
        split
        · next hmem =>
          have hPt : P t := (henc.steps hcomplain) k t hP ht
          exact hreleased.trans (hlet hmem _ t hPt (henc.steps hreleased))
        · exact hreleased

theorem steps_closeAmong (idle : List HandlerId) (s : Store) (hP : P k) (henc : s.Encloses P) :
    Steps Handler.Lasts P s (s.closeAmong idle k).2 :=
  steps_closeAmong_of hP henc fun _ s _ => steps_letGoAmong _ s

end Logbook.Store
