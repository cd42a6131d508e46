import Logbook.Proofs.Hierarchy.Registered

/-! # Levels and the answers that are kept

    The level that governs a logger is found by a walk along the parents.  A
    registry keeps the answers of such walks with the loggers, stamped with the
    number of changes so far.  A change of a level, of a parent or of the threshold
    counts up, so that all answers from before are out of date.  As long as the
    count has not come round, an answer that is still in date is the one that a
    walk would give now.
-/

namespace Logbook

/-! ## Stamps -/

/-- What is left of kept answers carries the stamp that was asked for. -/
@[simp] theorem LevelMemo.epoch_current (m : LevelMemo) (epoch : UInt64) :
    (m.current epoch).epoch = epoch := by
  unfold current
  split
  · next h => exact h
  · rfl

/-- Answers with the right stamp are all there. -/
@[simp] theorem LevelMemo.current_of_eq {m : LevelMemo} {epoch : UInt64} (h : m.epoch = epoch) :
    m.current epoch = m := if_pos h

/-- Of answers with another stamp nothing is left. -/
theorem LevelMemo.current_of_ne {m : LevelMemo} {epoch : UInt64} (h : m.epoch ≠ epoch) :
    m.current epoch = { epoch } := if_neg h

namespace Registry

variable {g g' : Registry} {i j p : LoggerId} {ℓ ℓ' level : Level} {c : Call}
  {steps : List (Registry × Call)}

/-! ## The level that governs a logger -/

/-- **Governs**: the level of the first logger on the way upwards that has one of
    its own, or of the last logger on the way. -/
inductive Governs (g : Registry) : LoggerId → Level → Prop where
  | own {i : LoggerId} (h : (g.logger i).level ≠ Level.notset) : Governs g i (g.logger i).level
  | last {i : LoggerId} (h : g.parent? i = none) : Governs g i (g.logger i).level
  | inherited {i p : LoggerId} {ℓ : Level} (h : (g.logger i).level = Level.notset)
      (hparent : g.parent? i = some p) (above : Governs g p ℓ) : Governs g i ℓ

/-- One level governs a logger. -/
theorem Governs.unique (h : Governs g i ℓ) (h' : Governs g i ℓ') : ℓ = ℓ' := by
  induction h with
  | own hset =>
    cases h' with
    | own _ => rfl
    | last _ => rfl
    | inherited hnotset _ _ => exact absurd hnotset hset
  | last hnone =>
    cases h' with
    | own _ => rfl
    | last _ => rfl
    | inherited _ hparent _ => rw [hnone] at hparent; cases hparent
  | inherited hnotset hparent _ ih =>
    cases h' with
    | own hset => exact absurd hnotset hset
    | last hnone => rw [hnone] at hparent; cases hparent
    | inherited _ hparent' above' =>
      rw [hparent] at hparent'
      injection hparent' with hp
      subst hp
      exact ih above'

/-- The first level that is set along a trail governs its start. -/
theorem governs_of_trail {l : List LoggerId} (h : Trail g.parent? i l) :
    Governs g i
      (((l.map fun j => (g.logger j).level).find? (· ≠ Level.notset)).getD Level.notset) := by
  induction h with
  | @last i hnone =>
    have hlast := Governs.last hnone
    by_cases hset : (g.logger i).level = Level.notset
    · simpa [hset] using hlast
    · simpa [hset] using hlast
  | @step i p l hsome rest ih =>
    by_cases hset : (g.logger i).level = Level.notset
    · simpa [hset] using Governs.inherited hset hsome ih
    · simpa [hset] using Governs.own hset

/-- Without a loop the level that is inherited is the one that governs. -/
theorem Acyclic.governs_iff (h : g.Acyclic) : Governs g i ℓ ↔ g.inheritedLevel i = ℓ := by
  have hgoverns : Governs g i (g.inheritedLevel i) := governs_of_trail (h.trail_line i)
  constructor
  · exact fun hℓ => hgoverns.unique hℓ
  · rintro rfl
    exact hgoverns

/-! ## What the answers depend on -/

/-- **The same levels**: the links, the lives and the levels of all loggers and
    the threshold are as they were. -/
structure SameLevels (g g' : Registry) : Prop where
  size : g'.loggers.size = g.loggers.size
  link : ∀ j, (g'.logger j).parent? = (g.logger j).parent?
  gone : ∀ j, (g'.logger j).gone = (g.logger j).gone
  level : ∀ j, (g'.logger j).level = (g.logger j).level
  disable : g'.disable = g.disable

/-- The same levels are inherited in the same way. -/
theorem SameLevels.inheritedLevel_eq (h : SameLevels g g') (i : LoggerId) :
    g'.inheritedLevel i = g.inheritedLevel i := by
  have hline : g'.line i = g.line i :=
    line_congr h.size (fun j => parent?_congr h.size h.gone (h.link j)) i
  simp only [inheritedLevel, hline, h.level]

/-- A change that keeps link, life and level of a logger keeps the levels. -/
theorem sameLevels_modify (g : Registry) (i : LoggerId) (f : Logger → Logger)
    (hlink : ∀ x, (f x).parent? = x.parent?) (hgone : ∀ x, (f x).gone = x.gone)
    (hlevel : ∀ x, (f x).level = x.level) : SameLevels g (g.modify i f) :=
  ⟨size_modify g i f, logger_modify_congr Logger.parent? f hlink g i,
    logger_modify_congr Logger.gone f hgone g i, logger_modify_congr Logger.level f hlevel g i, rfl⟩

/-- Levels do not depend on what is kept. -/
theorem SameButMemos.sameLevels (h : SameButMemos g g') : SameLevels g g' where
  size := h.size
  link := h.view_eq Logger.parent? fun _ _ => rfl
  gone := h.view_eq Logger.gone fun _ _ => rfl
  level := h.view_eq Logger.level fun _ _ => rfl
  disable := by rw [h.rest]

/-- The stamp does not depend on what is kept. -/
theorem SameButMemos.epoch_eq (h : SameButMemos g g') : g'.epoch = g.epoch := by
  rw [h.rest]

theorem SameLevels.refl (g : Registry) : SameLevels g g :=
  ⟨rfl, fun _ => rfl, fun _ => rfl, fun _ => rfl, rfl⟩

/-! ## Coherence -/

/-- **Coherent**: no kept answer has a stamp from the future, and those that are in
    date are what a walk would find. -/
structure Coherent (g : Registry) : Prop where
  stamp_le : ∀ i, (g.logger i).memo.epoch ≤ g.epoch
  effective : ∀ i ℓ, ((g.logger i).memo.current g.epoch).effective? = some ℓ →
    g.inheritedLevel i = ℓ
  enabled : ∀ i v b, (v, b) ∈ ((g.logger i).memo.current g.epoch).enabled →
    (b = true ↔ g.disable < v ∧ g.inheritedLevel i ≤ v)

/-- Answers in date that are right can be kept. -/
theorem Coherent.keep (h : g.Coherent) (i : LoggerId) (memo : LevelMemo)
    (hepoch : memo.epoch = g.epoch)
    (heffective : ∀ ℓ, memo.effective? = some ℓ → g.inheritedLevel i = ℓ)
    (henabled : ∀ v b, (v, b) ∈ memo.enabled →
      (b = true ↔ g.disable < v ∧ g.inheritedLevel i ≤ v)) :
    (g.modify i ({ · with memo })).Coherent := by
  have hsame : SameLevels g (g.modify i ({ · with memo })) :=
    ((SameButMemos.refl g).keep i memo).sameLevels
  have hmemo : ∀ j, ((g.modify i ({ · with memo })).logger j).memo = (g.logger j).memo ∨
      j = i ∧ ((g.modify i ({ · with memo })).logger j).memo = memo := by
    intro j
    rw [logger_modify]
    split
    · next hij => exact .inr ⟨hij.1.symm, rfl⟩
    · exact .inl rfl
  -- The other loggers have the answers that they had.
  refine ⟨fun j => ?_, fun j ℓ => ?_, fun j v b => ?_⟩
  · rcases hmemo j with heq | ⟨-, heq⟩
    · rw [heq]
      exact h.stamp_le j
    · rw [heq, hepoch]
      exact UInt64.le_refl _
  · rw [hsame.inheritedLevel_eq]
    rcases hmemo j with heq | ⟨rfl, heq⟩
    · rw [heq]
      exact h.effective j ℓ
    · rw [heq]
      show (memo.current g.epoch).effective? = some ℓ → _
      rw [LevelMemo.current_of_eq hepoch]
      exact heffective ℓ
  · rw [hsame.inheritedLevel_eq]
    rcases hmemo j with heq | ⟨rfl, heq⟩
    · rw [heq]
      exact h.enabled j v b
    · rw [heq]
      show (v, b) ∈ (memo.current g.epoch).enabled → _
      rw [LevelMemo.current_of_eq hepoch]
      exact henabled v b

/-- An answer for a level that is right can be kept on top of those in date. -/
theorem Coherent.keepEnabled (h : g.Coherent) (i : LoggerId) (v : Level) (b : Bool)
    (hb : b = true ↔ g.disable < v ∧ g.inheritedLevel i ≤ v) :
    (g.modify i ({ · with memo := { (g.logger i).memo.current g.epoch with
      enabled := (v, b) :: ((g.logger i).memo.current g.epoch).enabled } })).Coherent := by
  refine h.keep i _ (by simp) (h.effective i) fun v' b' hmem => ?_
  rcases List.mem_cons.mp hmem with heq | hin
  · injection heq with hv' hb'
    subst hv' hb'
    exact hb
  · exact h.enabled i v' b' hin

/-- A coherent registry gives the inherited level and stays coherent. -/
theorem Coherent.effectiveLevel_spec (h : g.Coherent) (i : LoggerId) :
    (g.effectiveLevel i).1 = g.inheritedLevel i ∧ (g.effectiveLevel i).2.Coherent := by
  unfold effectiveLevel
  dsimp only
  cases hmemo : ((g.logger i).memo.current g.epoch).effective? with
  | some ℓ => exact ⟨(h.effective i ℓ hmemo).symm, h⟩
  | none =>
    refine ⟨rfl, h.keep i _ ?_ ?_ ?_⟩
    · simp
    · intro ℓ hℓ
      injection hℓ
    · exact h.enabled i

/-- A coherent registry lets a record pass exactly if the logger is not disabled
    and the level is above the threshold and not below the inherited one; it stays
    coherent. -/
theorem Coherent.isEnabledFor_spec (h : g.Coherent) (i : LoggerId) (v : Level) :
    ((g.isEnabledFor i v).1 = true ↔
      (g.logger i).disabled = false ∧ g.disable < v ∧ g.inheritedLevel i ≤ v) ∧
      (g.isEnabledFor i v).2.Coherent := by
  unfold isEnabledFor
  by_cases hdisabled : (g.logger i).disabled = true
  · rw [if_pos hdisabled]
    exact ⟨by simp [hdisabled], h⟩
  · rw [if_neg hdisabled]
    rw [Bool.not_eq_true] at hdisabled
    simp only [hdisabled, true_and]
    cases hlookup : ((g.logger i).memo.current g.epoch).enabled.lookup v with
    | some b =>
      obtain ⟨_, _, hsplit, -⟩ := List.lookup_eq_some_iff.mp hlookup
      exact ⟨h.enabled i v b (by simp [hsplit]), h⟩
    | none =>
      by_cases hle : v ≤ g.disable
      · simp only [hle, if_true]
        have hb : false = true ↔ g.disable < v ∧ g.inheritedLevel i ≤ v := by
          simp [← Level.not_le_iff, hle]
        exact ⟨hb, h.keepEnabled i v false hb⟩
      · -- The answer for the level is found by way of the one for the logger.
        simp only [hle, if_false]
        obtain ⟨hlevel, hcoherent⟩ := h.effectiveLevel_spec i
        have hsame := (g.sameButMemos_effectiveLevel i).sameLevels
        have hb : decide ((g.effectiveLevel i).1 ≤ v) = true ↔
            g.disable < v ∧ g.inheritedLevel i ≤ v := by
          rw [hlevel, decide_eq_true_iff, ← Level.not_le_iff]
          simp [hle]
        refine ⟨hb, hcoherent.keepEnabled i v _ ?_⟩
        rw [hsame.disable, hsame.inheritedLevel_eq]
        exact hb

/-! ## Calls -/

/-- **A counted change**: the stamp goes up by one, and no logger has new answers. -/
structure Counted (g g' : Registry) : Prop where
  epoch : g'.epoch = g.epoch + 1
  memo : ∀ j, (g'.logger j).memo = (g.logger j).memo ∨ (g'.logger j).memo = {}

/-- A change of one logger that keeps its answers is counted. -/
theorem counted_modify (g : Registry) (i : LoggerId) (f : Logger → Logger)
    (hmemo : ∀ x, (f x).memo = x.memo) : Counted g (g.modify i f).invalidate :=
  ⟨rfl, fun j => .inl (logger_modify_congr Logger.memo f hmemo g i j)⟩

/-- A new logger has no answers. -/
theorem Created.counted {name : String} (h : Created g g' name) : Counted g g' where
  epoch := by rw [h.rest]
  memo j := by
    by_cases hj : j = g.loggers.size
    · right
      rw [hj, h.new]
    · exact .inl (h.view_eq Logger.memo (fun _ _ => rfl) hj)

/-- A call is a counted change, or asks for a level, or leaves all levels and all
    answers alone. -/
theorem counted_cases (hwhole : g.Whole) (hreg : g.Registered) (c : Call) :
    Counted g (g.call c) ∨ (∃ i, c = .effectiveLevel i) ∨ (∃ i v, c = .isEnabledFor i v) ∨
    SameLevels g (g.call c) ∧ (g.call c).epoch = g.epoch ∧
      ∀ j, ((g.call c).logger j).memo = (g.logger j).memo := by
  -- The changes of one logger that concern neither its level nor its answers.
  have hother : ∀ i (f : Logger → Logger), (∀ x, (f x).parent? = x.parent?) →
      (∀ x, (f x).gone = x.gone) → (∀ x, (f x).level = x.level) → (∀ x, (f x).memo = x.memo) →
      SameLevels g (g.modify i f) ∧ (g.modify i f).epoch = g.epoch ∧
        ∀ j, ((g.modify i f).logger j).memo = (g.logger j).memo := by
    intro i f hlink hgone hlevel hmemo
    exact ⟨sameLevels_modify g i f hlink hgone hlevel, rfl,
      logger_modify_congr Logger.memo f hmemo g i⟩
  cases c with
  | getLogger name =>
    rcases call_getLogger g name with heq | ⟨-, -, -, heq⟩
    · rw [heq]
      exact .inr (.inr (.inr ⟨SameLevels.refl g, rfl, fun _ => rfl⟩))
    · rw [heq]
      exact .inl (hreg.created hwhole name).counted
  | setLevel i level => exact .inl (counted_modify g i _ fun _ => rfl)
  | setParent i p =>
    rcases call_setParent g i p with ⟨-, heq⟩ | ⟨-, heq⟩
    · rw [heq]
      exact .inr (.inr (.inr ⟨SameLevels.refl g, rfl, fun _ => rfl⟩))
    · rw [heq]
      exact .inl (counted_modify g i _ fun _ => rfl)
  | disable level => exact .inl ⟨rfl, fun _ => .inl rfl⟩
  | effectiveLevel i => exact .inr (.inl ⟨i, rfl⟩)
  | isEnabledFor i v => exact .inr (.inr (.inl ⟨i, v, rfl⟩))
  | setLastResort _ | setFactory _ | setResolver _ =>
    exact .inr (.inr (.inr
      ⟨⟨rfl, fun _ => rfl, fun _ => rfl, fun _ => rfl, rfl⟩, rfl, fun _ => rfl⟩))
  | setDisabled i _ | setPropagate i _ | addHandler i _ | removeHandler i _
  | clearHandlers i | addFilter i _ | removeFilter i _ | clearFilters i =>
    exact .inr (.inr (.inr
      (hother i _ (fun _ => rfl) (fun _ => rfl) (fun _ => rfl) (fun _ => rfl))))

/-- A counted change puts all answers out of date, as long as the count does not
    come round. -/
theorem Counted.coherent (h : Counted g g') (hcoherent : g.Coherent)
    (hlt : g.epoch.toNat < g'.epoch.toNat) : g'.Coherent := by
  have hle : ∀ j, (g'.logger j).memo.epoch ≤ g.epoch := by
    intro j
    rcases h.memo j with heq | heq <;> rw [heq]
    · exact hcoherent.stamp_le j
    · exact UInt64.zero_le
  -- Every stamp is from before the change, so nothing is in date.
  have hold : ∀ j, (g'.logger j).memo.current g'.epoch = { epoch := g'.epoch } := by
    intro j
    refine LevelMemo.current_of_ne fun heq => ?_
    have hstamp := UInt64.le_iff_toNat_le.mp (hle j)
    rw [heq] at hstamp
    exact Nat.not_lt.mpr hstamp hlt
  refine ⟨fun j => ?_, fun j ℓ => ?_, fun j v b => ?_⟩
  · exact UInt64.le_of_lt (UInt64.lt_of_le_of_lt (hle j) (UInt64.lt_iff_toNat_lt.mpr hlt))
  · rw [hold]
    intro hnone
    cases hnone
  · rw [hold]
    intro hnil
    cases hnil

/-- **Changed**: a level, a parent link or the threshold is another one. -/
def Changed (g g' : Registry) : Prop :=
  g'.disable ≠ g.disable ∨
    ∃ j, (g'.logger j).level ≠ (g.logger j).level ∨ (g'.logger j).parent? ≠ (g.logger j).parent?

/-- The same levels are no change. -/
theorem SameLevels.not_changed (h : SameLevels g g') : ¬ Changed g g' := by
  rintro (hdisable | ⟨j, hlevel | hlink⟩)
  · exact hdisable h.disable
  · exact hlevel (h.level j)
  · exact hlink (h.link j)

/-- A call on a coherent registry is a counted change, or it leaves the levels and
    the stamp alone and keeps the registry coherent. -/
theorem Coherent.call_cases (h : g.Coherent) (hwhole : g.Whole) (hreg : g.Registered) (c : Call) :
    Counted g (g.call c) ∨
      SameLevels g (g.call c) ∧ (g.call c).epoch = g.epoch ∧ (g.call c).Coherent := by
  rcases counted_cases hwhole hreg c with hcounted | ⟨i, rfl⟩ | ⟨i, v, rfl⟩ | ⟨hsame, hepoch, hmemo⟩
  · exact .inl hcounted
  · have hsame := g.sameButMemos_effectiveLevel i
    exact .inr ⟨hsame.sameLevels, hsame.epoch_eq, (h.effectiveLevel_spec i).2⟩
  · have hsame := g.sameButMemos_isEnabledFor i v
    exact .inr ⟨hsame.sameLevels, hsame.epoch_eq, (h.isEnabledFor_spec i v).2⟩
  · -- The same levels and the same answers.
    refine .inr ⟨hsame, hepoch, fun j => ?_, fun j => ?_, fun j => ?_⟩
    · rw [hmemo, hepoch]
      exact h.stamp_le j
    · rw [hmemo, hepoch, hsame.inheritedLevel_eq]
      exact h.effective j
    · rw [hmemo, hepoch, hsame.inheritedLevel_eq, hsame.disable]
      exact h.enabled j

/-! ## Runs -/

/-- The number of counted changes in a run. -/
def invalidations (steps : List (Registry × Call)) : Nat :=
  steps.countP fun s => (s.1.call s.2).epoch ≠ s.1.epoch

/-- A new registry has kept no answers. -/
theorem coherent_new (lastResort? : Option HandlerId) : Coherent { lastResort? } := by
  have hmemo : ∀ i, (({ lastResort? } : Registry).logger i).memo = {} := by
    intro i
    cases i <;> rfl
  refine ⟨fun i => ?_, fun i ℓ => ?_, fun i v b => ?_⟩ <;> rw [hmemo]
  · exact UInt64.zero_le
  · intro hnone
    cases hnone
  · intro hnil
    cases hnil

/-- As long as the count has not come round, the stamp is the number of changes, the
    registry is coherent, and the answers from before a change have an older
    stamp. -/
theorem Run.stamps (h : Run steps g) (hcount : invalidations steps < 2 ^ 64) :
    g.epoch.toNat = invalidations steps ∧ g.Coherent ∧
      ∀ s ∈ steps, Changed s.1 (s.1.call s.2) →
        ∀ j, (s.1.logger j).memo.epoch.toNat < g.epoch.toNat := by
  induction h with
  | new lastResort? => exact ⟨rfl, coherent_new lastResort?, fun s hs => absurd hs List.not_mem_nil⟩
  | @call steps g c before possible ih =>
    have hsplit : invalidations (steps ++ [(g, c)]) =
        invalidations steps + if (g.call c).epoch ≠ g.epoch then 1 else 0 := by
      simp [invalidations, List.countP_append, List.countP_cons]
    obtain ⟨hepoch, hcoherent, holder⟩ := ih (by omega)
    obtain ⟨hwhole, hreg⟩ := before.whole_registered
    -- Either the stamp goes up, or no level has changed.
    rcases hcoherent.call_cases hwhole hreg c with hcounted | ⟨hlevels, hsame, hcoherent'⟩
    · have hne : (g.call c).epoch ≠ g.epoch := by
        rw [hcounted.epoch]
        simp
      rw [if_pos hne] at hsplit
      -- The word does not come round: there were fewer than `2 ^ 64` changes.
      have hnext : (g.call c).epoch.toNat = g.epoch.toNat + 1 := by
        rw [hcounted.epoch, UInt64.toNat_add, hepoch]
        exact Nat.mod_eq_of_lt (hsplit ▸ hcount)
      refine ⟨by omega, hcounted.coherent hcoherent (by omega), fun s hs hchange j => ?_⟩
      -- Answers from before an earlier change are older still.
      rcases List.mem_append.mp hs with hin | hlast
      · have hlt := holder s hin hchange j
        omega
      · rw [List.mem_singleton.mp hlast]
        have hle := UInt64.le_iff_toNat_le.mp (hcoherent.stamp_le j)
        dsimp only
        omega
    · rw [if_neg (not_not.mpr hsame)] at hsplit
      refine ⟨by rw [hsame]; omega, hcoherent', fun s hs hchange j => ?_⟩
      rcases List.mem_append.mp hs with hin | hlast
      · rw [hsame]
        exact holder s hin hchange j
      · rw [List.mem_singleton.mp hlast] at hchange
        exact absurd hchange hlevels.not_changed

/-- **Kept levels are coherent.**  In every state of a run with fewer than `2 ^ 64`
    counted changes and without a loop, each logger answers with the level that
    governs it, and lets a record pass exactly if the logger is not disabled, the
    threshold is below the level of the record, and that level is not below the one
    that governs.  Of the answers that any logger had kept when a level, a link or
    the threshold changed, nothing is left to answer from. -/
theorem Run.levels_coherent (h : Run steps g) (hcount : invalidations steps < 2 ^ 64)
    (hacyclic : g.Acyclic) :
    (∀ i ℓ, (g.effectiveLevel i).1 = ℓ ↔ Governs g i ℓ) ∧
    (∀ i v, (g.isEnabledFor i v).1 = true ↔
      (g.logger i).disabled = false ∧ g.disable < v ∧ ∃ ℓ, Governs g i ℓ ∧ ℓ ≤ v) ∧
    ∀ s ∈ steps, Changed s.1 (s.1.call s.2) →
      ∀ j, (s.1.logger j).memo.current g.epoch = { epoch := g.epoch } := by
  obtain ⟨-, hcoherent, holder⟩ := h.stamps hcount
  refine ⟨fun i ℓ => ?_, fun i v => ?_, fun s hs hchanged j => ?_⟩
  · rw [(hcoherent.effectiveLevel_spec i).1, hacyclic.governs_iff]
  · rw [(hcoherent.isEnabledFor_spec i v).1]
    simp only [hacyclic.governs_iff, exists_eq_left']
  · refine LevelMemo.current_of_ne fun heq => ?_
    have hlt := holder s hs hchanged j
    rw [heq] at hlt
    exact Nat.lt_irrefl _ hlt

/-- A logger that has answered with the level of the root answers with that of its
    parent after the parent got one. -/
theorem levels_coherent_after_setLevel :
    let g₁ := ((({} : Registry).getLogger "a").2.getLogger "a.b").2.call (.effectiveLevel 2)
    let g := g₁.call (.setLevel 1 Level.debug)
    g.Acyclic ∧ Governs g 2 Level.debug ∧ (g.isEnabledFor 2 Level.debug).1 = true ∧
      (g₁.logger 2).memo.effective? = some Level.warning ∧
      (g₁.logger 2).memo.current g.epoch = { epoch := g.epoch } := by
  intro g₁ g
  have hacyclic : g.Acyclic := acyclic_of_parent_lt (by decide)
  have hrun := (((Run.new none).getLogger "a").getLogger "a.b").call (.effectiveLevel 2) (by decide)
    |>.call (.setLevel 1 Level.debug) (by decide)
  obtain ⟨hlevel, -, hkept⟩ := hrun.levels_coherent (by decide) hacyclic
  refine ⟨hacyclic, (hlevel 2 Level.debug).mp (by decide), by decide, by decide, ?_⟩
  have hchanged : Changed g₁ g := .inr ⟨1, .inl (by decide)⟩
  exact hkept (g₁, .setLevel 1 Level.debug)
    (List.mem_append_right _ (List.mem_singleton_self _)) hchanged 2

end Registry

end Logbook
