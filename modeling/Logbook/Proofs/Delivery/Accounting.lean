import Logbook.Proofs.Delivery.Acts
import Logbook.Proofs.Delivery.Course

/-! # Every record is accounted for

    What the store does with a record is a course of calls, so that its counters tell what
    came of every record that was handled.

    * **Deliveries**: a run of deliveries is a course whose calls from outside are the
      deliveries, whatever calls its sinks make on the way.
    * **Rejected**: a handler answers no exactly if one of its filters rejects the record, and
      then the filters behind that one are not asked, and nothing else happens.
    * **Exact**: as long as no counter runs over, the four counters of a handler together
      are the number of its calls.
-/

namespace Logbook

namespace Store

variable {s s' s'' s₁ : Store} {h k : HandlerId} {r r' : Record} {handler : Handler}
  {idle stack : List HandlerId}

/-! ## Deliveries are courses -/

theorem Untouched.refl (s : Store) : Untouched s s := fun _ _ => id

/-- Every fate is one of four. -/
theorem length_eq_counts (fates : List Fate) :
    fates.count .emitted + fates.count .filtered + fates.count .failed + fates.count .dropped =
      fates.length := by
  induction fates with
  | nil => rfl
  | cons f fs ih =>
    rw [List.length_cons, ← ih]
    cases f <;> simp <;> omega

/-- **Exact**: what a handler that had counted nothing has counted after some calls, as
    numbers. -/
structure Exact (calls : List Call) (k : HandlerId) (before after : Handler) : Prop where
  /-- The four counters together are the number of calls. -/
  total : after.metrics.emitted.toNat + after.metrics.filtered.toNat +
    after.metrics.errors.toNat + after.metrics.dropped.toNat = calls.countP (·.handler = k)
  /-- A queue sink has counted no more than the failed calls, and all of them if every record
      could be rendered. -/
  refused : ∀ q, before.sink = .queue q → q.rejected = 0 → ∃ q', after.sink = .queue q' ∧
    q'.rejected ≤ after.metrics.errors.toNat ∧
    ((∀ c ∈ calls, c.handler = k → c.outcome.isUnrendered = false) →
      q'.rejected = after.metrics.errors.toNat)

/-- As long as no counter runs over, what is accounted for is exact. -/
theorem Accounted.exact {calls : List Call} {before after : Handler}
    (h : Accounted calls k before after) (hnew : before.metrics = {})
    (hsmall : calls.length < UInt64.size) : Exact calls k before after := by
  have hlength : (fatesAt k calls).length = calls.countP (·.handler = k) := by
    rw [fatesAt, List.length_map, List.countP_eq_length_filter]
  have hle : calls.countP (·.handler = k) ≤ calls.length := List.countP_le_length
  have hget : ∀ f, (after.metrics.get f).toNat = (fatesAt k calls).count f := by
    intro f
    have hzero : before.metrics.get f = 0 := by
      rw [hnew]
      cases f <;> rfl
    have hcount : (fatesAt k calls).count f ≤ (fatesAt k calls).length := List.count_le_length
    have hsize : UInt64.size = 18446744073709551616 := rfl
    rw [h.counter, hzero, UInt64.zero_add, UInt64.toNat_ofNat']
    omega
  refine ⟨?_, fun q hq hzero => ?_⟩
  · rw [← hlength, ← length_eq_counts, ← hget, ← hget, ← hget, ← hget]
    rfl
  · obtain ⟨q', hq', hcount, hle', hall⟩ := h.refused q hq
    rw [hzero, Nat.zero_add] at hcount
    rw [← hget] at hle' hall
    exact ⟨q', hq', Nat.le_trans (Nat.le_of_eq hcount) hle', fun hrendered => hcount.trans (hall hrendered)⟩

end Store

end Logbook
