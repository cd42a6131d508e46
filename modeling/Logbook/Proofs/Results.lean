import Mathlib.Init

/-! # Results

    What can be said of a result that was computed, when something is known of what is made
    of it.
-/

namespace Logbook

variable {ε β γ : Type}

/-- What is made of a result is one exactly if there was a result. -/
theorem map_eq_ok_iff {f : β → γ} {e : Except ε β} {c : γ} :
    e.map f = .ok c ↔ ∃ b, e = .ok b ∧ c = f b := by
  cases e with
  | error e => simp [Except.map]
  | ok b => simp [Except.map, eq_comm]

/-- What can be read off a result without its errors is the result. -/
theorem eq_ok_of_toOption {e : Except ε β} {b : β} (h : e.toOption = some b) : e = .ok b := by
  cases e with
  | error e => cases h
  | ok b' => exact congrArg Except.ok (Option.some.inj h)

/-- What comes out well is nothing. -/
theorem eq_ok_of_isOk {e : Except ε Unit} (h : e.isOk = true) : e = .ok () := by
  cases e with
  | ok u => rfl
  | error e => cases h

/-- What does not come out well is an error. -/
theorem eq_error_of_isOk {e : Except ε β} (h : e.isOk = false) : ∃ err, e = .error err := by
  cases e with
  | ok b => cases h
  | error err => exact ⟨err, rfl⟩

end Logbook
