import Mathlib.Tactic.Common

/-!
Computations that may fail, as `Except`.

* `of_bind_ok`: a sequence has a result when each of its stages has one.
-/

namespace Jackstay

/-- A computation that has a result has had one at its first stage. -/
lemma of_bind_ok {ε α β : Type} {x : Except ε α} {f : α → Except ε β} {b : β}
    (h : (x >>= f) = .ok b) : ∃ a, x = .ok a ∧ f a = .ok b := by
  cases x with
  | error e => cases h
  | ok a => exact ⟨a, rfl, h⟩

end Jackstay
