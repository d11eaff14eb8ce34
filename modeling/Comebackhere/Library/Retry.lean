import Mathlib.Data.Nat.Notation

/-!
# Retrying

An operation that fails is tried again, as long as its error is one to try again after, and no more
than a number of times.

## Main definitions

* `Failing again r`: a result to try again after
* `Final again last op n`: the attempt `n` is the last one that is made

## Main results

* `Final.unique`: there is one last attempt
-/

namespace Retry

variable {α ε : Type*} {again : ε → Bool} {last n n' : ℕ} {op : ℕ → Except ε α}

/-- An error to try again after. -/
def Failing (again : ε → Bool) (r : Except ε α) : Prop := ∃ err, r = .error err ∧ again err

/-- The attempt `n` is made, and none after it. -/
structure Final (again : ε → Bool) (last : ℕ) (op : ℕ → Except ε α) (n : ℕ) : Prop where
  le : n ≤ last
  before : ∀ k < n, Failing again (op k)
  stop : Failing again (op n) → n = last

/-- No attempt is made after the final one. -/
theorem Final.not_lt (h : Final again last op n) (h' : Final again last op n') : ¬n < n' := by
  intro hlt
  have hlast := h.stop (h'.before n hlt)
  exact absurd h'.le (Nat.not_le.mpr (hlast ▸ hlt))

/-- **There is one final attempt.** -/
theorem Final.unique (h : Final again last op n) (h' : Final again last op n') : n = n' :=
  Nat.le_antisymm (Nat.not_lt.mp (h'.not_lt h)) (Nat.not_lt.mp (h.not_lt h'))

end Retry
