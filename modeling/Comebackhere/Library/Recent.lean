import Mathlib.Data.List.DropRight
import Mathlib.Data.List.Induction

/-!
# The most recent entries of a log

A log of entries is remembered by its most recent `n` entries only. Appending to what is remembered
and cutting it again is the same as appending to the log, and an entry is remembered as long as
fewer than `n` have been appended since.

## Main definitions

* `since l x`: how many entries were appended after `x` was appended last

## Main results

* `rtake_append_rtake`: the remembered entries after others are appended
* `mem_rtake_iff`: the entries that are remembered
-/

namespace Recent

variable {α : Type*} {l : List α} {n : ℕ} {x : α}

/-- The recent entries can be cut before others are appended. -/
theorem rtake_append_rtake (n : ℕ) (l m : List α) : (l.rtake n ++ m).rtake n = (l ++ m).rtake n := by
  simp only [List.rtake_eq_reverse_take_reverse, List.reverse_append, List.reverse_reverse,
    List.take_append, List.take_take]
  rw [Nat.min_eq_left (Nat.sub_le _ _)]

theorem rtake_suffix (n : ℕ) (l : List α) : l.rtake n <:+ l := List.drop_suffix _ _

variable [DecidableEq α]

/-- How many entries were appended after `x` was appended last. -/
def since (l : List α) (x : α) : ℕ := (l.rtakeWhile (· ≠ x)).length

theorem since_concat_self (l : List α) (x : α) : since (l ++ [x]) x = 0 := by
  rw [since, List.rtakeWhile_concat_neg _ _ _ (by simp), List.length_nil]

theorem since_concat_of_ne {y : α} (h : y ≠ x) : since (l ++ [y]) x = since l x + 1 := by
  rw [since, List.rtakeWhile_concat_pos _ _ _ (by simpa using h), List.length_append]
  rfl

/-- **An entry is remembered** as long as fewer than `n` have been appended since. -/
theorem mem_rtake_iff : x ∈ l.rtake n ↔ x ∈ l ∧ since l x < n := by
  induction l using List.reverseRecOn generalizing n with
  | nil => simp [List.rtake_nil]
  | append_singleton l y ih =>
    cases n with
    | zero => simp [List.rtake_zero]
    | succ n =>
      rw [List.rtake_concat_succ, List.mem_append, ih, List.mem_append, List.mem_singleton]
      by_cases hy : y = x
      · simp [hy, since_concat_self]
      · rw [since_concat_of_ne hy, Nat.add_lt_add_iff_right]
        simp [Ne.symm hy]

end Recent
