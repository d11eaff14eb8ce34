import Mathlib.Algebra.BigOperators.Group.Finset.Basic
import Mathlib.Data.List.Basic

/-!
# Weighted ballots

A ballot is a list of votes, each a voter with the weight it held. Its tally counts every voter
once, with the weight of its first vote.

## Main results

* `tally_snoc_of_notMem`: the vote of a new voter adds its weight
* `tally_snoc_of_mem`: a further vote of the same voter adds nothing
-/

namespace Ballot

variable {α : Type*} [DecidableEq α]

/-- The weight `a` held when it first voted. -/
def firstWeight (votes : List (α × ℕ)) (a : α) : ℕ := (votes.lookup a).getD 0

/-- The voters of a ballot. -/
def voters (votes : List (α × ℕ)) : Finset α := (votes.map Prod.fst).toFinset

/-- The sum, over the distinct voters, of the weight each held when it first voted. -/
def tally (votes : List (α × ℕ)) : ℕ := ∑ a ∈ voters votes, firstWeight votes a

@[simp] theorem tally_nil : tally ([] : List (α × ℕ)) = 0 := rfl

@[simp] theorem voters_nil : voters ([] : List (α × ℕ)) = ∅ := rfl

/-- A tally is zero when every voter first voted with weight zero. -/
theorem tally_eq_zero_iff {votes : List (α × ℕ)} :
    tally votes = 0 ↔ ∀ a ∈ voters votes, firstWeight votes a = 0 := Finset.sum_eq_zero_iff

theorem voters_snoc (votes : List (α × ℕ)) (a : α) (n : ℕ) :
    voters (votes ++ [(a, n)]) = insert a (voters votes) := by
  ext b
  simp [voters]

theorem lookup_eq_none_iff (votes : List (α × ℕ)) (a : α) :
    votes.lookup a = none ↔ a ∉ voters votes := by
  simp only [List.lookup_eq_none_iff, voters, List.mem_toFinset, List.mem_map]
  constructor
  · rintro h ⟨v, hv, rfl⟩
    simpa using h v hv
  · intro h v hv
    simpa using fun he : a = v.1 => h ⟨v, hv, he.symm⟩

/-- A later vote does not change the first weight of a voter. -/
theorem firstWeight_append_of_mem {votes : List (α × ℕ)} {a : α} (h : a ∈ voters votes)
    (rest : List (α × ℕ)) : firstWeight (votes ++ rest) a = firstWeight votes a := by
  cases hl : votes.lookup a with
  | none => exact absurd h ((lookup_eq_none_iff votes a).mp hl)
  | some n => simp [firstWeight, List.lookup_append, hl]

theorem firstWeight_snoc_of_notMem {votes : List (α × ℕ)} {a : α} (h : a ∉ voters votes)
    (n : ℕ) : firstWeight (votes ++ [(a, n)]) a = n := by
  simp [firstWeight, List.lookup_append, (lookup_eq_none_iff votes a).mpr h]

/-- **A new voter adds its weight** to the tally. -/
theorem tally_snoc_of_notMem {votes : List (α × ℕ)} {a : α} (h : a ∉ voters votes) (n : ℕ) :
    tally (votes ++ [(a, n)]) = tally votes + n := by
  rw [tally, voters_snoc, Finset.sum_insert h, firstWeight_snoc_of_notMem h, add_comm]
  congr 1
  -- the earlier voters keep the weights of their first votes
  exact Finset.sum_congr rfl fun b hb => firstWeight_append_of_mem hb _

/-- **A further vote of the same voter** adds nothing to the tally. -/
theorem tally_snoc_of_mem {votes : List (α × ℕ)} {a : α} (h : a ∈ voters votes) (n : ℕ) :
    tally (votes ++ [(a, n)]) = tally votes := by
  rw [tally, voters_snoc, Finset.insert_eq_of_mem h]
  exact Finset.sum_congr rfl fun b hb => firstWeight_append_of_mem hb _

end Ballot
