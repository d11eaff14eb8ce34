import Mathlib.Data.Nat.Log
import Mathlib.Order.Interval.Set.OrdConnected
import Mathlib.Tactic.Positivity

/-!
# Shortest numerals

Where numbers are rounded, many numerals stand for the same number. A number is printed with the
fewest digits that are rounded to it, and zeros after them. Of two numerals with as many digits the
nearer one is printed, and of two as near the even one.

## Main definitions

* `neighbour round n k`: the multiple of `10 ^ k` next to `n` that is rounded like `n`
* `shortest round n`: the digits of the shortest numeral, as a number, and how many zeros follow

## Main results

* `round_shortest`: the numeral is rounded like the number
* `shortest_lt`: no numeral with fewer digits is
-/

namespace Shortest

variable {α : Type*} [DecidableEq α] (round : ℕ → α) (n : ℕ)

/-- The multiple of `10 ^ k` next to `n` that is rounded like `n`, as what it is a multiple by. -/
def neighbour (k : ℕ) : Option ℕ :=
  let below := n / 10 ^ k
  let rest := n % 10 ^ k
  if round (below * 10 ^ k) = round n then
    if round ((below + 1) * 10 ^ k) = round n ∧
        (10 ^ k < 2 * rest ∨ 10 ^ k = 2 * rest ∧ below % 2 = 1) then
      some (below + 1)
    else some below
  else if round ((below + 1) * 10 ^ k) = round n then some (below + 1)
  else none

/-- The one with the most zeros, and with `k` at most. -/
def search : ℕ → ℕ × ℕ
  | 0 => (n, 0)
  | k + 1 =>
    match neighbour round n (k + 1) with
    | some s => (s, k + 1)
    | none => search k

/-- The shortest numeral has at most as many zeros as the number has digits. -/
def shortest : ℕ × ℕ := search round n (Nat.log 10 n + 1)

variable {round n} {s t k m : ℕ}

theorem round_neighbour (h : neighbour round n k = some s) : round (s * 10 ^ k) = round n := by
  simp only [neighbour] at h
  split at h
  · next hbelow =>
    split at h
    · next habove =>
      obtain rfl := Option.some.inj h
      exact habove.1
    · obtain rfl := Option.some.inj h
      exact hbelow
  · split at h
    · next habove =>
      obtain rfl := Option.some.inj h
      exact habove
    · cases h

theorem round_search (k : ℕ) :
    round ((search round n k).1 * 10 ^ (search round n k).2) = round n := by
  induction k with
  | zero => simp [search]
  | succ k ih =>
    rw [search]
    split
    · next s hs => exact round_neighbour hs
    · exact ih

/-- **The shortest numeral is rounded like the number.** -/
theorem round_shortest (round : ℕ → α) (n : ℕ) :
    round ((shortest round n).1 * 10 ^ (shortest round n).2) = round n := round_search _

/-! ## The fewest digits -/

section Connected

variable (hround : (Set.preimage round {round n}).OrdConnected)
include hround

omit [DecidableEq α] in
/-- What lies between numbers that are rounded like `n` is, too. -/
theorem round_between {a b c : ℕ} (ha : round a = round n) (hc : round c = round n) (hab : a ≤ b)
    (hbc : b ≤ c) : round b = round n := hround.out ha hc ⟨hab, hbc⟩

/-- If a multiple is rounded like the number, one next to the number is. -/
theorem neighbour_ne_none (h : round (t * 10 ^ k) = round n) : neighbour round n k ≠ none := by
  have hpos : 0 < 10 ^ k := by positivity
  simp only [neighbour]
  rcases le_or_gt (t * 10 ^ k) n with hle | hlt
  · -- the next multiple below lies between them
    have ht : t ≤ n / 10 ^ k := (Nat.le_div_iff_mul_le hpos).mpr hle
    rw [if_pos (round_between hround h rfl (Nat.mul_le_mul_right _ ht) (Nat.div_mul_le_self _ _))]
    split <;> simp
  · -- the next multiple above does
    have ht : n / 10 ^ k + 1 ≤ t := Nat.succ_le_of_lt ((Nat.div_lt_iff_lt_mul hpos).mpr hlt)
    have hover : n ≤ (n / 10 ^ k + 1) * 10 ^ k := by
      rw [mul_comm]
      exact (Nat.lt_mul_div_succ n hpos).le
    rw [if_pos (round_between hround rfl h hover (Nat.mul_le_mul_right _ ht))]
    split
    · split <;> simp
    · simp

/-- No numeral has more zeros, of those that are searched. -/
theorem le_search (h : round (t * 10 ^ k) = round n) (hk : k ≤ m) : k ≤ (search round n m).2 := by
  induction m with
  | zero => omega
  | succ m ih =>
    rw [search]
    split
    · exact hk
    · next hnone =>
      refine ih (Nat.lt_succ_iff.mp (lt_of_le_of_ne hk ?_))
      rintro rfl
      exact neighbour_ne_none hround h hnone

/-- A numeral with more zeros is a one with zeros. -/
theorem le_shortest (hzero : round 0 ≠ round n) (ht : 0 < t) (h : round (t * 10 ^ k) = round n) :
    k ≤ (shortest round n).2 ∨ (shortest round n).1 = 1 := by
  rcases le_or_gt k (Nat.log 10 n + 1) with hk | hk
  · exact Or.inl (le_search hround h hk)
  · -- beyond the search, the first power of ten above the number is rounded like it
    right
    have hlt : n < 10 ^ (Nat.log 10 n + 1) := Nat.lt_pow_succ_log_self (by decide) n
    have hle : 10 ^ (Nat.log 10 n + 1) ≤ t * 10 ^ k :=
      (Nat.pow_le_pow_right (by decide) hk.le).trans (Nat.le_mul_of_pos_left _ ht)
    have hone : round (10 ^ (Nat.log 10 n + 1)) = round n :=
      round_between hround rfl h hlt.le hle
    have hneighbour : neighbour round n (Nat.log 10 n + 1) = some 1 := by
      simp [neighbour, Nat.div_eq_of_lt hlt, hzero, hone]
    rw [shortest, search, hneighbour]

/-- **No numeral with fewer digits** is rounded like the number. -/
theorem shortest_lt (hzero : round 0 ≠ round n) (ht : t < 10 ^ m)
    (h : round (t * 10 ^ k) = round n) : (shortest round n).1 < 10 ^ m := by
  by_contra hno
  have hpos : 0 < t := by
    rw [Nat.pos_iff_ne_zero]
    rintro rfl
    exact hzero (by simpa using h)
  have hm : m ≠ 0 := by
    rintro rfl
    omega
  have hten : 10 ≤ 10 ^ m := Nat.le_self_pow hm 10
  -- one with more zeros than the shortest has
  obtain ⟨t', k', ht', h', hlt⟩ : ∃ t' k', 0 < t' ∧ round (t' * 10 ^ k') = round n ∧
      (shortest round n).2 < k' := by
    rcases le_or_gt k (shortest round n).2 with hle | hlt
    · -- with fewer zeros it is smaller, and a power of ten lies between the two numerals
      refine ⟨1, m + (shortest round n).2, one_pos, ?_, by omega⟩
      rw [one_mul]
      refine round_between hround h (round_shortest round n) ?_ ?_
      · calc t * 10 ^ k ≤ 10 ^ m * 10 ^ k := Nat.mul_le_mul_right _ ht.le
          _ ≤ 10 ^ m * 10 ^ (shortest round n).2 :=
            Nat.mul_le_mul_left _ (Nat.pow_le_pow_right (by decide) hle)
          _ = 10 ^ (m + (shortest round n).2) := (pow_add ..).symm
      · rw [pow_add]
        exact Nat.mul_le_mul_right _ (not_lt.mp hno)
    · exact ⟨t, k, hpos, h, hlt⟩
  rcases le_shortest hround hzero ht' h' with hle | hone
  · omega
  · omega

end Connected

end Shortest
