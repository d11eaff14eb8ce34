import Mathlib.Data.Int.Bitwise
import Mathlib.Data.Nat.Bitwise
import Mathlib.Tactic.Positivity
import Mathlib.Tactic.Ring

/-!
# Halves of an integer

A wide integer is kept as two words: the low one holds its last `k` bits, without a sign, the high
one what is before them, with the sign of the integer. A shift and an "or" put it together again,
for a negative integer too.

## Main definitions

* `high k n`, `low k n`: the halves of an integer
* `join k hi lo`: the integer put together

## Main results

* `lor_shiftLeft`: an "or" with what is shorter than a shift is a sum
* `join_halves`: the halves of an integer put it together
-/

namespace Halves

/-- What is before the last `k` bits. -/
def high (k : ℕ) (n : ℤ) : ℤ := n / 2 ^ k

/-- The last `k` bits. -/
def low (k : ℕ) (n : ℤ) : ℕ := (n % 2 ^ k).toNat

/-- `(hi << k) | lo` -/
def join (k : ℕ) (hi : ℤ) (lo : ℕ) : ℤ := Int.lor (Int.shiftLeft hi k) lo

/-- Bits that are taken away from `k` ones are subtracted. -/
theorem ldiff_ones {m lo k : ℕ} (hlo : lo < 2 ^ k) :
    Nat.ldiff (2 ^ k * m + (2 ^ k - 1)) lo = 2 ^ k * m + (2 ^ k - (lo + 1)) := by
  apply Nat.eq_of_testBit_eq
  intro i
  have hone : 2 ^ k - 1 < 2 ^ k := by
    have hpos := Nat.two_pow_pos k
    omega
  rw [Nat.testBit_ldiff, Nat.testBit_two_pow_mul_add _ hone,
    Nat.testBit_two_pow_mul_add _ (by omega), Nat.testBit_two_pow_sub_succ hlo]
  by_cases hi : i < k
  · simp [hi, Nat.testBit_two_pow_sub_one]
  · have hbit : lo.testBit i = false :=
      Nat.testBit_lt_two_pow (hlo.trans_le (Nat.pow_le_pow_right (by decide) (by omega)))
    simp [hi, hbit]

/-- An "or" with what is shorter than a shift is a sum. -/
theorem lor_shiftLeft (hi : ℤ) {lo k : ℕ} (hlo : lo < 2 ^ k) :
    Int.lor (Int.shiftLeft hi k) lo = hi * 2 ^ k + lo := by
  have hshift : Int.shiftLeft hi k = hi * 2 ^ k := Int.shiftLeft_eq hi k
  rw [hshift]
  cases hi with
  | ofNat m =>
    have hm : Int.ofNat m * 2 ^ k = ((2 ^ k * m : ℕ) : ℤ) := by
      push_cast
      simp [mul_comm]
    rw [hm]
    show ((2 ^ k * m ||| lo : ℕ) : ℤ) = _
    rw [← Nat.two_pow_add_eq_or_of_lt hlo, Nat.cast_add]
  | negSucc m =>
    -- the last bits of a negative multiple of the power are those of zero: all ones, once inverted
    have hm : Int.negSucc m * 2 ^ k = Int.negSucc (2 ^ k * m + (2 ^ k - 1)) := by
      have hpos := Nat.two_pow_pos k
      rw [Int.negSucc_eq, Int.negSucc_eq]
      push_cast [Nat.cast_sub hpos]
      ring
    rw [hm]
    show Int.negSucc (Nat.ldiff _ lo) = _
    rw [ldiff_ones hlo, Int.negSucc_eq, Int.negSucc_eq]
    push_cast [Nat.cast_sub hlo, Nat.cast_sub (Nat.two_pow_pos k)]
    ring

/-- **The halves of an integer put it together.** -/
theorem join_halves (k : ℕ) (n : ℤ) : join k (high k n) (low k n) = n := by
  have hpos : (0 : ℤ) < 2 ^ k := by positivity
  have hcast : ((low k n : ℕ) : ℤ) = n % 2 ^ k :=
    Int.toNat_of_nonneg (Int.emod_nonneg n hpos.ne')
  have hlt : low k n < 2 ^ k := by
    have hmod := Int.emod_lt_of_pos n hpos
    rw [← hcast] at hmod
    exact_mod_cast hmod
  rw [join, lor_shiftLeft _ hlt, hcast, high, mul_comm]
  exact Int.mul_ediv_add_emod n (2 ^ k)

end Halves
