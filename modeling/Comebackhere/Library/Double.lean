import Mathlib.Data.Int.Log
import Mathlib.Data.Rat.Floor
import Mathlib.Tactic.Linarith

/-!
# Doubles

A number of double precision has 53 bits, and its last bit is worth at least `2 ^ -1074`. A rational
number is rounded to the nearest one, and to the even one of two.

## Main definitions

* `double q`: the double of a rational number, unless it is beyond their range
* `safeInteger x`: the integer that a double is, if its neighbours are no other doubles

## Main results

* `double_intCast`: integers of at most 53 bits are doubles
* `double_succ`: the integer after `2 ^ 53` is rounded
* `nearest_mono`: rounding keeps the order
* `double_between`: the numbers with the same double are without a gap
-/

namespace Double

variable {q r : ℚ} {n : ℤ}

/-! ## Rounding -/

/-- The nearest integer, the even one of two. -/
def roundEven (q : ℚ) : ℤ :=
  let n := ⌊q + 1 / 2⌋
  if (n : ℚ) = q + 1 / 2 ∧ n % 2 = 1 then n - 1 else n

theorem roundEven_intCast (n : ℤ) : roundEven n = n := by
  have hfloor : ⌊(n : ℚ) + 1 / 2⌋ = n := by
    rw [Int.floor_eq_iff]
    constructor <;> linarith
  simp only [roundEven, hfloor]
  rw [if_neg]
  rintro ⟨htie, -⟩
  linarith

theorem roundEven_mono (h : q ≤ r) : roundEven q ≤ roundEven r := by
  have hfloor : ⌊q + 1 / 2⌋ ≤ ⌊r + 1 / 2⌋ := Int.floor_mono (by linarith)
  have hle : (⌊q + 1 / 2⌋ : ℚ) ≤ q + 1 / 2 := Int.floor_le _
  simp only [roundEven]
  split <;> split
  · omega
  · omega
  · next hqtie hrtie =>
    -- the greater one is a half and rounded down: the other is less, or the same half
    refine Int.le_sub_one_of_lt (lt_of_le_of_ne hfloor fun heq => ?_)
    rw [← heq] at hrtie
    obtain rfl : q = r := by linarith [hrtie.1]
    exact hqtie hrtie
  · exact hfloor

theorem le_roundEven (h : (n : ℚ) ≤ q) : n ≤ roundEven q :=
  (roundEven_intCast n).ge.trans (roundEven_mono h)

theorem roundEven_le (h : q ≤ n) : roundEven q ≤ n :=
  (roundEven_mono h).trans (roundEven_intCast n).le

/-! ## Doubles -/

/-- The exponent of the last bit. -/
def exponent (q : ℚ) : ℤ := max (Int.log 2 |q| - 52) (-1074)

/-- The double of a number. -/
def double (q : ℚ) : Option ℚ :=
  let bit : ℚ := 2 ^ exponent q
  let rounded := roundEven (q / bit) * bit
  if |rounded| < 2 ^ 1024 then some rounded else none

/-- `Number.isSafeInteger` -/
def safeInteger : Option ℚ → Option ℤ
  | some q => if q.den = 1 ∧ q.num.natAbs < 2 ^ 53 then some q.num else none
  | none => none

theorem safeInteger_eq_some {x : Option ℚ} (h : safeInteger x = some n) : x = some (n : ℚ) := by
  cases x with
  | none => cases h
  | some q =>
    simp only [safeInteger, Option.ite_none_right_eq_some, Option.some.injEq] at h
    obtain ⟨⟨hden, -⟩, rfl⟩ := h
    rw [Rat.coe_int_num_of_den_eq_one hden]

theorem safeInteger_intCast (h : n.natAbs < 2 ^ 53) : safeInteger (some (n : ℚ)) = some n := by
  simpa [safeInteger] using h

/-- Below 53 bits the last bit is worth at most one: it is one divided by a power of two. -/
theorem exponent_nonpos (h : |q| < 2 ^ 53) : ∃ k : ℕ, exponent q = -k := by
  have hlog : Int.log 2 |q| < 53 := by
    rcases eq_or_ne q 0 with rfl | hq
    · simp
    · exact (Int.lt_zpow_iff_log_lt (by decide) (abs_pos.mpr hq)).mp (mod_cast h)
  refine ⟨(-exponent q).toNat, ?_⟩
  have hle : exponent q ≤ 0 := max_le (by omega) (by decide)
  omega

/-- **Integers of at most 53 bits are doubles.** -/
theorem double_intCast (h : n.natAbs < 2 ^ 53) : double n = some (n : ℚ) := by
  have habs : |(n : ℚ)| < 2 ^ 53 := by
    rw [← Int.cast_abs, Int.abs_eq_natAbs]
    exact_mod_cast h
  obtain ⟨k, hk⟩ := exponent_nonpos habs
  have hdiv : (n : ℚ) / 2 ^ exponent n = ((n * 2 ^ k : ℤ) : ℚ) := by
    rw [hk, zpow_neg, zpow_natCast, div_inv_eq_mul]
    push_cast
    rfl
  have hrounded : (roundEven (n / 2 ^ exponent n) : ℚ) * 2 ^ exponent n = n := by
    rw [hdiv, roundEven_intCast, ← hdiv]
    exact div_mul_cancel₀ _ (zpow_ne_zero _ two_ne_zero)
  simp only [double, hrounded]
  rw [if_pos (habs.trans (pow_lt_pow_right₀ one_lt_two (by decide)))]

/-! ## The order -/

/-- The nearest number of as many bits, if there were no largest one. -/
def nearest (q : ℚ) : ℚ := roundEven (q / 2 ^ exponent q) * 2 ^ exponent q

theorem double_eq_some : double q = some r ↔ nearest q = r ∧ |nearest q| < 2 ^ 1024 := by
  simp only [double, nearest, Option.ite_none_right_eq_some, Option.some.injEq]
  exact and_comm

theorem double_eq_none : double q = none ↔ 2 ^ 1024 ≤ |nearest q| := by
  simp [double, nearest]

theorem nearest_nonneg (h : 0 ≤ q) : 0 ≤ nearest q := by
  have hbit : (0 : ℚ) < 2 ^ exponent q := zpow_pos two_pos _
  have hround : 0 ≤ roundEven (q / 2 ^ exponent q) :=
    le_roundEven (by simpa using div_nonneg h hbit.le)
  exact mul_nonneg (mod_cast hround) hbit.le

/-- A power of two is an integral number of a smaller bit. -/
theorem zpow_div_exponent {k : ℤ} (hk : exponent q ≤ k) :
    ∃ m : ℤ, (m : ℚ) * 2 ^ exponent q = 2 ^ k := by
  obtain ⟨j, hj⟩ := Int.le.dest hk
  refine ⟨2 ^ j, ?_⟩
  rw [← hj, add_comm, zpow_add₀ two_ne_zero, zpow_natCast]
  push_cast
  rfl

theorem nearest_le_zpow {k : ℤ} (hk : exponent q ≤ k) (h : q ≤ 2 ^ k) : nearest q ≤ 2 ^ k := by
  have hbit : (0 : ℚ) < 2 ^ exponent q := zpow_pos two_pos _
  obtain ⟨m, hm⟩ := zpow_div_exponent hk
  have hround : roundEven (q / 2 ^ exponent q) ≤ m :=
    roundEven_le ((div_le_iff₀ hbit).mpr (h.trans_eq hm.symm))
  rw [nearest, ← hm]
  exact mul_le_mul_of_nonneg_right (mod_cast hround) hbit.le

theorem zpow_le_nearest {k : ℤ} (hk : exponent q ≤ k) (h : 2 ^ k ≤ q) : 2 ^ k ≤ nearest q := by
  have hbit : (0 : ℚ) < 2 ^ exponent q := zpow_pos two_pos _
  obtain ⟨m, hm⟩ := zpow_div_exponent hk
  have hround : m ≤ roundEven (q / 2 ^ exponent q) :=
    le_roundEven ((le_div_iff₀ hbit).mpr (hm.trans_le h))
  rw [nearest, ← hm]
  exact mul_le_mul_of_nonneg_right (mod_cast hround) hbit.le

theorem exponent_of_pos (h : 0 < q) : exponent q = max (Int.log 2 q - 52) (-1074) := by
  rw [exponent, abs_of_pos h]

/-- **Rounding keeps the order.** -/
theorem nearest_mono (hq : 0 ≤ q) (h : q ≤ r) : nearest q ≤ nearest r := by
  rcases hq.eq_or_lt with rfl | hpos
  · have hzero : nearest 0 = 0 := by
      rw [nearest, zero_div, ← Int.cast_zero, roundEven_intCast, Int.cast_zero, zero_mul]
    exact hzero.le.trans (nearest_nonneg h)
  have hrpos : 0 < r := hpos.trans_le h
  have hq := exponent_of_pos hpos
  have hr := exponent_of_pos hrpos
  have hlog : Int.log 2 q ≤ Int.log 2 r := Int.log_mono_right hpos h
  rcases (show exponent q ≤ exponent r by omega).eq_or_lt with heq | hlt
  · -- the last bit is worth the same
    have hround : roundEven (q / 2 ^ exponent r) ≤ roundEven (r / 2 ^ exponent r) :=
      roundEven_mono ((div_le_div_iff_of_pos_right (zpow_pos two_pos _)).mpr h)
    rw [nearest, nearest, heq]
    exact mul_le_mul_of_nonneg_right (mod_cast hround) (zpow_pos two_pos _).le
  · -- a power of two lies between them
    have hless : Int.log 2 q < Int.log 2 r := by omega
    have hbelow : q ≤ 2 ^ Int.log 2 r :=
      mod_cast ((Int.lt_zpow_iff_log_lt (by decide) hpos).mpr hless).le
    have habove : 2 ^ Int.log 2 r ≤ r := mod_cast Int.zpow_log_le_self (by decide) hrpos
    exact (nearest_le_zpow (by omega) hbelow).trans (zpow_le_nearest (by omega) habove)

/-- **Rounding keeps numbers from 1 on there.** -/
theorem one_le_double (hq : 1 ≤ q) (h : double q = some r) : 1 ≤ r := by
  obtain ⟨hone, -⟩ := double_eq_some.mp (double_intCast (n := 1) (by decide))
  obtain ⟨rfl, -⟩ := double_eq_some.mp h
  rw [Int.cast_one] at hone
  exact hone.ge.trans (nearest_mono zero_le_one hq)

/-- Powers of two are kept, unless they are too small. -/
theorem two_pow_le_nearest {k : ℕ} (h : 2 ^ k ≤ q) : 2 ^ k ≤ nearest q := by
  have hk : exponent (2 ^ k) ≤ k := by
    have hlog : Int.log 2 ((2 : ℚ) ^ k) = k := by
      rw [← zpow_natCast]
      exact Int.log_zpow (by decide) k
    rw [exponent_of_pos (by positivity), hlog]
    omega
  have hpow : (2 : ℚ) ^ k ≤ nearest (2 ^ k) := by
    simpa using zpow_le_nearest (k := k) hk (by simp)
  exact hpow.trans (nearest_mono (by positivity) h)

/-- What lies between numbers with the same double has it, too. -/
theorem double_between {a b c : ℚ} (ha : 0 ≤ a) (hab : a ≤ b) (hbc : b ≤ c)
    (h : double a = double c) : double b = double c := by
  have hb : 0 ≤ b := ha.trans hab
  have hlow := nearest_mono ha hab
  have hhigh := nearest_mono hb hbc
  have hpos := nearest_nonneg ha
  cases hc : double c with
  | none =>
    rw [hc, double_eq_none, abs_of_nonneg hpos] at h
    rw [double_eq_none, abs_of_nonneg (hpos.trans hlow)]
    exact h.trans hlow
  | some x =>
    obtain ⟨ha', -⟩ := double_eq_some.mp (h.trans hc)
    obtain ⟨hc', hx⟩ := double_eq_some.mp hc
    have hb' : nearest b = nearest c := by linarith
    rw [double_eq_some, hb']
    exact ⟨hc', hx⟩

theorem exponent_succ : exponent (2 ^ 53 + 1) = 1 := by
  have hlog : Int.log 2 |(2 ^ 53 + 1 : ℚ)| = 53 := by
    have hcast : |(2 ^ 53 + 1 : ℚ)| = ((2 ^ 53 + 1 : ℕ) : ℚ) := by
      rw [abs_of_nonneg (by positivity)]
      norm_num
    rw [hcast, Int.log_natCast, Nat.log_eq_of_pow_le_of_lt_pow (m := 53) (by decide) (by decide)]
    rfl
  rw [exponent, hlog]
  decide

/-- **The first integer that is no double** lies between two, and is rounded to the even one. -/
theorem double_succ : double (2 ^ 53 + 1) = some (2 ^ 53) := by
  have hround : roundEven ((2 ^ 53 + 1) / 2 ^ (1 : ℤ)) = 2 ^ 52 := by
    rw [roundEven]
    norm_num
  have hvalue : ((2 ^ 52 : ℤ) : ℚ) * 2 ^ (1 : ℤ) = 2 ^ 53 := by norm_num
  simp only [double, exponent_succ, hround, hvalue]
  rw [abs_of_pos (by positivity), if_pos (pow_lt_pow_right₀ one_lt_two (by decide))]

end Double
