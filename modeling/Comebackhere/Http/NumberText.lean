import Comebackhere.Http.InvoiceRecord
import Comebackhere.Http.TokenAmount
import Comebackhere.Library.Double
import Comebackhere.Library.Shortest

/-!
# Texts of numbers

A number of JavaScript is a double. As a text it has the fewest digits that are rounded to it, and
from 22 places on an exponent.

## Main definitions

* `numberText n`, `NonFinite.text x`: the text of an integral number, and of one that is not finite

## Main results

* `numberText_shortest`: its digits are rounded to the number, and no fewer digits are
* `numberText_safe`: integers of at most 53 bits are printed with all their digits
-/

namespace Http

open Double Shortest

/-- The digits of `s` before zeros. There are at most 21 places before the point. -/
def numeralText (s zeros : ℕ) : List Char :=
  let digits := Nat.toDigits 10 s
  let places := digits.length + zeros
  if places ≤ 21 then digits ++ List.replicate zeros '0'
  else joinPoint (digits.take 1) (digits.drop 1) ++ 'e' :: '+' :: Nat.toDigits 10 (places - 1)

/-- The double that a natural number is rounded to. -/
def natDouble (n : ℕ) : Option ℚ := double n

/-- `String(n)` of an integral number, which is a double. -/
def numberText (n : ℤ) : String :=
  if n = 0 then "0"
  else
    let numeral := shortest natDouble n.natAbs
    String.ofList (minusSign n ++ numeralText numeral.1 numeral.2)

/-- `String(x)` of a number that is not finite. -/
def NonFinite.text : NonFinite → String
  | .nan => "NaN"
  | .infinity => "Infinity"
  | .negInfinity => "-Infinity"

example : numberText (2 ^ 57) = "144115188075855870" := by decide +kernel

example : numberText (-2 ^ 70) = "-1.1805916207174113e+21" := by decide +kernel

variable {n : ℕ}

/-! ## The digits -/

/-- The numbers that are rounded to the same double are without a gap. -/
theorem ordConnected_natDouble (n : ℕ) : (Set.preimage natDouble {natDouble n}).OrdConnected := by
  refine ⟨fun a ha c hc b hb => ?_⟩
  have heq : double a = double c := ha.trans hc.symm
  exact (double_between (Nat.cast_nonneg a) (mod_cast hb.1) (mod_cast hb.2) heq).trans hc

theorem natDouble_of_lt (h : n < 2 ^ 53) : natDouble n = some (n : ℚ) := by
  simpa [natDouble] using double_intCast (n := n) (by simpa using h)

theorem natDouble_zero_ne (hn : n ≠ 0) : natDouble 0 ≠ natDouble n := by
  intro h
  have hone : (1 : ℚ) ≤ n := mod_cast Nat.one_le_iff_ne_zero.mpr hn
  have hle := one_le_double hone (h.symm.trans (natDouble_of_lt (by decide)))
  norm_num at hle

/-- **A number is printed with the fewest digits** that are rounded to it, and zeros. -/
theorem numberText_shortest {n : ℤ} (hn : n ≠ 0) : ∃ s zeros,
    numberText n = String.ofList (minusSign n ++ numeralText s zeros) ∧
      natDouble (s * 10 ^ zeros) = natDouble n.natAbs ∧
      ∀ t k m, natDouble (t * 10 ^ k) = natDouble n.natAbs → t < 10 ^ m → s < 10 ^ m := by
  refine ⟨_, _, if_neg hn, round_shortest _ _, fun t k m ht hlt => ?_⟩
  have hzero := natDouble_zero_ne (Int.natAbs_ne_zero.mpr hn)
  exact shortest_lt (ordConnected_natDouble _) hzero hlt ht

/-! ## Safe integers -/

theorem eq_of_natDouble {a b : ℕ} (hb : b < 2 ^ 53) (h : natDouble a = natDouble b) : a = b := by
  rw [natDouble_of_lt hb] at h
  rcases lt_or_ge a (2 ^ 53) with ha | ha
  · rw [natDouble_of_lt ha] at h
    exact_mod_cast Option.some.inj h
  · -- what is rounded down that far passes the first number of 54 bits
    obtain ⟨hnearest, -⟩ := double_eq_some.mp h
    have hle : (2 : ℚ) ^ 53 ≤ nearest a := two_pow_le_nearest (mod_cast ha)
    rw [hnearest] at hle
    exact absurd hb (not_lt.mpr (mod_cast hle))

/-- **Integers of at most 53 bits** are printed with all their digits. -/
theorem numberText_safe {n : ℤ} (h : n.natAbs < 2 ^ 53) :
    numberText n = String.ofList (minusSign n ++ Nat.toDigits 10 n.natAbs) := by
  rcases eq_or_ne n 0 with rfl | hn
  · rfl
  obtain ⟨s, zeros, htext, hround, -⟩ := numberText_shortest hn
  -- no other number is rounded to it, so that its digits are its own
  have hvalue : s * 10 ^ zeros = n.natAbs := eq_of_natDouble h hround
  have hs : s ≠ 0 := by
    rintro rfl
    omega
  have hdigits : Nat.toDigits 10 n.natAbs = Nat.toDigits 10 s ++ List.replicate zeros '0' := by
    rw [← hvalue, Decimal.toDigits_mul_pow hs]
  have hplaces : (Nat.toDigits 10 s).length + zeros ≤ 21 := by
    have hlength := Decimal.length_toDigits_le (h.trans (by decide : 2 ^ 53 < 10 ^ 21)) (by decide)
    rwa [hdigits, List.length_append, List.length_replicate] at hlength
  rw [htext, numeralText, if_pos hplaces, ← hdigits]

end Http
