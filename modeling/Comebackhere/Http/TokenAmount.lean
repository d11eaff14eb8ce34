import Comebackhere.Library.Decimal

/-!
# Token amounts of the Express backend

The contracts count in the smallest unit of a token. The backend prints such an amount as a decimal
numeral, by cutting the digits where the point goes.

## Main definitions

* `formatTokenAmount`: an amount in smallest units, as a decimal numeral

## Main results

* `formatTokenAmount_eq`: it is the canonical numeral of the amount
-/

namespace Http

open Decimal

/-- The minus sign of a negative number. -/
def minusSign (n : ℤ) : List Char := if n < 0 then ['-'] else []

/-- The numeral of digits before and after the point, as a template string puts it together. -/
def joinPoint (whole fraction : List Char) : List Char :=
  whole ++ if fraction = [] then [] else '.' :: fraction

/-- The digits are filled up to one more than the decimals, so that some remain before the point. A
token's metadata may give negative decimals: then the cut is behind all digits. -/
def formatTokenAmount (raw decimals : ℤ) : String :=
  let digits := (Nat.toDigits 10 raw.natAbs).leftpad (decimals + 1).toNat '0'
  let cut := (digits.length - decimals).toNat
  let whole := digits.take cut
  let fraction := trimZeros (digits.drop cut)
  String.ofList (minusSign raw ++ joinPoint whole fraction)

example : formatTokenAmount 12500000 7 = "1.25" := by decide

/-! ## The printed numeral -/

/-- Digits filled up to more than `k` have no leading zero before the last `k` of them, but zero
itself. -/
theorem noLeadingZero_take (n k : ℕ) {ds : List Char}
    (hds : ds = (Nat.toDigits 10 n).leftpad (k + 1) '0') :
    NoLeadingZero (ds.take (ds.length - k)) := by
  intro hhead
  have hlen : ds.length = max (k + 1) (Nat.toDigits 10 n).length := by
    rw [hds, List.length_leftpad]
  rcases Nat.lt_or_ge k (Nat.toDigits 10 n).length with hlt | hge
  · -- nothing is filled up, and only zero itself starts with a zero
    have hfull : ds = Nat.toDigits 10 n := by
      rw [hds, List.leftpad, Nat.sub_eq_zero_of_le hlt]
      rfl
    rw [List.head?_take, if_neg (by omega), hfull] at hhead
    have hzero := noLeadingZero_toDigits hhead
    rw [hfull, hzero] at hlen ⊢
    simp only [List.length_singleton] at hlen ⊢
    obtain rfl : k = 0 := by omega
    rfl
  · -- one digit is left before the point
    have hone : (ds.take (ds.length - k)).length = 1 := by
      rw [List.length_take]
      omega
    obtain ⟨c, hc⟩ := List.length_eq_one_iff.mp hone
    rw [hc] at hhead ⊢
    simpa using hhead

/-- **The backend prints the canonical numeral** of the amount over the power of ten. -/
theorem formatTokenAmount_eq (raw : ℤ) (k : ℕ) : ∃ x : Numeral, x.Canonical ∧
    x.value = raw.natAbs / 10 ^ k ∧
      formatTokenAmount raw k = String.ofList (minusSign raw ++ x.text) := by
  set ds := (Nat.toDigits 10 raw.natAbs).leftpad (k + 1) '0' with hds
  have hlen : k < ds.length := by
    rw [hds, List.length_leftpad]
    omega
  have hdigits : Digits ds := digits_leftpad digits_toDigits
  have hvalue : value (ds.take (ds.length - k)) * 10 ^ k + value (ds.drop (ds.length - k)) =
      raw.natAbs := by
    have h := @value_append (ds.take (ds.length - k)) (ds.drop (ds.length - k))
    rw [List.take_append_drop, List.length_drop, Nat.sub_sub_self hlen.le, hds, value_leftpad,
      value_toDigits] at h
    exact h.symm
  refine ⟨⟨ds.take (ds.length - k), trimZeros (ds.drop (ds.length - k)),
    fun c hc => hdigits c (List.mem_of_mem_take hc),
    digits_trimZeros fun c hc => hdigits c (List.mem_of_mem_drop hc)⟩, ?_, ?_, ?_⟩
  · refine ⟨fun hnil => ?_, noLeadingZero_take _ _ hds, noTrailingZero_trimZeros⟩
    have h := congrArg List.length hnil
    rw [List.length_take, List.length_nil] at h
    omega
  · have hcast : (value (ds.take (ds.length - k)) : ℚ) * 10 ^ k +
        value (ds.drop (ds.length - k)) = raw.natAbs := by exact_mod_cast hvalue
    rw [Numeral.value, fraction_trimZeros, fraction, List.length_drop,
      Nat.sub_sub_self hlen.le, ← hcast]
    field_simp
  · have hpad : ((k : ℤ) + 1).toNat = k + 1 := by omega
    have hcut : ((ds.length : ℤ) - k).toNat = ds.length - k := by omega
    simp only [formatTokenAmount, hpad, ← hds, hcut]
    rfl

end Http
