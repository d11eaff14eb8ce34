import Comebackhere.Http.Express
import Comebackhere.Http.TokenAmount

/-!
# Token amounts of the invoice form

The form reads the amount a merchant types in as a number of smallest units, and the lists print
such a number as a decimal numeral. Both work on the digits, by filling up and trimming zeros.

## Main definitions

* `toSmallestUnit`: the amount that a text spells, in smallest units
* `fromSmallestUnit`: an amount in smallest units, as a decimal numeral
* `Spells text x`: the text spells the numeral `x`

## Main results

* `toSmallestUnit_eq_some_iff`: which texts are accepted, and as what
* `fromSmallestUnit_eq`: the canonical numeral is printed
* `conversion`: the round trip, through the numeral that the backend prints
-/

namespace Frontend

open Decimal
open Http (isSpace isSpace_eq_false minusSign joinPoint formatTokenAmount)

variable {cs : List Char} {amount : String} {k n : ℕ} {x : Numeral}

/-- `text.trim()` -/
def trim (cs : List Char) : List Char := (cs.dropWhile isSpace).rdropWhile isSpace

/-- `/^(\d*)(?:\.(\d*))?$/`: the digits before the point, and those after it if there is one. -/
def matchDecimal (cs : List Char) : Option (List Char × Option (List Char)) :=
  match cs.dropWhile Char.isDigit with
  | [] => some (cs, none)
  | '.' :: fraction =>
    if fraction.all Char.isDigit then some (cs.takeWhile Char.isDigit, some fraction) else none
  | _ => none

/-- `BigInt(digits || "0")` -/
def bigInt (digits : List Char) : ℕ := value (if digits = [] then ['0'] else digits)

def toSmallestUnit (amount : String) (decimals : ℕ) : Option ℕ :=
  match matchDecimal (trim amount.toList) with
  | none => none
  | some (whole, fraction?) =>
    -- a group that did not take part is a missing fraction
    let fraction := fraction?.getD []
    if whole = [] ∧ fraction = [] then none
    else if fraction.length > decimals then none
    else some (bigInt whole * 10 ^ decimals + bigInt (fraction.rightpad decimals '0'))

def fromSmallestUnit (units : ℤ) (decimals : ℕ) : String :=
  let value := units.natAbs
  let base := 10 ^ decimals
  let whole := Nat.toDigits 10 (value / base)
  let fraction := trimZeros ((Nat.toDigits 10 (value % base)).leftpad decimals '0')
  String.ofList (minusSign units ++ joinPoint whole fraction)

example : toSmallestUnit " .5 " 7 = some 5000000 := by decide

/-! ## Reading -/

/-- A text spells a numeral: its digits, with a point between them that may be left out when none
follow. -/
def Spells (cs : List Char) (x : Numeral) : Prop :=
  (cs = x.whole ∧ x.frac = [] ∨ cs = x.whole ++ '.' :: x.frac) ∧ ¬ (x.whole = [] ∧ x.frac = [])

@[simp] theorem bigInt_eq (digits : List Char) : bigInt digits = value digits := by
  by_cases h : digits = [] <;> simp [bigInt, h]

theorem matchDecimal_eq_some_iff {whole : List Char} {fraction? : Option (List Char)} :
    matchDecimal cs = some (whole, fraction?) ↔ Digits whole ∧ match fraction? with
      | none => cs = whole
      | some fraction => Digits fraction ∧ cs = whole ++ '.' :: fraction := by
  constructor
  · intro h
    unfold matchDecimal at h
    split at h
    · next hnil =>
      obtain ⟨rfl, rfl⟩ : cs = whole ∧ none = fraction? := by simpa using h
      exact ⟨by simpa [Digits] using hnil, rfl⟩
    · next fraction hpoint =>
      split at h
      · next hall =>
        obtain ⟨rfl, rfl⟩ : cs.takeWhile Char.isDigit = whole ∧ some fraction = fraction? := by
          simpa using h
        refine ⟨fun c hc => List.mem_takeWhile_imp hc, by simpa [Digits] using hall, ?_⟩
        rw [← hpoint, List.takeWhile_append_dropWhile]
      · simp at h
    · simp at h
  · rintro ⟨hwhole, h⟩
    cases fraction? with
    | none =>
      obtain rfl := h
      have hnil : cs.dropWhile Char.isDigit = [] := by simpa [Digits] using hwhole
      simp [matchDecimal, hnil]
    | some fraction =>
      obtain ⟨hfraction, rfl⟩ := h
      have hdrop : (whole ++ '.' :: fraction).dropWhile Char.isDigit = '.' :: fraction := by
        rw [List.dropWhile_append_of_pos hwhole]
        rfl
      have htake : (whole ++ '.' :: fraction).takeWhile Char.isDigit = whole := by
        rw [List.takeWhile_append_of_pos hwhole]
        simp [List.takeWhile, Char.isDigit]
      have hall : fraction.all Char.isDigit = true := by simpa [Digits] using hfraction
      simp [matchDecimal, hdrop, htake, hall]

/-- What is computed from the groups is the value of the numeral in smallest units. -/
theorem cast_units (x : Numeral) (h : x.frac.length ≤ k) :
    ((value x.whole * 10 ^ k + value (x.frac.rightpad k '0') : ℕ) : ℚ) = x.value * 10 ^ k := by
  have hpow : (10 : ℚ) ^ k = 10 ^ x.frac.length * 10 ^ (k - x.frac.length) := by
    rw [← pow_add, Nat.add_sub_cancel' h]
  rw [List.rightpad, value_append, value_zeros, List.length_replicate, Numeral.value, fraction,
    hpow]
  push_cast
  rw [hpow]
  field_simp
  ring

/-- The groups of a text that spells a numeral. -/
theorem matchDecimal_of_spells (h : Spells cs x) :
    ∃ fraction?, matchDecimal cs = some (x.whole, fraction?) ∧ fraction?.getD [] = x.frac := by
  rcases h.1 with ⟨hcs, hfrac⟩ | hcs
  · exact ⟨none, matchDecimal_eq_some_iff.mpr ⟨x.digits_whole, hcs⟩, hfrac.symm⟩
  · exact ⟨some x.frac,
      matchDecimal_eq_some_iff.mpr ⟨x.digits_whole, x.digits_frac, hcs⟩, rfl⟩

/-- The numeral that the groups of a text spell. -/
theorem exists_spells {whole : List Char} {fraction? : Option (List Char)}
    (h : matchDecimal cs = some (whole, fraction?))
    (hne : ¬ (whole = [] ∧ fraction?.getD [] = [])) :
    ∃ x, Spells cs x ∧ x.whole = whole ∧ x.frac = fraction?.getD [] := by
  obtain ⟨hwhole, h⟩ := matchDecimal_eq_some_iff.mp h
  cases fraction? with
  | none => exact ⟨⟨whole, [], hwhole, digits_nil⟩, ⟨Or.inl ⟨h, rfl⟩, hne⟩, rfl, rfl⟩
  | some fraction =>
    exact ⟨⟨whole, fraction, hwhole, h.1⟩, ⟨Or.inr h.2, hne⟩, rfl, rfl⟩

/-- **A text is accepted exactly when it spells a numeral** with no more digits after the point than
the token has, as the value of the numeral in smallest units. -/
theorem toSmallestUnit_eq_some_iff : toSmallestUnit amount k = some n ↔
    ∃ x : Numeral, Spells (trim amount.toList) x ∧ x.frac.length ≤ k ∧
      (n : ℚ) = x.value * 10 ^ k := by
  constructor
  · intro h
    unfold toSmallestUnit at h
    split at h
    · simp at h
    · next whole fraction? hmatch =>
      dsimp only at h
      split at h
      · simp at h
      · next hne =>
        obtain ⟨x, hspells, rfl, hfrac⟩ := exists_spells hmatch hne
        rw [← hfrac] at h
        split at h
        · simp at h
        · next hlen =>
          rw [bigInt_eq, bigInt_eq] at h
          rw [← Option.some.inj h]
          exact ⟨x, hspells, not_lt.mp hlen, cast_units x (not_lt.mp hlen)⟩
  · rintro ⟨x, hspells, hlen, hn⟩
    obtain ⟨fraction?, hmatch, hfrac⟩ := matchDecimal_of_spells hspells
    rw [← cast_units x hlen] at hn
    rw [toSmallestUnit, hmatch]
    simp only [hfrac]
    rw [if_neg hspells.2, if_neg (not_lt.mpr hlen), bigInt_eq, bigInt_eq]
    exact congrArg some (by exact_mod_cast hn.symm)

/-- Which texts are accepted, whatever their value. -/
theorem toSmallestUnit_isSome_iff : (toSmallestUnit amount k).isSome ↔
    ∃ x : Numeral, Spells (trim amount.toList) x ∧ x.frac.length ≤ k := by
  rw [Option.isSome_iff_exists]
  constructor
  · rintro ⟨n, h⟩
    obtain ⟨x, hspells, hlen, -⟩ := toSmallestUnit_eq_some_iff.mp h
    exact ⟨x, hspells, hlen⟩
  · rintro ⟨x, hspells, hlen⟩
    exact ⟨_, toSmallestUnit_eq_some_iff.mpr ⟨x, hspells, hlen, cast_units x hlen⟩⟩

/-! ## Printing -/

/-- **The form prints the canonical numeral** of the amount over the power of ten. -/
theorem fromSmallestUnit_eq (units : ℤ) (k : ℕ) : ∃ x : Numeral, x.Canonical ∧
    x.value = units.natAbs / 10 ^ k ∧ x.frac.length ≤ k ∧
      fromSmallestUnit units k = String.ofList (minusSign units ++ x.text) := by
  have hmod : units.natAbs % 10 ^ k < 10 ^ k := Nat.mod_lt _ (Nat.pow_pos (by decide))
  refine ⟨⟨Nat.toDigits 10 (units.natAbs / 10 ^ k),
    trimZeros ((Nat.toDigits 10 (units.natAbs % 10 ^ k)).leftpad k '0'), digits_toDigits,
    digits_trimZeros (digits_leftpad digits_toDigits)⟩,
    ⟨Nat.toDigits_ne_nil, noLeadingZero_toDigits, noTrailingZero_trimZeros⟩, ?_,
    length_trimZeros_leftpad_le hmod, rfl⟩
  rw [Numeral.value, value_toDigits, fraction_trimZeros, fraction_leftpad hmod, cast_div_add_mod]

theorem trim_eq_self (h : ∀ c ∈ cs, isSpace c = false) : trim cs = cs := by
  have hdrop : cs.dropWhile isSpace = cs := by
    cases cs with
    | nil => rfl
    | cons c cs => rw [List.dropWhile_cons_of_neg (by simp [h c (by simp)])]
  rw [trim, hdrop]
  exact List.rdropWhile_eq_self_iff.mpr fun hne => by simp [h _ (List.getLast_mem hne)]

/-- Digits and the point are no white space. -/
theorem trim_text : trim x.text = x.text := by
  apply trim_eq_self
  intro c hc
  rcases List.mem_append.mp hc with hc | hc
  · exact isSpace_eq_false (x.digits_whole c hc)
  · split at hc
    · simp at hc
    · rcases List.mem_cons.mp hc with rfl | hc
      · decide
      · exact isSpace_eq_false (x.digits_frac c hc)

/-- A numeral spells itself. -/
theorem spells_text (h : x.whole ≠ []) : Spells x.text x := by
  refine ⟨?_, fun hnil => h hnil.1⟩
  by_cases hfrac : x.frac = []
  · exact Or.inl ⟨by simp [Numeral.text, hfrac], hfrac⟩
  · exact Or.inr (by simp [Numeral.text, hfrac])

/-- **Conversion**: printing and reading an amount that is not negative gives it back; the form and
the backend print the same canonical numeral of it; and a text is read exactly when it spells a
numeral with no more digits than the token has, as its value in smallest units. -/
theorem conversion (u k : ℕ) : toSmallestUnit (fromSmallestUnit u k) k = some u ∧
    (∃ x : Numeral, x.Canonical ∧ x.value = u / 10 ^ k ∧
      fromSmallestUnit u k = String.ofList x.text ∧
      formatTokenAmount u k = String.ofList x.text) ∧
    (∀ amount, (toSmallestUnit amount k).isSome ↔
      ∃ x : Numeral, Spells (trim amount.toList) x ∧ x.frac.length ≤ k) ∧
    ∀ amount n, toSmallestUnit amount k = some n ↔
      ∃ x : Numeral, Spells (trim amount.toList) x ∧ x.frac.length ≤ k ∧
        (n : ℚ) = x.value * 10 ^ k := by
  obtain ⟨x, hx, hvalue, hlen, hform⟩ := fromSmallestUnit_eq u k
  obtain ⟨y, hy, hvalue', hbackend⟩ := Http.formatTokenAmount_eq u k
  -- both print a canonical numeral of one number
  obtain rfl : x = y := hx.eq hy (hvalue.trans hvalue'.symm)
  have hsign : minusSign u = [] := if_neg (by omega)
  rw [hsign, List.nil_append] at hform hbackend
  rw [Int.natAbs_natCast] at hvalue
  refine ⟨?_, ⟨x, hx, hvalue, hform, hbackend⟩, fun _ => toSmallestUnit_isSome_iff,
    fun _ _ => toSmallestUnit_eq_some_iff⟩
  rw [hform, toSmallestUnit_eq_some_iff]
  refine ⟨x, ?_, hlen, ?_⟩
  · rw [String.toList_ofList, trim_text]
    exact spells_text hx.whole_ne_nil
  · rw [hvalue]
    field_simp

end Frontend
