import Mathlib.Algebra.Order.Floor.Ring
import Mathlib.Data.List.DropRight
import Mathlib.Data.Rat.Floor
import Mathlib.Tactic.FieldSimp
import Mathlib.Tactic.Linarith
import Mathlib.Tactic.Positivity

/-!
# Decimal numerals

Digits, a point and digits after the point denote a rational number. The canonical numeral of a
number has no leading and no trailing zeros, and there is only one.

## Main definitions

* `value ds`, `fraction ds`: the number that digits denote, before and after a point
* `trimZeros ds`: the digits without the zeros at their end
* `Numeral`: digits before and after a point
* `roundAway m q`: `q` rounded to `m` digits after the point, a half away from zero

## Main results

* `eq_toDigits`: digits without a leading zero are those printed for their value
* `Numeral.Canonical.eq`: canonical numerals with the same value are equal
-/

namespace Decimal

variable {ds ds' : List Char} {n k : ℕ}

/-! ## Digits -/

/-- All the characters are decimal digits. -/
def Digits (ds : List Char) : Prop := ∀ c ∈ ds, c.isDigit

instance : Decidable (Digits ds) := decidable_of_iff (ds.all Char.isDigit) List.all_eq_true

/-- The number that digits denote. -/
def value (ds : List Char) : ℕ := Nat.ofDigitChars 10 ds 0

/-- The number that digits denote after a point. -/
def fraction (ds : List Char) : ℚ := value ds / 10 ^ ds.length

@[simp] theorem digits_nil : Digits [] := by simp [Digits]

@[simp] theorem digits_append : Digits (ds ++ ds') ↔ Digits ds ∧ Digits ds' :=
  List.forall_mem_append

theorem digits_cons {c : Char} : Digits (c :: ds) ↔ c.isDigit ∧ Digits ds := by
  simp [Digits]

@[simp] theorem digits_zeros : Digits (List.replicate n '0') := by
  simp [Digits, Char.isDigit]

@[simp] theorem digits_toDigits : Digits (Nat.toDigits 10 n) := fun _ hc =>
  Nat.isDigit_of_mem_toDigits (by decide) (by decide) hc

@[simp] theorem value_nil : value [] = 0 := rfl

@[simp] theorem value_zero : value ['0'] = 0 := rfl

@[simp] theorem value_append : value (ds ++ ds') = value ds * 10 ^ ds'.length + value ds' := by
  rw [value, Nat.ofDigitChars_append, Nat.ofDigitChars_eq_ofDigitChars_zero, mul_comm]
  rfl

@[simp] theorem value_zeros : value (List.replicate n '0') = 0 := by
  simp [value]

@[simp] theorem value_toDigits : value (Nat.toDigits 10 n) = n := Nat.ofDigitChars_ten_toDigits

@[simp] theorem value_leftpad : value (ds.leftpad n '0') = value ds := by
  simp [List.leftpad]

theorem digits_leftpad (h : Digits ds) : Digits (ds.leftpad n '0') := by
  simp [List.leftpad, h]

/-- The value of a digit. -/
theorem isDigit_toNat {c : Char} (hc : c.isDigit) : 48 ≤ c.toNat ∧ c.toNat ≤ 57 := by
  simpa [Char.isDigit, UInt32.le_iff_toNat_le] using hc

theorem value_cons {c : Char} :
    value (c :: ds) = (c.toNat - 48) * 10 ^ ds.length + value ds := by
  rw [← List.singleton_append, value_append]
  simp [value, Nat.ofDigitChars_cons]

theorem value_lt (h : Digits ds) : value ds < 10 ^ ds.length := by
  induction ds with
  | nil => simp
  | cons c ds ih =>
    obtain ⟨hc, hds⟩ := digits_cons.mp h
    have hrest := ih hds
    have hdigit := isDigit_toNat hc
    rw [value_cons, List.length_cons, pow_succ]
    have hle : (c.toNat - 48) * 10 ^ ds.length ≤ 9 * 10 ^ ds.length :=
      Nat.mul_le_mul_right _ (by omega)
    omega

/-- As many digits are in the order of the first one, and then of the others. -/
theorem value_cons_lt_iff {c c' : Char} (h : Digits (c :: ds)) (h' : Digits (c' :: ds'))
    (hlen : ds.length = ds'.length) :
    value (c :: ds) < value (c' :: ds') ↔
      c.toNat < c'.toNat ∨ c.toNat = c'.toNat ∧ value ds < value ds' := by
  obtain ⟨hc, hds⟩ := digits_cons.mp h
  obtain ⟨hc', hds'⟩ := digits_cons.mp h'
  have hd := isDigit_toNat hc
  have hd' := isDigit_toNat hc'
  have hlt := value_lt hds
  have hlt' := value_lt hds'
  rw [value_cons, value_cons, hlen]
  rw [hlen] at hlt
  -- a greater digit outweighs those after it
  rcases Nat.lt_trichotomy c.toNat c'.toNat with hchar | hchar | hchar
  · have hmul := Nat.mul_le_mul_right (10 ^ ds'.length)
      (show c.toNat - 48 + 1 ≤ c'.toNat - 48 by omega)
    rw [Nat.succ_mul] at hmul
    omega
  · rw [hchar]
    omega
  · have hmul := Nat.mul_le_mul_right (10 ^ ds'.length)
      (show c'.toNat - 48 + 1 ≤ c.toNat - 48 by omega)
    rw [Nat.succ_mul] at hmul
    omega

/-- As many digits with the same value are the same digits. -/
theorem eq_of_value_eq (h : Digits ds) (h' : Digits ds') (hlen : ds.length = ds'.length)
    (hval : value ds = value ds') : ds = ds' := by
  induction ds generalizing ds' with
  | nil => exact (List.length_eq_zero_iff.mp hlen.symm).symm
  | cons c ds ih =>
    cases ds' with
    | nil => simp at hlen
    | cons c' ds' =>
      have hlen : ds.length = ds'.length := by simpa using hlen
      have hless := (value_cons_lt_iff h h' hlen).not.mp hval.not_lt
      have hgreater := (value_cons_lt_iff h' h hlen.symm).not.mp hval.not_gt
      have hchar : c.toNat = c'.toNat := by omega
      have hrest : value ds = value ds' := by omega
      rw [Char.toNat_inj.mp hchar, ih (digits_cons.mp h).2 (digits_cons.mp h').2 hlen hrest]

/-- As many digits are in the order of their values. -/
theorem lt_of_value_lt (h : Digits ds) (h' : Digits ds') (hlen : ds.length = ds'.length)
    (hval : value ds < value ds') : ds < ds' := by
  induction ds generalizing ds' with
  | nil =>
    rw [List.length_eq_zero_iff.mp hlen.symm] at hval
    exact absurd hval (lt_irrefl _)
  | cons c ds ih =>
    cases ds' with
    | nil => simp at hlen
    | cons c' ds' =>
      have hlen : ds.length = ds'.length := by simpa using hlen
      rcases (value_cons_lt_iff h h' hlen).mp hval with hchar | ⟨hchar, hrest⟩
      · exact List.Lex.rel hchar
      · rw [Char.toNat_inj.mp hchar]
        exact List.Lex.cons (ih (digits_cons.mp h).2 (digits_cons.mp h').2 hlen hrest)

theorem repr_inj {m : ℕ} (h : Nat.repr m = Nat.repr n) : m = n := by
  have hdigits : Nat.toDigits 10 m = Nat.toDigits 10 n := by
    simpa only [Nat.toList_repr] using congrArg String.toList h
  rw [← value_toDigits (n := m), hdigits, value_toDigits]

/-- No digit is a sign. -/
theorem repr_ne_sign (m : ℕ) (s : String) : Nat.repr m ≠ "-" ++ s := by
  intro h
  have hmem : '-' ∈ Nat.toDigits 10 m := by
    have hlist := congrArg String.toList h
    rw [Nat.toList_repr, String.toList_append] at hlist
    simp [hlist]
  exact absurd (digits_toDigits _ hmem) (by decide)

/-- Different integers have different texts. -/
theorem toString_int_inj {a b : ℤ} (h : toString a = toString b) : a = b := by
  cases a with
  | ofNat m =>
    cases b with
    | ofNat n => exact congrArg Int.ofNat (repr_inj h)
    | negSucc n => exact absurd h (repr_ne_sign m _)
  | negSucc m =>
    cases b with
    | ofNat n => exact absurd h.symm (repr_ne_sign n _)
    | negSucc n =>
      have htext : "-" ++ Nat.repr (m + 1) = "-" ++ Nat.repr (n + 1) := h
      have hsucc := repr_inj ((String.append_right_inj "-").mp htext)
      exact congrArg Int.negSucc (Nat.succ_inj.mp hsucc)

theorem length_toDigits_le (h : n < 10 ^ k) (hk : 0 < k) : (Nat.toDigits 10 n).length ≤ k :=
  (Nat.length_toDigits_le_iff (by decide) hk).mpr h

/-- No digits but zero itself start with a zero. -/
def NoLeadingZero (ds : List Char) : Prop := ds.head? = some '0' → ds = ['0']

/-- **Digits without a leading zero are those printed for their value.** -/
theorem eq_toDigits (h : Digits ds) (hne : ds ≠ []) (hlead : NoLeadingZero ds) :
    ds = Nat.toDigits 10 (value ds) := by
  refine eq_of_value_eq h digits_toDigits (le_antisymm ?_ ?_) value_toDigits.symm
  · -- fewer digits would print a smaller number
    cases ds with
    | nil => simp
    | cons c ds =>
      rcases Nat.eq_zero_or_pos ds.length with hds | hds
      · rw [List.length_cons, hds]
        exact Nat.length_toDigits_pos
      · by_contra hlt
        have hsmall := (Nat.length_toDigits_le_iff (by decide) hds).mp
          (Nat.le_of_lt_succ (not_le.mp hlt))
        obtain ⟨hc, -⟩ := digits_cons.mp h
        have hchar : c ≠ '0' := by
          rintro rfl
          simp [NoLeadingZero, List.length_pos_iff.mp hds] at hlead
        have hdigit := isDigit_toNat hc
        have hpos : 1 ≤ c.toNat - 48 := by
          have hne : c.toNat ≠ 48 := fun he => hchar (Char.toNat_inj.mp he)
          omega
        have hle := Nat.mul_le_mul_right (10 ^ ds.length) hpos
        rw [value_cons] at hsmall
        omega
  · exact length_toDigits_le (value_lt h) (List.length_pos_iff.mpr hne)

theorem noLeadingZero_toDigits : NoLeadingZero (Nat.toDigits 10 n) := by
  induction n using Nat.strong_induction_on with
  | _ n ih =>
    rw [NoLeadingZero, Nat.toDigits_eq_if (by decide)]
    split
    · intro hhead
      simpa using hhead
    · next hn =>
      -- the first digit is that of the quotient, which is not zero
      intro hhead
      rw [List.head?_append_of_ne_nil _ Nat.toDigits_ne_nil] at hhead
      have hzero := congrArg value (ih (n / 10) (by omega) hhead)
      rw [value_toDigits, value_zero] at hzero
      omega

/-- The digits of a multiple of a power of ten end with zeros. -/
theorem toDigits_mul_pow (hn : n ≠ 0) :
    Nat.toDigits 10 (n * 10 ^ k) = Nat.toDigits 10 n ++ List.replicate k '0' := by
  have hlead : NoLeadingZero (Nat.toDigits 10 n ++ List.replicate k '0') := by
    intro hhead
    rw [List.head?_append_of_ne_nil _ Nat.toDigits_ne_nil] at hhead
    have hzero := congrArg value (noLeadingZero_toDigits hhead)
    rw [value_toDigits, value_zero] at hzero
    exact absurd hzero hn
  have heq := eq_toDigits (digits_append.mpr ⟨digits_toDigits, digits_zeros⟩) (by simp) hlead
  rw [heq, value_append, value_zeros, value_toDigits, List.length_replicate, add_zero]

/-! ## Digits after a point -/

theorem fraction_nonneg : 0 ≤ fraction ds := by
  unfold fraction
  positivity

theorem fraction_lt_one (h : Digits ds) : fraction ds < 1 := by
  have hlt : (value ds : ℚ) < 10 ^ ds.length := by exact_mod_cast value_lt h
  rwa [fraction, div_lt_one (by positivity)]

@[simp] theorem fraction_append_zeros : fraction (ds ++ List.replicate n '0') = fraction ds := by
  simp only [fraction, value_append, value_zeros, List.length_append, List.length_replicate,
    pow_add, add_zero]
  push_cast
  field_simp

/-- The digits without the zeros at their end. -/
def trimZeros (ds : List Char) : List Char := ds.rdropWhile (· = '0')

theorem trimZeros_append_zeros (ds : List Char) :
    ∃ n, ds = trimZeros ds ++ List.replicate n '0' := by
  refine ⟨(ds.rtakeWhile (· = '0')).length, ?_⟩
  have hzeros : ds.rtakeWhile (· = '0') =
      List.replicate (ds.rtakeWhile (· = '0')).length '0' :=
    List.eq_replicate_of_mem fun c hc => by simpa using List.mem_rtakeWhile_imp hc
  rw [trimZeros, ← hzeros, List.rdropWhile_append_rtakeWhile]

@[simp] theorem fraction_trimZeros : fraction (trimZeros ds) = fraction ds := by
  obtain ⟨n, hn⟩ := trimZeros_append_zeros ds
  conv_rhs => rw [hn]
  rw [fraction_append_zeros]

/-- No zero stands at the end. -/
def NoTrailingZero (ds : List Char) : Prop := ds.getLast? ≠ some '0'

theorem noTrailingZero_trimZeros : NoTrailingZero (trimZeros ds) := by
  intro hlast
  have hne : trimZeros ds ≠ [] := by
    intro he
    simp [he] at hlast
  have hlast' : (trimZeros ds).getLast hne = '0' := by
    rw [List.getLast?_eq_getLast_of_ne_nil hne] at hlast
    exact Option.some.inj hlast
  exact List.rdropWhile_last_not (· = '0') ds hne (decide_eq_true hlast')

theorem digits_trimZeros (h : Digits ds) : Digits (trimZeros ds) := fun c hc =>
  h c ((List.rdropWhile_prefix _ ds).subset hc)

theorem length_trimZeros_le : (trimZeros ds).length ≤ ds.length :=
  (List.rdropWhile_prefix _ ds).length_le

theorem trimZeros_eq_self (h : NoTrailingZero ds) : trimZeros ds = ds := by
  refine List.rdropWhile_eq_self_iff.mpr fun hne => ?_
  rw [NoTrailingZero, List.getLast?_eq_getLast_of_ne_nil hne] at h
  simpa using h

@[simp] theorem trimZeros_append_replicate :
    trimZeros (ds ++ List.replicate n '0') = trimZeros ds := by
  induction n with
  | zero => simp
  | succ n ih =>
    rw [List.replicate_succ', ← List.append_assoc, trimZeros,
      List.rdropWhile_concat_pos _ _ _ (by simp)]
    exact ih

/-- Digits with the same fraction agree up to the zeros at their ends. -/
theorem trimZeros_eq_of_fraction_eq (h : Digits ds) (h' : Digits ds')
    (hfrac : fraction ds = fraction ds') : trimZeros ds = trimZeros ds' := by
  -- both are filled up with zeros to the same length
  have hpad : ds ++ List.replicate ds'.length '0' = ds' ++ List.replicate ds.length '0' := by
    refine eq_of_value_eq (by simp [h]) (by simp [h']) (by simp [add_comm]) ?_
    have hq : fraction (ds ++ List.replicate ds'.length '0') =
        fraction (ds' ++ List.replicate ds.length '0') := by simpa using hfrac
    simp only [fraction, List.length_append, List.length_replicate, add_comm ds'.length] at hq
    rw [div_left_inj' (by positivity)] at hq
    exact_mod_cast hq
  rw [← trimZeros_append_replicate (n := ds'.length), hpad, trimZeros_append_replicate]

/-- The digits of a remainder, filled up to the length of the divisor. -/
theorem fraction_leftpad (h : n < 10 ^ k) :
    fraction ((Nat.toDigits 10 n).leftpad k '0') = n / 10 ^ k := by
  rcases Nat.eq_zero_or_pos k with rfl | hk
  · obtain rfl : n = 0 := by simpa using h
    simp [fraction]
  · rw [fraction, value_leftpad, value_toDigits, List.length_leftpad,
      max_eq_left (length_toDigits_le h hk)]

theorem length_trimZeros_leftpad_le (h : n < 10 ^ k) :
    (trimZeros ((Nat.toDigits 10 n).leftpad k '0')).length ≤ k := by
  rcases Nat.eq_zero_or_pos k with rfl | hk
  · obtain rfl : n = 0 := by simpa using h
    simp [trimZeros, Nat.toDigits_zero, List.leftpad]
  · refine length_trimZeros_le.trans ?_
    rw [List.length_leftpad, max_eq_left (length_toDigits_le h hk)]

/-! ## Numerals -/

/-- Digits before and after a point. -/
structure Numeral where
  whole : List Char
  frac : List Char
  digits_whole : Digits whole
  digits_frac : Digits frac

namespace Numeral

/-- The number a numeral denotes. -/
def value (x : Numeral) : ℚ := Decimal.value x.whole + fraction x.frac

/-- The numeral as it is written: without a point, when no digits follow it. -/
def text (x : Numeral) : List Char := x.whole ++ if x.frac = [] then [] else '.' :: x.frac

/-- The numeral has no needless zeros. -/
structure Canonical (x : Numeral) : Prop where
  whole_ne_nil : x.whole ≠ []
  noLeadingZero : NoLeadingZero x.whole
  noTrailingZero : NoTrailingZero x.frac

/-- The digits before the point denote the integer part. -/
theorem floor_value (x : Numeral) : ⌊x.value⌋ = Decimal.value x.whole := by
  rw [Int.floor_eq_iff]
  have hnonneg : 0 ≤ fraction x.frac := fraction_nonneg
  have hlt := fraction_lt_one x.digits_frac
  unfold value
  push_cast
  constructor <;> linarith

/-- **There is only one canonical numeral of a number.** -/
theorem Canonical.eq {x y : Numeral} (hx : x.Canonical) (hy : y.Canonical)
    (hval : x.value = y.value) : x = y := by
  have hfloor : Decimal.value x.whole = Decimal.value y.whole := by
    have h := congrArg Int.floor hval
    rw [floor_value, floor_value] at h
    exact_mod_cast h
  have hfrac : fraction x.frac = fraction y.frac := by
    unfold value at hval
    rw [hfloor] at hval
    exact add_left_cancel hval
  have hwhole : x.whole = y.whole := by
    rw [eq_toDigits x.digits_whole hx.whole_ne_nil hx.noLeadingZero, hfloor,
      ← eq_toDigits y.digits_whole hy.whole_ne_nil hy.noLeadingZero]
  have hfrac : x.frac = y.frac := by
    rw [← trimZeros_eq_self hx.noTrailingZero, ← trimZeros_eq_self hy.noTrailingZero]
    exact trimZeros_eq_of_fraction_eq x.digits_frac y.digits_frac hfrac
  cases x
  cases y
  simp_all

end Numeral

/-- A quotient and its remainder, over the divisor. -/
theorem cast_div_add_mod (n k : ℕ) :
    ((n / 10 ^ k : ℕ) : ℚ) + ((n % 10 ^ k : ℕ) : ℚ) / 10 ^ k = n / 10 ^ k := by
  have h : (10 : ℚ) ^ k * (n / 10 ^ k : ℕ) + (n % 10 ^ k : ℕ) = n := by
    exact_mod_cast Nat.div_add_mod n (10 ^ k)
  rw [← h]
  field_simp

/-! ## Rounding -/

/-- `q` rounded to `m` digits after the point, a half away from zero. -/
def roundAway (m : ℕ) (q : ℚ) : ℚ :=
  (if q < 0 then -1 else 1) * (⌊|q| * 10 ^ m + 1 / 2⌋ / 10 ^ m)

/-- A quotient rounded by its remainder. -/
theorem floor_add_half (n k : ℕ) : ⌊(n : ℚ) / 10 ^ k + 1 / 2⌋ =
    ((n / 10 ^ k + if 10 ^ k ≤ n % 10 ^ k * 2 then 1 else 0 : ℕ) : ℤ) := by
  rw [← cast_div_add_mod n k]
  have hpos : (0 : ℚ) < 10 ^ k := by positivity
  have hmod : n % 10 ^ k < 10 ^ k := Nat.mod_lt n (Nat.pow_pos (by decide))
  generalize n / 10 ^ k = quotient
  generalize n % 10 ^ k = remainder at hmod ⊢
  have hlt : (remainder : ℚ) / 10 ^ k < 1 := by
    rw [div_lt_one hpos]
    exact_mod_cast hmod
  have hnonneg : 0 ≤ (remainder : ℚ) / 10 ^ k := by positivity
  rw [Int.floor_eq_iff]
  split
  · next h =>
    have h : (10 : ℚ) ^ k ≤ remainder * 2 := by exact_mod_cast h
    have hhalf : 1 / 2 ≤ (remainder : ℚ) / 10 ^ k := by
      rw [le_div_iff₀ hpos]
      linarith
    push_cast
    constructor <;> linarith
  · next h =>
    have h : (remainder : ℚ) * 2 < 10 ^ k := by exact_mod_cast not_le.mp h
    have hhalf : (remainder : ℚ) / 10 ^ k < 1 / 2 := by
      rw [div_lt_iff₀ hpos]
      linarith
    push_cast
    constructor <;> linarith

end Decimal
