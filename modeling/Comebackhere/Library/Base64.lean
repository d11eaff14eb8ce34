import Mathlib.Data.List.Basic
import Mathlib.Data.List.TakeWhile
import Mathlib.Tactic.IntervalCases

/-!
# Base64 for URLs

Three bytes are written as four digits of six bits. The last digits stand for the bytes that are
left over, and nothing is padded. A reader takes the digits of either alphabet, skips what is no
digit, and stops at padding.

## Main definitions

* `encode`, `decode`: the digits of bytes, and the bytes of digits

## Main results

* `decode_encode`: decoding undoes encoding
* `forall_encode`: the digits are of the alphabet for URLs
* `length_encode`: there are at least four digits for three bytes
-/

namespace Base64

variable {bytes : List UInt8}

/-! ## Digits -/

/-- The digit of a number below 64. -/
def digit (n : ℕ) : Char :=
  if n < 26 then Char.ofNat (65 + n)
  else if n < 52 then Char.ofNat (71 + n)
  else if n < 62 then Char.ofNat (n - 4)
  else if n = 62 then '-'
  else '_'

/-- The number of a digit of either alphabet. -/
def value (c : Char) : Option ℕ :=
  if c.isUpper then some (c.toNat - 65)
  else if c.isLower then some (c.toNat - 71)
  else if c.isDigit then some (c.toNat + 4)
  else if c = '-' ∨ c = '+' then some 62
  else if c = '_' ∨ c = '/' then some 63
  else none

/-- `/[A-Za-z0-9_-]/`, the alphabet for URLs. -/
def isUrlDigit (c : Char) : Bool :=
  'A' ≤ c && c ≤ 'Z' || 'a' ≤ c && c ≤ 'z' || '0' ≤ c && c ≤ '9' || c = '_' || c = '-'

theorem value_digit {n : ℕ} (h : n < 64) : value (digit n) = some n := by
  interval_cases n <;> decide

theorem isUrlDigit_digit {n : ℕ} (h : n < 64) : isUrlDigit (digit n) = true := by
  interval_cases n <;> decide

theorem ne_padding {c : Char} (h : isUrlDigit c = true) : c ≠ '=' := by
  rintro rfl
  exact absurd h (by decide)

theorem isUrlDigit_toNat {c : Char} (h : isUrlDigit c = true) : c.toNat < 128 := by
  simp only [isUrlDigit, Char.le_def, UInt32.le_iff_toNat_le, Bool.or_eq_true, Bool.and_eq_true,
    decide_eq_true_eq] at h
  rcases h with (((⟨-, h⟩ | ⟨-, h⟩) | ⟨-, h⟩) | rfl) | rfl
  · exact h.trans_lt (by decide)
  · exact h.trans_lt (by decide)
  · exact h.trans_lt (by decide)
  · decide
  · decide

/-! ## Bytes -/

/-- The numbers of the digits of bytes. -/
def sextets : List UInt8 → List ℕ
  | a :: b :: c :: rest =>
    let n := a.toNat * 65536 + b.toNat * 256 + c.toNat
    n / 262144 :: n / 4096 % 64 :: n / 64 % 64 :: n % 64 :: sextets rest
  | [a, b] =>
    let n := a.toNat * 256 + b.toNat
    [n / 1024, n / 16 % 64, n % 16 * 4]
  | [a] => [a.toNat / 4, a.toNat % 4 * 16]
  | [] => []

/-- The bytes of the numbers of digits. Bits that are left over are dropped. -/
def octets : List ℕ → List UInt8
  | w :: x :: y :: z :: rest =>
    let n := ((w * 64 + x) * 64 + y) * 64 + z
    .ofNat (n / 65536) :: .ofNat (n / 256 % 256) :: .ofNat (n % 256) :: octets rest
  | [w, x, y] =>
    let n := (w * 64 + x) * 64 + y
    [.ofNat (n / 1024), .ofNat (n / 4 % 256)]
  | [w, x] => [.ofNat ((w * 64 + x) / 16)]
  | [_] | [] => []

def encode (bytes : List UInt8) : List Char := (sextets bytes).map digit

def decode (text : List Char) : List UInt8 :=
  octets ((text.takeWhile (· ≠ '=')).filterMap value)

example : encode "fooba".toUTF8.data.toList = "Zm9vYmE".toList := by decide

theorem sextets_lt {n : ℕ} (h : n ∈ sextets bytes) : n < 64 := by
  induction bytes using sextets.induct with
  | case1 a b c rest ih =>
    have ha := a.toNat_lt
    have hb := b.toNat_lt
    have hc := c.toNat_lt
    simp only [sextets, List.mem_cons] at h
    rcases h with rfl | rfl | rfl | rfl | h
    · omega
    · omega
    · omega
    · omega
    · exact ih h
  | case2 a b =>
    have ha := a.toNat_lt
    have hb := b.toNat_lt
    simp only [sextets, List.mem_cons, List.not_mem_nil, or_false] at h
    omega
  | case3 a =>
    have ha := a.toNat_lt
    simp only [sextets, List.mem_cons, List.not_mem_nil, or_false] at h
    omega
  | case4 => simp [sextets] at h

theorem ofNat_eq {a : UInt8} {n : ℕ} (h : n = a.toNat) : UInt8.ofNat n = a := by
  rw [h, UInt8.ofNat_toNat]

/-- The bytes are read from the numbers of their digits. -/
theorem octets_sextets (bytes : List UInt8) : octets (sextets bytes) = bytes := by
  induction bytes using sextets.induct with
  | case1 a b c rest ih =>
    have ha := a.toNat_lt
    have hb := b.toNat_lt
    have hc := c.toNat_lt
    simp only [sextets, octets, ih, List.cons.injEq, and_true]
    refine ⟨ofNat_eq ?_, ofNat_eq ?_, ofNat_eq ?_⟩ <;> omega
  | case2 a b =>
    have ha := a.toNat_lt
    have hb := b.toNat_lt
    simp only [sextets, octets, List.cons.injEq, and_true]
    refine ⟨ofNat_eq ?_, ofNat_eq ?_⟩ <;> omega
  | case3 a =>
    have ha := a.toNat_lt
    simp only [sextets, octets, List.cons.injEq, and_true]
    apply ofNat_eq
    omega
  | case4 => rfl

/-! ## Texts -/

/-- **The digits are of the alphabet for URLs.** -/
theorem forall_encode {c : Char} (h : c ∈ encode bytes) : isUrlDigit c = true := by
  obtain ⟨n, hn, rfl⟩ := List.mem_map.mp h
  exact isUrlDigit_digit (sextets_lt hn)

/-- **Decoding undoes encoding.** -/
theorem decode_encode (bytes : List UInt8) : decode (encode bytes) = bytes := by
  have hpadding : (encode bytes).takeWhile (· ≠ '=') = encode bytes :=
    List.takeWhile_eq_self_iff.mpr fun c hc => by simpa using ne_padding (forall_encode hc)
  have hvalues : (encode bytes).filterMap value = sextets bytes := by
    rw [encode, List.filterMap_map]
    refine (List.filterMap_congr fun n hn => ?_).trans List.filterMap_some
    exact value_digit (sextets_lt hn)
  rw [decode, hpadding, hvalues, octets_sextets]

/-- There are at least four digits for three bytes. -/
theorem length_encode (bytes : List UInt8) : 4 * bytes.length ≤ 3 * (encode bytes).length := by
  rw [encode, List.length_map]
  induction bytes using sextets.induct with
  | case1 a b c rest ih =>
    simp only [sextets, List.length_cons]
    omega
  | case2 a b => simp [sextets]
  | case3 a => simp [sextets]
  | case4 => simp [sextets]

end Base64
