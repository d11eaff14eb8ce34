import Comebackhere.Library.JsonText

/-!
# Bytes in hexadecimal

Bytes are written with two lower-case digits each, and read in either case.

## Main definitions

* `write`, `read`: bytes as a text

## Main results

* `read_write`: what is written is read back
-/

namespace Hex

open JsonText (hexValue)

/-- The two digits of a byte. -/
def digits (b : UInt8) : List Char := [Nat.digitChar (b.toNat / 16), Nat.digitChar (b.toNat % 16)]

def write (bytes : List UInt8) : List Char := bytes.flatMap digits

/-- The bytes of a text of digits, two for each. -/
def read : List Char → Option (List UInt8)
  | [] => some []
  | [_] => none
  | high :: low :: cs => do
    let h ← hexValue high
    let l ← hexValue low
    return UInt8.ofNat (16 * h + l) :: (← read cs)

/-- A digit is read as its number. -/
theorem hexValue_digitChar {d : ℕ} (hd : d < 16) : hexValue (Nat.digitChar d) = some d := by
  interval_cases d <;> rfl

theorem length_write (bytes : List UInt8) : (write bytes).length = 2 * bytes.length := by
  induction bytes with
  | nil => rfl
  | cons b bytes ih =>
    rw [write, List.flatMap_cons, List.length_append]
    simp only [write] at ih
    rw [ih, List.length_cons]
    simp only [digits, List.length_cons, List.length_nil]
    omega

theorem isSome_hexValue_of_mem {bytes : List UInt8} {c : Char} (h : c ∈ write bytes) :
    (hexValue c).isSome := by
  obtain ⟨b, -, hc⟩ := List.mem_flatMap.mp h
  have hb : b.toNat < 256 := b.toNat_lt
  rcases List.mem_cons.mp hc with rfl | hc
  · rw [hexValue_digitChar (by omega)]
    rfl
  · rw [List.mem_singleton.mp hc, hexValue_digitChar (by omega)]
    rfl

/-- **What is written is read back.** -/
theorem read_write (bytes : List UInt8) : read (write bytes) = some bytes := by
  induction bytes with
  | nil => rfl
  | cons b bytes ih =>
    have hb : b.toNat < 256 := b.toNat_lt
    have hvalue : 16 * (b.toNat / 16) + b.toNat % 16 = b.toNat := by omega
    show read (Nat.digitChar (b.toNat / 16) :: Nat.digitChar (b.toNat % 16) :: write bytes) = _
    rw [read, hexValue_digitChar (by omega), hexValue_digitChar (by omega), ih]
    simp only [Option.bind_eq_bind, Option.bind_some, Option.pure_def, hvalue, UInt8.ofNat_toNat]

end Hex
