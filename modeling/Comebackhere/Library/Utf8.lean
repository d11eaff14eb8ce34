import Mathlib.Data.Nat.Notation
import Mathlib.Logic.Function.Basic

/-!
# Texts as bytes

A text is encoded in UTF-8. Bytes that are no such encoding are decoded, too: what cannot be part of
a character becomes a replacement character.

## Main definitions

* `encode`, `decode`: the bytes of a text, and the text of bytes
* `Boundary text n`: the byte `n` of a text is between two of its characters
* `slice n text`: the text up to the byte `n`

## Main results

* `decode_encode`: decoding undoes encoding
* `encode_inj`: different texts have different bytes
* `slice_eq_some_iff`: a slice is a prefix of so many bytes
-/

namespace Utf8

/-- The bytes of a text. -/
def encode (text : List Char) : List UInt8 := text.flatMap String.utf8EncodeChar

/-! ## Decoding -/

def replacement : Char := Char.ofNat 0xfffd

/-- A character of which some bytes have been read: how many are needed, the range of the next, and
the number that those read denote. -/
structure Pending where
  needed : ℕ
  lower : ℕ
  upper : ℕ
  code : ℕ

/-- A byte at the start of a character: a character of one byte, or the first byte of a longer one.
The second byte has a smaller range where a shorter encoding exists, or no character. -/
def first (b : ℕ) : Char ⊕ Pending :=
  if b ≤ 0x7f then .inl (Char.ofNat b)
  else if 0xc2 ≤ b ∧ b ≤ 0xdf then .inr ⟨1, 0x80, 0xbf, b - 0xc0⟩
  else if b = 0xe0 then .inr ⟨2, 0xa0, 0xbf, 0⟩
  else if b = 0xed then .inr ⟨2, 0x80, 0x9f, 0xd⟩
  else if 0xe1 ≤ b ∧ b ≤ 0xef then .inr ⟨2, 0x80, 0xbf, b - 0xe0⟩
  else if b = 0xf0 then .inr ⟨3, 0x90, 0xbf, 0⟩
  else if 0xf1 ≤ b ∧ b ≤ 0xf3 then .inr ⟨3, 0x80, 0xbf, b - 0xf0⟩
  else if b = 0xf4 then .inr ⟨3, 0x80, 0x8f, 4⟩
  else .inl replacement

/-- Bytes with replacements for what is no character. A byte outside the range of the pending
character starts another one. -/
def repair : Option Pending → List UInt8 → List Char
  | none, [] => []
  | some _, [] => [replacement]
  | none, b :: bytes =>
    match first b.toNat with
    | .inl c => c :: repair none bytes
    | .inr pending => repair (some pending) bytes
  | some pending, b :: bytes =>
    if pending.lower ≤ b.toNat ∧ b.toNat ≤ pending.upper then
      let code := pending.code * 64 + b.toNat % 64
      if pending.needed = 1 then Char.ofNat code :: repair none bytes
      else repair (some ⟨pending.needed - 1, 0x80, 0xbf, code⟩) bytes
    else
      match first b.toNat with
      | .inl c => replacement :: c :: repair none bytes
      | .inr pending => replacement :: repair (some pending) bytes

/-- The text of bytes. -/
def decode (bytes : List UInt8) : List Char :=
  match bytes.toByteArray.utf8Decode? with
  | some text => text.toList
  | none => repair none bytes

example : decode [0x61, 0xe2, 0x82, 0x62] = ['a', replacement, 'b'] := by decide

/-- **Decoding undoes encoding.** -/
theorem decode_encode (text : List Char) : decode (encode text) = text := by
  have hencode : (encode text).toByteArray = text.utf8Encode := rfl
  rw [decode, hencode, List.utf8Decode?_utf8Encode]

theorem encode_inj {text text' : List Char} : encode text = encode text' ↔ text = text' :=
  (Function.LeftInverse.injective decode_encode).eq_iff

/-- Characters of one byte. -/
theorem length_encode {text : List Char} (h : ∀ c ∈ text, c.utf8Size = 1) :
    (encode text).length = text.length := by
  induction text with
  | nil => rfl
  | cons c text ih =>
    have ih := ih fun d hd => h d (List.mem_cons_of_mem c hd)
    have hc : (String.utf8EncodeChar c).length = c.utf8Size := String.length_utf8EncodeChar c
    rw [h c List.mem_cons_self] at hc
    simp only [encode, List.flatMap_cons, List.length_append, List.length_cons] at ih ⊢
    omega

/-- A character has at least a byte. -/
theorem length_le_encode (text : List Char) : text.length ≤ (encode text).length := by
  induction text with
  | nil => exact Nat.le_refl _
  | cons c text ih =>
    have hc : (String.utf8EncodeChar c).length = c.utf8Size := String.length_utf8EncodeChar c
    have hpos := Char.utf8Size_pos c
    simp only [encode, List.flatMap_cons, List.length_append, List.length_cons] at ih ⊢
    omega

theorem encode_append (text text' : List Char) :
    encode (text ++ text') = encode text ++ encode text' := List.flatMap_append

theorem length_encode_cons (c : Char) (text : List Char) :
    (encode (c :: text)).length = c.utf8Size + (encode text).length := by
  have hc : (String.utf8EncodeChar c).length = c.utf8Size := String.length_utf8EncodeChar c
  rw [encode, List.flatMap_cons, List.length_append, hc]
  rfl

/-! ## Slices -/

/-- The characters of a prefix have exactly `n` bytes. -/
def Boundary (text : List Char) (n : ℕ) : Prop := ∃ pre, pre <+: text ∧ (encode pre).length = n

/-- The text up to the byte `n`, if a character begins there or the text ends. -/
def slice : ℕ → List Char → Option (List Char)
  | 0, _ => some []
  | _ + 1, [] => none
  | n + 1, c :: text =>
    if c.utf8Size ≤ n + 1 then (slice (n + 1 - c.utf8Size) text).map (c :: ·) else none

theorem length_encode_eq_zero_iff {text : List Char} : (encode text).length = 0 ↔ text = [] := by
  constructor
  · intro h
    have hle := length_le_encode text
    exact List.length_eq_zero_iff.mp (by omega)
  · rintro rfl
    rfl

/-- **A slice is the prefix that has so many bytes.** -/
theorem slice_eq_some_iff {n : ℕ} {text pre : List Char} :
    slice n text = some pre ↔ pre <+: text ∧ (encode pre).length = n := by
  induction text generalizing n pre with
  | nil =>
    rw [List.prefix_nil]
    cases n with
    | zero =>
      rw [length_encode_eq_zero_iff, and_self, slice, Option.some_inj, eq_comm]
    | succ n =>
      constructor
      · intro h
        cases h
      · rintro ⟨rfl, h⟩
        cases h
  | cons c text ih =>
    cases n with
    | zero =>
      rw [length_encode_eq_zero_iff, slice, Option.some_inj, eq_comm]
      exact ⟨fun h => ⟨h ▸ List.nil_prefix, h⟩, And.right⟩
    | succ n =>
      cases pre with
      | nil => simp [slice, encode]
      | cons d pre =>
        rw [List.cons_prefix_cons, length_encode_cons, slice]
        split
        · next hle =>
          rw [Option.map_eq_some_iff]
          constructor
          · rintro ⟨pre', hpre, heq⟩
            obtain ⟨rfl, rfl⟩ := List.cons.inj heq
            obtain ⟨hinit, hlen⟩ := ih.mp hpre
            exact ⟨⟨rfl, hinit⟩, by omega⟩
          · rintro ⟨⟨rfl, hinit⟩, hlen⟩
            exact ⟨pre, ih.mpr ⟨hinit, by omega⟩, rfl⟩
        · next hlt =>
          constructor
          · intro h
            cases h
          · rintro ⟨⟨rfl, -⟩, hlen⟩
            omega

theorem slice_isSome_iff {n : ℕ} {text : List Char} :
    (slice n text).isSome ↔ Boundary text n := by
  simp only [Option.isSome_iff_exists, slice_eq_some_iff, Boundary]

end Utf8
