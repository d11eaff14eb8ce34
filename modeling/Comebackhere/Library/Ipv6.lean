import Comebackhere.Library.Decimal
import Mathlib.Data.Nat.Bitwise
import Mathlib.Data.Nat.Digits.Lemmas

/-!
# IPv6 addresses in text

An IPv6 address of 128 bits is written as eight groups of up to four hexadecimal digits, with colons
between them. Groups that are zero may be left out in one place, where two colons stand then. The
last 32 bits may be written as an IPv4 address, and a zone may follow the address.

## Main definitions

* `hexValue ds`: the number that hexadecimal digits denote
* `Group`, `Quad`: a group, and an IPv4 address with points
* `Form`, `Spelling`: how an address is written, without and with a zone
* `Spelling.value`: the address that a text spells
* `Prefix`: the addresses that begin with the same bits

## Main results

* `hexValue_toDigits`: printed digits denote their number
* `Form.value_lt`: an address has 128 bits
* `Prefix.masked_eq_iff`: a prefix is tested by its mask
-/

namespace Ipv6

/-! ## Hexadecimal digits -/

def hexDigits : List Char := "0123456789abcdefABCDEF".toList

/-- The value of a hexadecimal digit. -/
def hexDigit (c : Char) : ℕ :=
  if c ≤ '9' then c.toNat - '0'.toNat
  else if c ≤ 'F' then c.toNat - 'A'.toNat + 10
  else c.toNat - 'a'.toNat + 10

/-- The number that hexadecimal digits denote. -/
def hexValue (ds : List Char) : ℕ := ds.foldl (fun value c => 16 * value + hexDigit c) 0

theorem hexValue_snoc (ds : List Char) (c : Char) :
    hexValue (ds ++ [c]) = 16 * hexValue ds + hexDigit c := by
  simp [hexValue]

theorem hexDigit_digitChar : ∀ d < 16, d.digitChar ∈ hexDigits ∧ hexDigit d.digitChar = d := by
  decide

theorem forall_hexDigits {p : Char → Prop} [DecidablePred p] (h : hexDigits.all (p ·)) :
    ∀ c ∈ hexDigits, p c := fun c hc => of_decide_eq_true (List.all_eq_true.mp h c hc)

theorem all_hex_iff {ds : List Char} : ds.all (· ∈ hexDigits) ↔ ∀ c ∈ ds, c ∈ hexDigits := by
  simp

theorem hexDigit_lt : ∀ c ∈ hexDigits, hexDigit c < 16 := forall_hexDigits (by decide)

/-- Capital letters denote the same number. -/
theorem hexDigit_toLower : ∀ c ∈ hexDigits, c.toLower ∈ hexDigits ∧
    hexDigit c.toLower = hexDigit c :=
  forall_hexDigits (by decide)

theorem ne_of_mem_hexDigits : ∀ c ∈ hexDigits, c ≠ ':' ∧ c ≠ '.' ∧ c ≠ '%' :=
  forall_hexDigits (by decide)

theorem mem_hexDigits_of_mem_toDigits {n : ℕ} : ∀ c ∈ Nat.toDigits 16 n, c ∈ hexDigits := by
  induction n using Nat.strong_induction_on with
  | _ n ih =>
    intro c hc
    rw [Nat.toDigits_eq_if (by decide)] at hc
    split at hc
    · next hlt => exact List.mem_singleton.mp hc ▸ (hexDigit_digitChar n hlt).1
    · rcases List.mem_append.mp hc with hc | hc
      · exact ih (n / 16) (by omega) c hc
      · exact List.mem_singleton.mp hc ▸ (hexDigit_digitChar _ (n.mod_lt (by decide))).1

/-- **Printed digits** denote their number. -/
theorem hexValue_toDigits (n : ℕ) : hexValue (Nat.toDigits 16 n) = n := by
  induction n using Nat.strong_induction_on with
  | _ n ih =>
    rw [Nat.toDigits_eq_if (by decide)]
    split
    · next hlt => simp [hexValue, (hexDigit_digitChar n hlt).2]
    · rw [hexValue_snoc, ih (n / 16) (by omega), (hexDigit_digitChar _ (n.mod_lt (by decide))).2]
      exact Nat.div_add_mod n 16

theorem hexValue_lt {ds : List Char} (h : ∀ c ∈ ds, c ∈ hexDigits) :
    hexValue ds < 16 ^ ds.length := by
  induction ds using List.reverseRecOn with
  | nil => simp [hexValue]
  | append_singleton ds c ih =>
    have hds := ih fun d hd => h d (by simp [hd])
    have hc := hexDigit_lt c (h c (by simp))
    rw [hexValue_snoc, List.length_append, List.length_singleton, pow_succ]
    omega

theorem hexValue_map_toLower {ds : List Char} (h : ∀ c ∈ ds, c ∈ hexDigits) :
    hexValue (ds.map Char.toLower) = hexValue ds := by
  induction ds using List.reverseRecOn with
  | nil => rfl
  | append_singleton ds c ih =>
    rw [List.map_append, List.map_singleton, hexValue_snoc, hexValue_snoc,
      ih fun d hd => h d (by simp [hd]), (hexDigit_toLower c (h c (by simp))).2]

/-! ## Groups and points -/

/-- A group of 16 bits: one to four hexadecimal digits. -/
structure Group where
  digits : List Char
  hex : ∀ c ∈ digits, c ∈ hexDigits
  nonempty : digits ≠ []
  short : digits.length ≤ 4

def Group.value (g : Group) : ℕ := hexValue g.digits

theorem Group.value_lt (g : Group) : g.value < 2 ^ 16 := by
  refine (hexValue_lt g.hex).trans_le ?_
  calc 16 ^ g.digits.length ≤ 16 ^ 4 := Nat.pow_le_pow_right (by decide) g.short
    _ = 2 ^ 16 := by decide

/-- A byte in decimal digits. -/
structure Octet where
  digits : List Char
  decimal : Decimal.Digits digits
  nonempty : digits ≠ []
  small : Decimal.value digits < 256

def Octet.value (o : Octet) : ℕ := Decimal.value o.digits

/-- An IPv4 address with points. -/
structure Quad where
  first : Octet
  second : Octet
  third : Octet
  fourth : Octet

namespace Quad

def octets (q : Quad) : List (List Char) :=
  [q.first.digits, q.second.digits, q.third.digits, q.fourth.digits]

def text (q : Quad) : List Char := ['.'].intercalate q.octets

/-- Its 32 bits. -/
def value (q : Quad) : ℕ :=
  q.first.value * 2 ^ 24 + q.second.value * 2 ^ 16 + q.third.value * 2 ^ 8 + q.fourth.value

theorem value_lt (q : Quad) : q.value < 2 ^ 32 := by
  have h₁ : q.first.value < 256 := q.first.small
  have h₂ : q.second.value < 256 := q.second.small
  have h₃ : q.third.value < 256 := q.third.small
  have h₄ : q.fourth.value < 256 := q.fourth.small
  rw [value]
  omega

/-- Its 32 bits as two groups. -/
def words (q : Quad) : List ℕ :=
  [q.first.value * 2 ^ 8 + q.second.value, q.third.value * 2 ^ 8 + q.fourth.value]

end Quad

/-! ## Spellings -/

/-- How many groups an IPv4 address at the end stands for. -/
def width : Option Quad → ℕ
  | none => 0
  | some _ => 2

def words (groups : List Group) (quad : Option Quad) : List ℕ :=
  groups.map Group.value ++ (quad.map Quad.words).getD []

/-- Groups, and an IPv4 address at their end, with colons between them. -/
def join (groups : List Group) (quad : Option Quad) : List Char :=
  [':'].intercalate (groups.map Group.digits ++ (quad.map Quad.text).toList)

/-- An address as it is written: with all its groups, or with two colons in the place of some that
are zero. -/
inductive Form
  | full (groups : List Group) (quad : Option Quad) (complete : groups.length + width quad = 8)
  | compressed (left right : List Group) (quad : Option Quad)
      (fewer : left.length + right.length + width quad ≤ 7)

namespace Form

def text : Form → List Char
  | full groups quad _ => join groups quad
  | compressed left right quad _ => join left none ++ [':', ':'] ++ join right quad

/-- The eight groups. -/
def words : Form → List ℕ
  | full groups quad _ => Ipv6.words groups quad
  | compressed left right quad _ =>
    Ipv6.words left none ++ List.replicate (8 - (left.length + right.length + width quad)) 0 ++
      Ipv6.words right quad

/-- The address, whose digits to the base `2 ^ 16` are the groups. -/
def value (f : Form) : ℕ := Nat.ofDigits (2 ^ 16) f.words.reverse

end Form

/-- An address, and the zone behind it. -/
structure Spelling where
  form : Form
  zone : Option (List Char)

namespace Spelling

def text (x : Spelling) : List Char := x.form.text ++ (x.zone.map ('%' :: ·)).getD []

def value (x : Spelling) : ℕ := x.form.value

end Spelling

theorem length_words (groups : List Group) (quad : Option Quad) :
    (words groups quad).length = groups.length + width quad := by
  cases quad <;> simp [words, Quad.words, width]

theorem lt_of_mem_words {groups : List Group} {quad : Option Quad} :
    ∀ w ∈ words groups quad, w < 2 ^ 16 := by
  intro w hw
  rcases List.mem_append.mp hw with hw | hw
  · obtain ⟨g, -, rfl⟩ := List.mem_map.mp hw
    exact g.value_lt
  · cases quad with
    | none => cases hw
    | some q =>
      have h₁ := q.first.small
      have h₂ := q.second.small
      have h₃ := q.third.small
      have h₄ := q.fourth.small
      simp only [Option.map_some, Option.getD_some, Quad.words, List.mem_cons, List.not_mem_nil,
        or_false, Octet.value] at hw
      rcases hw with rfl | rfl <;> omega

namespace Form

theorem length_words (f : Form) : f.words.length = 8 := by
  cases f with
  | full groups quad complete => rw [words, Ipv6.length_words, complete]
  | compressed left right quad fewer =>
    simp only [words, List.length_append, Ipv6.length_words, List.length_replicate,
      width] at fewer ⊢
    omega

theorem lt_of_mem_words (f : Form) : ∀ w ∈ f.words, w < 2 ^ 16 := by
  cases f with
  | full groups quad complete => exact Ipv6.lt_of_mem_words
  | compressed left right quad fewer =>
    intro w hw
    simp only [words, List.mem_append, List.mem_replicate] at hw
    rcases hw with (hw | ⟨-, rfl⟩) | hw
    · exact Ipv6.lt_of_mem_words w hw
    · decide
    · exact Ipv6.lt_of_mem_words w hw

/-- **An address has 128 bits.** -/
theorem value_lt (f : Form) : f.value < 2 ^ 128 := by
  have hlt := Nat.ofDigits_lt_base_pow_length (b := 2 ^ 16) (l := f.words.reverse) (by decide)
    fun w hw => f.lt_of_mem_words w (List.mem_reverse.mp hw)
  rw [List.length_reverse, length_words, ← pow_mul] at hlt
  exact hlt

end Form

/-! ## Prefixes -/

/-- The addresses of so many bits that begin with the same ones as a network. -/
structure Prefix (bits : ℕ) where
  network : ℕ
  length : ℕ

namespace Prefix

variable {bits : ℕ}

def Contains (p : Prefix bits) (n : ℕ) : Prop :=
  n / 2 ^ (bits - p.length) = p.network / 2 ^ (bits - p.length)

instance (p : Prefix bits) (n : ℕ) : Decidable (p.Contains n) :=
  inferInstanceAs (Decidable (_ = _))

/-- The bits that a prefix is about, and no others. -/
def mask (p : Prefix bits) : ℕ := ((2 ^ bits - 1) <<< (bits - p.length)) % 2 ^ bits

theorem testBit_mask (p : Prefix bits) (i : ℕ) :
    p.mask.testBit i = decide (bits - p.length ≤ i ∧ i < bits) := by
  rw [mask, Nat.testBit_mod_two_pow, Nat.testBit_shiftLeft, Nat.testBit_two_pow_sub_one]
  by_cases hi : i < bits <;> by_cases hk : bits - p.length ≤ i <;> simp [hi, hk]
  omega

/-- **A prefix is tested by its mask.** -/
theorem masked_eq_iff {p : Prefix bits} {n : ℕ} (hn : n < 2 ^ bits)
    (hnetwork : p.network < 2 ^ bits) :
    n &&& p.mask = p.network &&& p.mask ↔ p.Contains n := by
  rw [Contains]
  constructor
  · intro h
    apply Nat.eq_of_testBit_eq
    intro i
    rw [Nat.testBit_div_two_pow, Nat.testBit_div_two_pow]
    by_cases hi : i + (bits - p.length) < bits
    · have hbit := congrArg (·.testBit (i + (bits - p.length))) h
      simpa [Nat.testBit_and, testBit_mask, hi] using hbit
    · -- there are no bits beyond
      have hpow : 2 ^ bits ≤ 2 ^ (i + (bits - p.length)) :=
        Nat.pow_le_pow_right (by decide) (Nat.le_of_not_lt hi)
      rw [Nat.testBit_lt_two_pow (hn.trans_le hpow),
        Nat.testBit_lt_two_pow (hnetwork.trans_le hpow)]
  · intro h
    apply Nat.eq_of_testBit_eq
    intro i
    rw [Nat.testBit_and, Nat.testBit_and, testBit_mask]
    by_cases hi : bits - p.length ≤ i
    · have hbit := congrArg (·.testBit (i - (bits - p.length))) h
      simp only [Nat.testBit_div_two_pow, Nat.sub_add_cancel hi] at hbit
      rw [hbit]
    · simp [hi]

end Prefix

end Ipv6
