import Comebackhere.Library.Decimal
import Comebackhere.Library.Double
import Mathlib.Tactic.IntervalCases

/-!
# JSON texts

A reader of the whole grammar, and a printer of the objects whose members are integers and strings.
Numbers are read as doubles. A string is read in units of UTF-16; two escaped surrogates are one
character, and one that stands alone is replaced.

## Main definitions

* `Value`, `Value.get`: the values, and the member of an object
* `parse text`: the value of a text
* `Scalar`, `stringify members`: the text of an object

## Main results

* `readString_quoted`: a quoted string is read back
* `readNumber_integer`: a printed integer is read back
* `parse_stringify`: a printed object is read back
-/

namespace JsonText

open Decimal Double

/-- A value. A number is a double, unless it is infinite. -/
inductive Value
  | null
  | bool (b : Bool)
  | number (x : Option ℚ)
  | string (text : List Char)
  | array (items : List Value)
  | object (members : List (List Char × Value))

/-- The member of an object. The last one counts, if several have its name. -/
def Value.get (name : List Char) : Value → Option Value
  | object members => (members.reverse.find? (·.1 = name)).map (·.2)
  | _ => none

/-! ## Strings -/

/-- The number of a hexadecimal digit. -/
def hexValue (c : Char) : Option ℕ :=
  if c.isDigit then some (c.toNat - 48)
  else if 'a' ≤ c ∧ c ≤ 'f' then some (c.toNat - 87)
  else if 'A' ≤ c ∧ c ≤ 'F' then some (c.toNat - 55)
  else none

/-- A character, or half of one. -/
def unit (n : ℕ) : Char ⊕ ℕ := if 0xd800 ≤ n ∧ n < 0xe000 then .inr n else .inl (Char.ofNat n)

/-- The character that a letter behind a backslash stands for. -/
def escaped : Char → Option Char
  | '"' => some '"'
  | '\\' => some '\\'
  | '/' => some '/'
  | 'b' => some '\x08'
  | 'f' => some '\x0c'
  | 'n' => some '\n'
  | 'r' => some '\r'
  | 't' => some '\t'
  | _ => none

/-- The unit of four hexadecimal digits. -/
def codeUnit (w x y z : Char) : Option (Char ⊕ ℕ) := do
  return unit ((((← hexValue w) * 16 + (← hexValue x)) * 16 + (← hexValue y)) * 16 + (← hexValue z))

/-- A string up to the quote that closes it, and what is behind. -/
def readString : List Char → Option (List (Char ⊕ ℕ) × List Char)
  | [] => none
  | '"' :: cs => some ([], cs)
  | '\\' :: 'u' :: w :: x :: y :: z :: cs => do
    let c ← codeUnit w x y z
    let (units, rest) ← readString cs
    return (c :: units, rest)
  | '\\' :: c :: cs => do
    let c ← escaped c
    let (units, rest) ← readString cs
    return (.inl c :: units, rest)
  | c :: cs => do
    let c ← if c.toNat < 32 then none else some c
    let (units, rest) ← readString cs
    return (.inl c :: units, rest)

/-- The character of two surrogates. -/
def pair (high low : ℕ) : Char := Char.ofNat (0x10000 + (high - 0xd800) * 0x400 + (low - 0xdc00))

/-- The characters of a string, behind a high surrogate or not. -/
def join : Option ℕ → List (Char ⊕ ℕ) → List Char
  | none, [] => []
  | some _, [] => ['\ufffd']
  | none, .inl c :: units => c :: join none units
  | some _, .inl c :: units => '\ufffd' :: c :: join none units
  | none, .inr n :: units =>
    if n < 0xdc00 then join (some n) units else '\ufffd' :: join none units
  | some high, .inr n :: units =>
    if n < 0xdc00 then '\ufffd' :: join (some n) units else pair high n :: join none units

/-! ## Numbers -/

/-- At least one digit. -/
def readDigits (cs : List Char) : Option (List Char × List Char) :=
  let ds := cs.takeWhile Char.isDigit
  if ds = [] then none else some (ds, cs.drop ds.length)

/-- Digits without a leading zero. -/
def readInteger : List Char → Option (List Char × List Char)
  | '0' :: cs => some (['0'], cs)
  | cs => readDigits cs

/-- The digits behind a point, if there is one. -/
def readFraction : List Char → Option (List Char × List Char)
  | '.' :: cs => readDigits cs
  | cs => some ([], cs)

/-- The exponent, if there is one. -/
def readExponent : List Char → Option (ℤ × List Char)
  | [] => some (0, [])
  | c :: cs =>
    if c = 'e' ∨ c = 'E' then do
      let signed := cs.head? = some '+' ∨ cs.head? = some '-'
      let (ds, rest) ← readDigits (if signed then cs.tail else cs)
      return (if cs.head? = some '-' then -value ds else value ds, rest)
    else some (0, c :: cs)

/-- The number that digits and an exponent denote. -/
def decimal (whole frac : List Char) (exponent : ℤ) : ℚ :=
  value (whole ++ frac) * 10 ^ (exponent - frac.length)

def readUnsigned (cs : List Char) : Option (ℚ × List Char) := do
  let (whole, cs) ← readInteger cs
  let (frac, cs) ← readFraction cs
  let (exponent, cs) ← readExponent cs
  return (decimal whole frac exponent, cs)

def readNumber : List Char → Option (ℚ × List Char)
  | '-' :: cs => (readUnsigned cs).map fun (q, rest) => (-q, rest)
  | cs => readUnsigned cs

/-! ## Values -/

def isSpace (c : Char) : Bool := c = ' ' ∨ c = '\t' ∨ c = '\n' ∨ c = '\r'

def skipSpace (cs : List Char) : List Char := cs.dropWhile isSpace

/-- A character behind white space. -/
def expect (c : Char) (cs : List Char) : Option (List Char) :=
  if (skipSpace cs).head? = some c then some (skipSpace cs).tail else none

mutual

/-- A value, and what is behind it. Every call uses up a character, and one of the fuel. -/
def readValue : ℕ → List Char → Option (Value × List Char)
  | 0, _ => none
  | fuel + 1, cs =>
    match skipSpace cs with
    | '{' :: cs =>
      match expect '}' cs with
      | some rest => some (.object [], rest)
      | none => (readMembers fuel cs).map fun (members, rest) => (.object members, rest)
    | '[' :: cs =>
      match expect ']' cs with
      | some rest => some (.array [], rest)
      | none => (readItems fuel cs).map fun (items, rest) => (.array items, rest)
    | '"' :: cs => (readString cs).map fun (units, rest) => (.string (join none units), rest)
    | 't' :: 'r' :: 'u' :: 'e' :: rest => some (.bool true, rest)
    | 'f' :: 'a' :: 'l' :: 's' :: 'e' :: rest => some (.bool false, rest)
    | 'n' :: 'u' :: 'l' :: 'l' :: rest => some (.null, rest)
    | cs => (readNumber cs).map fun (q, rest) => (.number (double q), rest)

/-- The members of an object, and what is behind its brace. -/
def readMembers : ℕ → List Char → Option (List (List Char × Value) × List Char)
  | 0, _ => none
  | fuel + 1, cs => do
    let (name, cs) ← readString (← expect '"' cs)
    let (v, cs) ← readValue fuel (← expect ':' cs)
    match expect ',' cs with
    | some cs =>
      let (members, rest) ← readMembers fuel cs
      return ((join none name, v) :: members, rest)
    | none => return ([(join none name, v)], ← expect '}' cs)

/-- The items of an array, and what is behind its bracket. -/
def readItems : ℕ → List Char → Option (List Value × List Char)
  | 0, _ => none
  | fuel + 1, cs => do
    let (v, cs) ← readValue fuel cs
    match expect ',' cs with
    | some cs =>
      let (items, rest) ← readItems fuel cs
      return (v :: items, rest)
    | none => return ([v], ← expect ']' cs)

end

/-- `JSON.parse`. A text that is no value has none. -/
def parse (text : List Char) : Option Value :=
  match readValue (text.length + 1) text with
  | some (v, rest) => if skipSpace rest = [] then some v else none
  | none => none

/-! ## Printed objects -/

/-- What a member is printed of. -/
inductive Scalar
  | null
  | integer (n : ℤ)
  | string (text : List Char)

def Scalar.value : Scalar → Value
  | null => .null
  | integer n => .number (double n)
  | string text => .string text

/-- The letter of a control character that has one. -/
def letter (c : Char) : Option Char :=
  if c = '\x08' then some 'b' else if c = '\t' then some 't' else if c = '\n' then some 'n'
  else if c = '\x0c' then some 'f' else if c = '\r' then some 'r' else none

/-- A character inside a string. -/
def escape (c : Char) : List Char :=
  if c = '"' ∨ c = '\\' then ['\\', c]
  else if 32 ≤ c.toNat then [c]
  else match letter c with
    | some c => ['\\', c]
    | none => '\\' :: 'u' :: (Nat.toDigits 16 c.toNat).leftpad 4 '0'

def quoted (text : List Char) : List Char := '"' :: text.flatMap escape ++ ['"']

def integerText (n : ℤ) : List Char :=
  if n < 0 then '-' :: Nat.toDigits 10 n.natAbs else Nat.toDigits 10 n.natAbs

def Scalar.text : Scalar → List Char
  | null => "null".toList
  | integer n => integerText n
  | string text => quoted text

def memberText (member : List Char × Scalar) : List Char :=
  quoted member.1 ++ ':' :: member.2.text

/-- `JSON.stringify` of an object -/
def stringify (members : List (List Char × Scalar)) : List Char :=
  '{' :: [','].intercalate (members.map memberText) ++ ['}']

theorem length_le_quoted (text : List Char) : text.length ≤ (quoted text).length := by
  have hescape : ∀ c, 1 ≤ (escape c).length := by
    intro c
    unfold escape
    split
    · simp
    · split
      · simp
      · split <;> simp
  have hflat : text.length ≤ (text.flatMap escape).length := by
    rw [List.length_flatMap, ← List.length_map (fun c => (escape c).length)]
    apply List.length_le_sum_of_one_le
    simpa using fun c _ => hescape c
  simp only [quoted, List.cons_append, List.length_cons, List.length_append]
  omega

/-! ## What is read back -/

variable {c : Char} {cs text rest : List Char} {fuel : ℕ}

/-- An escaped character is read back. -/
theorem readString_escape : readString (escape c ++ cs) = do
    let (units, rest) ← readString cs
    return (.inl c :: units, rest) := by
  rcases lt_or_ge c.toNat 32 with hlt | hge
  · rw [← Char.ofNat_toNat c]
    generalize c.toNat = n at hlt
    interval_cases n <;> rfl
  · by_cases hc : c = '"' ∨ c = '\\'
    · obtain rfl | rfl := hc <;> rfl
    · rw [escape, if_neg hc, if_pos hge, List.singleton_append]
      obtain ⟨hquote, hbackslash⟩ := not_or.mp hc
      have hnot : ¬ c.toNat < 32 := Nat.not_lt.mpr hge
      simp [readString, hbackslash, hnot]

@[simp] theorem join_map (text : List Char) : join none (text.map .inl) = text := by
  induction text with
  | nil => rfl
  | cons c text ih => rw [List.map_cons, join, ih]

/-- **A quoted string is read back.** -/
theorem readString_quoted (text rest : List Char) :
    readString (text.flatMap escape ++ '"' :: rest) = some (text.map .inl, rest) := by
  induction text with
  | nil => rfl
  | cons c text ih =>
    rw [List.flatMap_cons, List.append_assoc, readString_escape, ih]
    rfl

/-! ### Numbers -/

/-- No number goes on with this character. -/
def EndsNumber (c : Char) : Prop := c.isDigit = false ∧ c ≠ '.' ∧ c ≠ 'e' ∧ c ≠ 'E'

theorem readDigits_append {ds : List Char} (hds : Digits ds) (hne : ds ≠ [])
    (hc : c.isDigit = false) : readDigits (ds ++ c :: rest) = some (ds, c :: rest) := by
  have htake : (ds ++ c :: rest).takeWhile Char.isDigit = ds := by
    rw [List.takeWhile_append_of_pos hds]
    simp [hc]
  simp [readDigits, htake, hne]

theorem readInteger_toDigits (n : ℕ) (hc : c.isDigit = false) :
    readInteger (Nat.toDigits 10 n ++ c :: rest) = some (Nat.toDigits 10 n, c :: rest) := by
  by_cases hzero : (Nat.toDigits 10 n).head? = some '0'
  · rw [noLeadingZero_toDigits hzero]
    rfl
  · rw [← readDigits_append digits_toDigits Nat.toDigits_ne_nil hc]
    unfold readInteger
    split
    · next ds heq =>
      rw [← List.head?_append_of_ne_nil _ Nat.toDigits_ne_nil, heq] at hzero
      exact absurd rfl hzero
    · rfl

theorem readUnsigned_toDigits (n : ℕ) (hc : EndsNumber c) :
    readUnsigned (Nat.toDigits 10 n ++ c :: rest) = some ((n : ℚ), c :: rest) := by
  obtain ⟨hdigit, hpoint, he, hE⟩ := hc
  have hfraction : readFraction (c :: rest) = some ([], c :: rest) := by
    simp [readFraction, hpoint]
  have hexponent : readExponent (c :: rest) = some (0, c :: rest) := by
    simp [readExponent, he, hE]
  simp [readUnsigned, readInteger_toDigits n hdigit, hfraction, hexponent, decimal]

theorem exists_toDigits (n : ℕ) : ∃ d ds, Nat.toDigits 10 n = d :: ds ∧ d.isDigit := by
  obtain ⟨d, ds, hd⟩ := List.exists_cons_of_ne_nil (Nat.toDigits_ne_nil (n := n) (b := 10))
  exact ⟨d, ds, hd, digits_toDigits d (hd ▸ List.mem_cons_self)⟩

/-- **A printed integer is read back.** -/
theorem readNumber_integer (n : ℤ) (hc : EndsNumber c) :
    readNumber (integerText n ++ c :: rest) = some ((n : ℚ), c :: rest) := by
  unfold integerText
  split
  · next hneg =>
    have habs : -((n.natAbs : ℕ) : ℚ) = n := by
      rw [Nat.cast_natAbs, abs_of_neg hneg, Int.cast_neg, neg_neg]
    rw [List.cons_append, readNumber, readUnsigned_toDigits _ hc, ← habs]
    rfl
  · next hnonneg =>
    have habs : ((n.natAbs : ℕ) : ℚ) = n := by
      rw [Nat.cast_natAbs, abs_of_nonneg (not_lt.mp hnonneg)]
    obtain ⟨d, ds, hd, hdigit⟩ := exists_toDigits n.natAbs
    rw [← habs, ← readUnsigned_toDigits _ hc, hd]
    unfold readNumber
    split
    · next heq =>
      obtain rfl := (List.cons.inj heq).1
      exact absurd hdigit (by decide)
    · rfl

/-! ### Values -/

/-- A number is read as one. -/
theorem readValue_number (h : c = '-' ∨ c.isDigit) : readValue (fuel + 1) (c :: cs) =
    (readNumber (c :: cs)).map fun (q, rest) => (.number (double q), rest) := by
  obtain rfl | hdigit := h
  · rfl
  · obtain ⟨hlower, hupper⟩ := isDigit_toNat hdigit
    rw [← Char.ofNat_toNat c]
    generalize c.toNat = n at hlower hupper
    interval_cases n <;> rfl

theorem exists_integerText (n : ℤ) : ∃ c cs, integerText n = c :: cs ∧ (c = '-' ∨ c.isDigit) := by
  obtain ⟨d, ds, hd, hdigit⟩ := exists_toDigits n.natAbs
  unfold integerText
  split
  · exact ⟨_, _, rfl, .inl rfl⟩
  · exact ⟨d, ds, hd, .inr hdigit⟩

theorem readValue_quoted (text rest : List Char) :
    readValue (fuel + 1) (quoted text ++ rest) = some (.string text, rest) := by
  have hread := readString_quoted text rest
  rw [quoted, List.append_assoc, List.cons_append, List.singleton_append]
  change (readString _).map _ = _
  simp only [hread, Option.map_some, join_map]

/-- A printed value is read back. -/
theorem readValue_text (x : Scalar) (hc : EndsNumber c) :
    readValue (fuel + 1) (x.text ++ c :: rest) = some (x.value, c :: rest) := by
  cases x with
  | null => rfl
  | integer n =>
    obtain ⟨d, ds, hd, hstart⟩ := exists_integerText n
    have hread : readNumber (integerText n ++ c :: rest) = _ := readNumber_integer n hc
    rw [hd, List.cons_append] at hread
    rw [Scalar.text, hd, List.cons_append, readValue_number hstart, hread]
    rfl
  | string text => exact readValue_quoted text (c :: rest)

/-- A printed member is read back, before another one or the end of the object. -/
theorem readMembers_member (member : List Char × Scalar) (hc : EndsNumber c) :
    readMembers (fuel + 2) (memberText member ++ c :: rest) =
      match expect ',' (c :: rest) with
      | some cs => do
        let (members, rest) ← readMembers (fuel + 1) cs
        return ((member.1, member.2.value) :: members, rest)
      | none => do return ([(member.1, member.2.value)], ← expect '}' (c :: rest)) := by
  have hname := readString_quoted member.1 (':' :: (member.2.text ++ c :: rest))
  have hvalue : readValue (fuel + 1) (member.2.text ++ c :: rest) = _ :=
    readValue_text member.2 hc
  have htext : memberText member ++ c :: rest =
      '"' :: (member.1.flatMap escape ++ '"' :: ':' :: (member.2.text ++ c :: rest)) := by
    simp [memberText, quoted]
  have hopen : ∀ cs, expect '"' ('"' :: cs) = some cs := fun _ => rfl
  have hcolon : ∀ cs, expect ':' (':' :: cs) = some cs := fun _ => rfl
  rw [htext, readMembers]
  simp [hopen, hname, hcolon, hvalue]

/-- Printed members are read back, one after the other. -/
theorem readMembers_members (member : List Char × Scalar) (members : List (List Char × Scalar))
    (hfuel : members.length + 2 ≤ fuel) :
    readMembers fuel ([','].intercalate ((member :: members).map memberText) ++ '}' :: rest) =
      some ((member :: members).map fun (name, x) => (name, x.value), rest) := by
  have hends : EndsNumber ',' ∧ EndsNumber '}' := by simp [EndsNumber]
  induction members generalizing member fuel with
  | nil =>
    obtain ⟨fuel, rfl⟩ : ∃ k, fuel = k + 2 := Nat.exists_eq_add_of_le' hfuel
    rw [List.map_singleton, List.intercalate_singleton, readMembers_member _ hends.2]
    rfl
  | cons next members ih =>
    rw [List.length_cons] at hfuel
    obtain ⟨fuel, rfl⟩ : ∃ k, fuel = k + 2 := Nat.exists_eq_add_of_le' (by omega)
    have hcomma : ∀ cs, expect ',' (',' :: cs) = some cs := fun _ => rfl
    have hfuel : members.length + 2 ≤ fuel + 1 := by omega
    have hnext := ih next hfuel
    rw [List.map_cons, List.map_cons, List.intercalate_cons_cons, List.append_assoc,
      List.append_assoc, List.singleton_append, readMembers_member _ hends.1, hcomma,
      ← List.map_cons]
    simp only [hnext]
    rfl

theorem exists_memberText (member : List Char × Scalar) : ∃ cs, memberText member = '"' :: cs := by
  simp [memberText, quoted]

theorem length_lt_intercalate (member : List Char × Scalar) (members : List (List Char × Scalar)) :
    members.length < ([','].intercalate ((member :: members).map memberText)).length := by
  induction members generalizing member with
  | nil =>
    obtain ⟨cs, hcs⟩ := exists_memberText member
    simp [hcs]
  | cons next members ih =>
    have hnext := ih next
    rw [List.map_cons] at hnext
    rw [List.map_cons, List.map_cons, List.intercalate_cons_cons]
    simp only [List.length_append, List.length_cons]
    omega

theorem readValue_object (h : expect '}' cs = none) : readValue (fuel + 1) ('{' :: cs) =
    (readMembers fuel cs).map fun (members, rest) => (.object members, rest) := by
  have hspace : skipSpace ('{' :: cs) = '{' :: cs := rfl
  simp only [readValue, hspace, h]

/-- **A printed object is read back.** -/
theorem parse_stringify (members : List (List Char × Scalar)) :
    parse (stringify members) = some (.object (members.map fun (name, x) => (name, x.value))) := by
  cases members with
  | nil => rfl
  | cons member members =>
    have hbrace : expect '}' ([','].intercalate ((member :: members).map memberText) ++ ['}']) =
        none := by
      obtain ⟨cs, hcs⟩ := exists_memberText member
      cases members <;> simp [hcs, expect, skipSpace, isSpace]
    have hfuel : members.length + 2 ≤ (stringify (member :: members)).length := by
      have hlength := length_lt_intercalate member members
      simp only [stringify, List.length_append, List.length_cons]
      omega
    have hread : readMembers _ (_ ++ ['}']) = _ := readMembers_members member members hfuel
    unfold parse
    generalize (stringify (member :: members)).length = fuel at hread
    rw [stringify, List.cons_append, readValue_object hbrace, hread]
    rfl

end JsonText
