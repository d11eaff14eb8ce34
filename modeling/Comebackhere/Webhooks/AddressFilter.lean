import Comebackhere.Library.Ipv6

/-!
# The address filter of webhooks

Webhooks are posted to public addresses only. The filter takes an address in text, which `isIP` of
the platform has to classify, reads it as a number and tests the number against ranges.

## Main definitions

* `isBlockedIpv4`, `ipv6ToBigInt`, `isBlockedAddress`: the functions of the filter
* `NonPublic`: the addresses that a webhook must never reach

## Main results

* `ipv6ToBigInt_text`: a spelling is read as its address
* `isBlockedIpv4_text`: an IPv4 address is blocked if it is in a reserved network
* `filter_spellings`: of the spellings that `isIP` accepts the verdict is that of the address, and
  all others are blocked, as are all that are not public
-/

namespace WebhookHttp

open Ipv6

/-! ## The filter -/

/-- `Number`, of a text of digits. Any other is taken for `NaN`. -/
def number (part : List Char) : Option ℕ :=
  if part.all Char.isDigit then some (Decimal.value part) else none

def ipv4ToNumber (address : List Char) : ℕ :=
  (address.splitOn '.').foldl (fun value part =>
    match number part with
    | some n => (value * 256 + n) % 2 ^ 32
    -- `NaN >>> 0`
    | none => 0) 0

/-- The networks and the lengths of their prefixes. -/
def ranges : List (ℕ × ℕ) :=
  [(0x00000000, 8), (0x0a000000, 8), (0x64400000, 10), (0x7f000000, 8), (0xa9fe0000, 16),
    (0xac100000, 12), (0xc0000000, 24), (0xc0000200, 24), (0xc0586300, 24), (0xc0a80000, 16),
    (0xc6120000, 15), (0xc6336400, 24), (0xcb007100, 24), (0xe0000000, 4), (0xf0000000, 4)]

def isBlockedIpv4 (address : List Char) : Bool :=
  let value := ipv4ToNumber address
  ranges.any fun (network, length) =>
    let mask := (0xffffffff <<< (32 - length)) % 2 ^ 32
    value &&& mask = network &&& mask

/-- `toLowerCase`. Letters beyond ASCII stand in a zone only, which is cut off. -/
def toLowerCase (text : List Char) : List Char := text.map Char.toLower

/-- `split("::")` -/
def splitDoubleColon : List Char → List (List Char)
  | [] => [[]]
  | ':' :: ':' :: cs => [] :: splitDoubleColon cs
  | c :: cs => (splitDoubleColon cs).modifyHead (c :: ·)

/-- The bits of an octet. Those of `NaN`, and of an octet that is not there, are zero. -/
def bits (octets : List (Option ℕ)) (i : ℕ) : ℕ := (octets[i]?.join).getD 0

/-- A text with an IPv4 address behind its last colon, with two groups in its place. -/
def expandIpv4 (normalized : List Char) : List Char :=
  -- up to `splitAt + 1`, and from there on
  let before := normalized.rdropWhile (· ≠ ':')
  let octets := ((normalized.rtakeWhile (· ≠ ':')).splitOn '.').map number
  let high := Nat.toDigits 16 ((bits octets 0 <<< 8) ||| bits octets 1)
  let low := Nat.toDigits 16 ((bits octets 2 <<< 8) ||| bits octets 3)
  before ++ high ++ ':' :: low

/-- `BigInt` of a text with `0x` before it, which throws if these are no hexadecimal digits. -/
def bigInt (digits : List Char) : Option ℕ :=
  if digits ≠ [] ∧ digits.all (· ∈ hexDigits) then some (hexValue digits) else none

/-- The groups of one half, none if it is empty. -/
def splitHalf (half : Option (List Char)) : List (List Char) :=
  match half with
  | none | some [] => []
  | some half => half.splitOn ':'

/-- The groups of both halves, with zeros between them. -/
def splitGroups (normalized : List Char) : Option (List (List Char)) :=
  let halves := splitDoubleColon normalized
  let left := splitHalf halves[0]?
  let right := splitHalf halves[1]?
  if halves.length = 1 then some left
  -- an array of a negative length is a `RangeError`
  else if 8 < left.length + right.length then none
  else some (left ++ List.replicate (8 - left.length - right.length) ['0'] ++ right)

/-- The address as a number, unless it throws. -/
def ipv6ToBigInt (address : List Char) : Option ℕ := do
  let normalized := ((toLowerCase address).splitOn '%').headD []
  let normalized := if '.' ∈ normalized then expandIpv4 normalized else normalized
  let groups ← splitGroups normalized
  groups.foldlM (fun value group =>
    (bigInt (if group = [] then ['0'] else group)).map fun n => (value <<< 16) ||| n) 0

/-- The four bytes of a number, with points. -/
def mappedText (value : ℕ) : List Char :=
  ['.'].intercalate [Nat.toDigits 10 ((value >>> 24) &&& 255),
    Nat.toDigits 10 ((value >>> 16) &&& 255), Nat.toDigits 10 ((value >>> 8) &&& 255),
    Nat.toDigits 10 (value &&& 255)]

/-- The tests on the number of an IPv6 address. -/
def isBlockedIpv6 (value : ℕ) : Bool :=
  if value >>> 32 = 0xffff then isBlockedIpv4 (mappedText value)
  else
    let globalUnicast : Bool := value >>> 125 = 1
    let documentation : Bool := value >>> 96 = 0x20010db8
    let sixToFour : Bool := value >>> 112 = 0x2002
    let special2001 : Bool := value >>> 105 = 0x100080
    !globalUnicast || documentation || sixToFour || special2001

/-- Whether an address is blocked, unless it throws. -/
def isBlockedAddress (isIP : List Char → ℕ) (address : List Char) : Option Bool :=
  let family := isIP address
  if family = 4 then some (isBlockedIpv4 address)
  else if family ≠ 6 then some true
  else (ipv6ToBigInt address).map isBlockedIpv6

/-! ## The addresses that are not public -/

def uniqueLocal : Prefix 128 := ⟨0xfc00 <<< 112, 7⟩

def linkLocal : Prefix 128 := ⟨0xfe80 <<< 112, 10⟩

def siteLocal : Prefix 128 := ⟨0xfec0 <<< 112, 10⟩

def multicast : Prefix 128 := ⟨0xff00 <<< 112, 8⟩

def ipv4Mapped : Prefix 128 := ⟨0xffff <<< 32, 96⟩

/-- The addresses that begin like `a.b.c.d`. -/
def network (a b c d length : ℕ) : Prefix 32 := ⟨((a * 256 + b) * 256 + c) * 256 + d, length⟩

/-- The networks of IPv4 that are not public: this network, the private ones, those of carriers, the
loopback and link-local ones, those set apart for protocols, for documentation, for relays and for
benchmarks, multicast, and what is reserved with the broadcast address. -/
def reservedNetworks : List (Prefix 32) :=
  [network 0 0 0 0 8, network 10 0 0 0 8, network 100 64 0 0 10, network 127 0 0 0 8,
    network 169 254 0 0 16, network 172 16 0 0 12, network 192 0 0 0 24, network 192 0 2 0 24,
    network 192 88 99 0 24, network 192 168 0 0 16, network 198 18 0 0 15, network 198 51 100 0 24,
    network 203 0 113 0 24, network 224 0 0 0 4, network 240 0 0 0 4]

/-- The IPv4 addresses that are not public. -/
def ReservedIpv4 (n : ℕ) : Prop := ∃ p ∈ reservedNetworks, p.Contains n

/-- The unspecified address, loopback, the private, link-local and multicast addresses, and the
reserved IPv4 addresses mapped to IPv6. -/
def NonPublic (n : ℕ) : Prop :=
  n = 0 ∨ n = 1 ∨ uniqueLocal.Contains n ∨ siteLocal.Contains n ∨ linkLocal.Contains n ∨
    multicast.Contains n ∨ (ipv4Mapped.Contains n ∧ ReservedIpv4 (n % 2 ^ 32))

/-! ## Reading groups -/

section Groups

variable {cs rest : List Char} {c : Char}

theorem splitDoubleColon_cons (hc : c ≠ ':') :
    splitDoubleColon (c :: rest) = (splitDoubleColon rest).modifyHead (c :: ·) := by
  rw [splitDoubleColon]
  rintro _ rfl
  exact absurd rfl hc

theorem splitDoubleColon_colon_cons (hc : c ≠ ':') :
    splitDoubleColon (':' :: c :: rest) = (splitDoubleColon (c :: rest)).modifyHead (':' :: ·) := by
  rw [splitDoubleColon]
  rintro cs - ⟨rfl, -⟩
  exact absurd rfl hc

theorem splitDoubleColon_append (hcs : ':' ∉ cs) :
    splitDoubleColon (cs ++ rest) = (splitDoubleColon rest).modifyHead (cs ++ ·) := by
  induction cs with
  | nil => exact (congrFun List.modifyHead_id (splitDoubleColon rest)).symm
  | cons c cs ih =>
    rw [List.mem_cons, not_or] at hcs
    obtain ⟨hc, hcs⟩ := hcs
    rw [List.cons_append, splitDoubleColon_cons (Ne.symm hc), ih hcs, List.modifyHead_modifyHead]
    rfl

theorem colon_notMem (g : Group) : ':' ∉ g.digits := fun h =>
  (ne_of_mem_hexDigits _ (g.hex _ h)).1 rfl

@[simp] theorem join_nil : join [] none = [] := rfl

@[simp] theorem join_singleton (g : Group) : join [g] none = g.digits := by
  simp [join]

theorem join_cons_cons (g g' : Group) (gs : List Group) :
    join (g :: g' :: gs) none = g.digits ++ ':' :: join (g' :: gs) none := by
  simp [join, List.intercalate_cons_cons]

/-- Groups begin with a digit. -/
theorem exists_join_cons (g : Group) (gs : List Group) :
    ∃ c cs, c ≠ ':' ∧ join (g :: gs) none = c :: cs := by
  obtain ⟨c, ds, hds⟩ := List.exists_cons_of_ne_nil g.nonempty
  have hc : c ≠ ':' := fun he => colon_notMem g (by simp [hds, he])
  cases gs with
  | nil => exact ⟨c, ds, hc, by rw [join_singleton, hds]⟩
  | cons g' gs => exact ⟨c, _, hc, by rw [join_cons_cons, hds, List.cons_append]⟩

/-- There are no two colons in groups. -/
theorem splitDoubleColon_join (gs : List Group) (rest : List Char) :
    splitDoubleColon (join gs none ++ rest) =
      (splitDoubleColon rest).modifyHead (join gs none ++ ·) := by
  induction gs with
  | nil => exact splitDoubleColon_append List.not_mem_nil
  | cons g gs ih =>
    cases gs with
    | nil =>
      rw [join_singleton]
      exact splitDoubleColon_append (colon_notMem g)
    | cons g' gs =>
      obtain ⟨c, cs, hc, hjoin⟩ := exists_join_cons g' gs
      rw [join_cons_cons, List.append_assoc, splitDoubleColon_append (colon_notMem g)]
      rw [hjoin] at ih ⊢
      rw [List.cons_append, List.cons_append, splitDoubleColon_colon_cons hc, ← List.cons_append,
        ih, List.modifyHead_modifyHead, List.modifyHead_modifyHead]
      simp [Function.comp_def]

theorem splitDoubleColon_full (gs : List Group) :
    splitDoubleColon (join gs none) = [join gs none] := by
  have h := splitDoubleColon_join gs []
  rw [List.append_nil] at h
  rw [h]
  simp [splitDoubleColon]

theorem splitDoubleColon_compressed (left right : List Group) :
    splitDoubleColon (join left none ++ ([':', ':'] ++ join right none)) =
      [join left none, join right none] := by
  rw [splitDoubleColon_join, List.cons_append, List.cons_append, List.nil_append, splitDoubleColon,
    splitDoubleColon_full, List.modifyHead_cons, List.append_nil]

theorem splitHalf_join (gs : List Group) : splitHalf (some (join gs none)) = gs.map (·.digits) := by
  cases gs with
  | nil => rfl
  | cons g gs =>
    have hsplit : (join (g :: gs) none).splitOn ':' = (g :: gs).map (·.digits) := by
      rw [join, Option.map_none, Option.toList_none, List.append_nil]
      refine List.splitOn_intercalate ':' (fun ds hds => ?_) (by simp)
      obtain ⟨g, -, rfl⟩ := List.mem_map.mp hds
      exact colon_notMem g
    obtain ⟨c, cs, -, hjoin⟩ := exists_join_cons g gs
    rw [← hsplit, hjoin]
    rfl

theorem splitGroups_full (gs : List Group) :
    splitGroups (join gs none) = some (gs.map (·.digits)) := by
  simp only [splitGroups, splitDoubleColon_full]
  exact congrArg some (splitHalf_join gs)

theorem splitGroups_compressed {left right : List Group} (h : left.length + right.length ≤ 8) :
    splitGroups (join left none ++ ([':', ':'] ++ join right none)) =
      some (left.map (·.digits) ++
        List.replicate (8 - (left.length + right.length)) ['0'] ++ right.map (·.digits)) := by
  have hlength : ¬ 8 < (left.map (·.digits)).length + (right.map (·.digits)).length := by
    rw [List.length_map, List.length_map]
    omega
  simp only [splitGroups, splitDoubleColon_compressed, List.getElem?_cons_zero,
    List.getElem?_cons_succ, splitHalf_join]
  rw [if_neg (by simp), if_neg hlength, List.length_map, List.length_map, Nat.sub_sub]

/-- A text that is read as a group. -/
def IsGroup (digits : List Char) : Prop :=
  digits ≠ [] ∧ (∀ c ∈ digits, c ∈ hexDigits) ∧ hexValue digits < 2 ^ 16

theorem isGroup_digits (g : Group) : IsGroup g.digits := ⟨g.nonempty, g.hex, g.value_lt⟩

theorem isGroup_zero : IsGroup ['0'] := by
  exact ⟨by decide, all_hex_iff.mp (by decide), by decide⟩

/-- The groups are the digits of the number. -/
theorem foldlM_groups {groups : List (List Char)} (h : ∀ g ∈ groups, IsGroup g) :
    (groups.foldlM (fun value group =>
      (bigInt (if group = [] then ['0'] else group)).map fun n => (value <<< 16) ||| n) 0) =
      some (Nat.ofDigits (2 ^ 16) (groups.map hexValue).reverse) := by
  induction groups using List.reverseRecOn with
  | nil => rfl
  | append_singleton groups g ih =>
    obtain ⟨hne, hhex, hlt⟩ := h g (by simp)
    have hbig : bigInt (if g = [] then ['0'] else g) = some (hexValue g) := by
      rw [if_neg hne, bigInt, if_pos ⟨hne, all_hex_iff.mpr hhex⟩]
    rw [List.foldlM_append, ih fun g hg => h g (by simp [hg])]
    simp only [List.foldlM_cons, List.foldlM_nil, Option.bind_eq_bind, Option.bind_some, hbig,
      Option.map_some, List.map_append, List.map_singleton, List.reverse_append,
      List.reverse_singleton, List.singleton_append, Nat.ofDigits_cons]
    rw [← Nat.shiftLeft_add_eq_or_of_lt hlt, Nat.shiftLeft_eq, mul_comm, add_comm]
    rfl

end Groups

/-! ## Spellings in lower case, without zone and points -/

section Normal

def lower (g : Group) : Group where
  digits := g.digits.map Char.toLower
  hex := List.forall_mem_map.mpr fun c hc => (hexDigit_toLower c (g.hex c hc)).1
  nonempty := mt List.map_eq_nil_iff.mp g.nonempty
  short := by
    rw [List.length_map]
    exact g.short

@[simp] theorem value_lower (g : Group) : (lower g).value = g.value := hexValue_map_toLower g.hex

/-- The group of two octets. -/
def groupOf (high low : Octet) : Group where
  digits := Nat.toDigits 16 (high.value * 2 ^ 8 + low.value)
  hex := mem_hexDigits_of_mem_toDigits
  nonempty := Nat.toDigits_ne_nil
  short := by
    have hhigh : high.value < 256 := high.small
    have hlow : low.value < 256 := low.small
    rw [Nat.length_toDigits_le_iff (by decide) (by decide)]
    omega

theorem value_groupOf (high low : Octet) :
    (groupOf high low).value = high.value * 2 ^ 8 + low.value := hexValue_toDigits _

/-- An IPv4 address as two groups. -/
def groupsOf : Option Quad → List Group
  | none => []
  | some q => [groupOf q.first q.second, groupOf q.third q.fourth]

theorem length_groupsOf (quad : Option Quad) : (groupsOf quad).length = width quad := by
  cases quad <;> rfl

/-- The form that the filter makes of a form. -/
def normal : Form → Form
  | .full groups quad complete => .full (groups.map lower ++ groupsOf quad) none (by
      rw [List.length_append, List.length_map, length_groupsOf]
      exact complete)
  | .compressed left right quad fewer =>
    .compressed (left.map lower) (right.map lower ++ groupsOf quad) none (by
      rw [List.length_append, List.length_map, List.length_map, length_groupsOf, ← Nat.add_assoc]
      exact fewer)

theorem words_normal (groups : List Group) (quad : Option Quad) :
    Ipv6.words (groups.map lower ++ groupsOf quad) none = Ipv6.words groups quad := by
  have hvalue : Group.value ∘ lower = Group.value := funext value_lower
  cases quad with
  | none => simp [Ipv6.words, groupsOf, hvalue]
  | some q => simp [Ipv6.words, groupsOf, hvalue, value_groupOf, Quad.words]

/-- **It is the same address.** -/
theorem value_normal (f : Form) : (normal f).value = f.value := by
  suffices (normal f).words = f.words by rw [Form.value, this, Form.value]
  cases f with
  | full groups quad complete => exact words_normal groups quad
  | compressed left right quad fewer =>
    have hleft : Ipv6.words (left.map lower) none = Ipv6.words left none := by
      simpa [groupsOf] using words_normal left none
    simp only [normal, Form.words, hleft, words_normal, List.length_append, List.length_map,
      length_groupsOf, width, Nat.add_zero, Nat.add_assoc]

/-- Groups with a colon behind each. -/
def lead (gs : List Group) : List Char := gs.flatMap fun g => g.digits ++ [':']

theorem intercalate_snoc (l : List (List Char)) (t : List Char) :
    [':'].intercalate (l ++ [t]) = (l.flatMap fun ds => ds ++ [':']) ++ t := by
  induction l with
  | nil => simp
  | cons ds l ih =>
    rw [List.cons_append, List.intercalate_cons_of_ne_nil (by simp), ih]
    simp

theorem join_quad (gs : List Group) (q : Quad) : join gs (some q) = lead gs ++ q.text := by
  rw [join, Option.map_some, Option.toList_some, intercalate_snoc, List.flatMap_map]
  rfl

theorem join_groupsOf (gs : List Group) (q : Quad) : join (gs ++ groupsOf (some q)) none =
    lead gs ++ ((groupOf q.first q.second).digits ++ ':' :: (groupOf q.third q.fourth).digits) := by
  have hpieces : (gs ++ groupsOf (some q)).map (·.digits) =
      gs.map (·.digits) ++ [(groupOf q.first q.second).digits] ++
        [(groupOf q.third q.fourth).digits] := by
    simp [groupsOf]
  rw [join, Option.map_none, Option.toList_none, List.append_nil, hpieces, intercalate_snoc,
    List.flatMap_append, List.flatMap_map]
  simp [lead]

/-- Digits and points, in which there is no colon. -/
theorem number_octet (o : Octet) : number o.digits = some o.value := by
  rw [number, if_pos (List.all_eq_true.mpr o.decimal)]
  rfl

theorem isDigit_of_mem_octets {q : Quad} {ds : List Char} (h : ds ∈ q.octets) :
    Decimal.Digits ds := by
  simp only [Quad.octets, List.mem_cons, List.not_mem_nil, or_false] at h
  rcases h with rfl | rfl | rfl | rfl
  · exact q.first.decimal
  · exact q.second.decimal
  · exact q.third.decimal
  · exact q.fourth.decimal

theorem mem_text {q : Quad} {c : Char} (h : c ∈ q.text) : c = '.' ∨ c.isDigit = true := by
  have h₁ := q.first.decimal c
  have h₂ := q.second.decimal c
  have h₃ := q.third.decimal c
  have h₄ := q.fourth.decimal c
  simp only [Quad.text, Quad.octets, List.intercalate_cons_cons, List.intercalate_singleton,
    List.mem_append, List.mem_singleton] at h
  tauto

theorem splitOn_text (q : Quad) : q.text.splitOn '.' = q.octets := by
  refine List.splitOn_intercalate '.' (fun ds hds hpoint => ?_) (by simp [Quad.octets])
  exact absurd (isDigit_of_mem_octets hds '.' hpoint) (by decide)

/-- What stands behind the last colon. -/
theorem splitAt_append {before cs : List Char} (hbefore : before = [] ∨ ∃ b, before = b ++ [':'])
    (hcs : ∀ c ∈ cs, c ≠ ':') :
    (before ++ cs).rdropWhile (· ≠ ':') = before ∧ (before ++ cs).rtakeWhile (· ≠ ':') = cs := by
  have hall : ∀ c ∈ cs, decide (c ≠ ':') = true := fun c hc => decide_eq_true (hcs c hc)
  rcases hbefore with rfl | ⟨b, rfl⟩
  · exact ⟨List.rdropWhile_eq_nil_iff.mpr hall, List.rtakeWhile_eq_self_iff.mpr hall⟩
  · have hreverse : ∀ c ∈ cs.reverse, decide (c ≠ ':') = true := fun c hc =>
      hall c (List.mem_reverse.mp hc)
    constructor
    · rw [List.rdropWhile, List.reverse_append, List.dropWhile_append_of_pos hreverse]
      simp
    · rw [List.rtakeWhile, List.reverse_append, List.takeWhile_append_of_pos hreverse]
      simp

theorem shiftLeft_or (high low : Octet) :
    (high.value <<< 8) ||| low.value = high.value * 2 ^ 8 + low.value := by
  have hlow : low.value < 2 ^ 8 := low.small
  rw [← Nat.shiftLeft_add_eq_or_of_lt hlow, Nat.shiftLeft_eq]

/-- **The IPv4 address** behind a colon, or alone, becomes two groups. -/
theorem expandIpv4_append {before : List Char} (hbefore : before = [] ∨ ∃ b, before = b ++ [':'])
    (q : Quad) : expandIpv4 (before ++ q.text) = before ++
      ((groupOf q.first q.second).digits ++ ':' :: (groupOf q.third q.fourth).digits) := by
  have hcolon : ∀ c ∈ q.text, c ≠ ':' := by
    rintro c hc rfl
    rcases mem_text hc with h | h <;> exact absurd h (by decide)
  obtain ⟨hdrop, htake⟩ := splitAt_append hbefore hcolon
  have hnumbers : q.octets.map number = [some q.first.value, some q.second.value,
      some q.third.value, some q.fourth.value] := by
    simp [Quad.octets, number_octet]
  simp only [expandIpv4]
  rw [hdrop, htake, splitOn_text, hnumbers]
  simp [bits, shiftLeft_or, groupOf]

/-! ## Spellings are read as their address -/

theorem map_join (f : Char → Char) (hf : f ':' = ':') (l : List (List Char)) :
    ([':'].intercalate l).map f = [':'].intercalate (l.map (List.map f)) := by
  induction l with
  | nil => rfl
  | cons ds l ih =>
    cases l with
    | nil => simp
    | cons ds' l => simp_all [List.intercalate_cons_cons]

theorem toLower_of_isDigit {c : Char} (h : c.isDigit = true) : c.toLower = c := by
  have hdigit := Decimal.isDigit_toNat h
  refine dif_neg ?_
  rintro ⟨hupper, -⟩
  have hle : 65 ≤ c.toNat := hupper
  omega

theorem map_toLower_text (q : Quad) : q.text.map Char.toLower = q.text := by
  refine (List.map_congr_left fun c hc => ?_).trans (List.map_id _)
  rcases mem_text hc with rfl | hdigit
  · decide
  · exact toLower_of_isDigit hdigit

theorem toLowerCase_join (groups : List Group) (quad : Option Quad) :
    toLowerCase (join groups quad) = join (groups.map lower) quad := by
  have hquad : (quad.map Quad.text).toList.map (List.map Char.toLower) =
      (quad.map Quad.text).toList := by
    cases quad with
    | none => rfl
    | some q => simp [map_toLower_text]
  rw [toLowerCase, join, map_join _ (by decide), List.map_append, hquad, List.map_map, join,
    List.map_map]
  rfl

theorem mem_join {gs : List Group} {c : Char} (h : c ∈ join gs none) : c = ':' ∨ c ∈ hexDigits := by
  induction gs with
  | nil => cases h
  | cons g gs ih =>
    cases gs with
    | nil =>
      rw [join_singleton] at h
      exact Or.inr (g.hex c h)
    | cons g' gs =>
      rw [join_cons_cons, List.mem_append, List.mem_cons] at h
      rcases h with h | rfl | h
      · exact Or.inr (g.hex c h)
      · exact Or.inl rfl
      · exact ih h

theorem point_notMem_join (gs : List Group) : '.' ∉ join gs none := by
  intro h
  rcases mem_join h with h | h <;> exact absurd h (by decide)

theorem mem_lead {gs : List Group} {c : Char} (h : c ∈ lead gs) : c = ':' ∨ c ∈ hexDigits := by
  obtain ⟨g, -, h⟩ := List.mem_flatMap.mp h
  rcases List.mem_append.mp h with h | h
  · exact Or.inr (g.hex c h)
  · exact Or.inl (List.mem_singleton.mp h)

theorem lead_eq (gs : List Group) : lead gs = [] ∨ ∃ b, lead gs = b ++ [':'] := by
  rcases List.eq_nil_or_concat gs with rfl | ⟨gs, g, rfl⟩
  · exact Or.inl rfl
  · exact Or.inr ⟨lead gs ++ g.digits, by simp [lead]⟩

theorem point_mem_text (q : Quad) : '.' ∈ q.text := by
  simp [Quad.text, Quad.octets, List.intercalate_cons_cons]

/-- **The filter makes the normal form.** -/
theorem normalize_text (f : Form) :
    (if '.' ∈ toLowerCase f.text then expandIpv4 (toLowerCase f.text) else toLowerCase f.text) =
      (normal f).text := by
  cases f with
  | full groups quad complete =>
    simp only [Form.text, normal, toLowerCase_join]
    cases quad with
    | none => rw [if_neg (point_notMem_join _), groupsOf, List.append_nil]
    | some q =>
      rw [join_groupsOf, join_quad, if_pos (List.mem_append_right _ (point_mem_text q))]
      exact expandIpv4_append (lead_eq _) q
  | compressed left right quad fewer =>
    have hlower : toLowerCase (join left none ++ [':', ':'] ++ join right quad) =
        join (left.map lower) none ++ [':', ':'] ++ join (right.map lower) quad := by
      have hcolons : ([':', ':'] : List Char).map Char.toLower = [':', ':'] := by decide
      rw [← toLowerCase_join, ← toLowerCase_join, toLowerCase, List.map_append, List.map_append,
        hcolons]
      rfl
    simp only [Form.text, normal, hlower]
    cases quad with
    | none =>
      rw [if_neg, groupsOf, List.append_nil]
      simp [point_notMem_join]
    | some q =>
      have hlead : ∃ b, join (left.map lower) none ++ [':', ':'] ++ lead (right.map lower) =
          b ++ [':'] := by
        rcases lead_eq (right.map lower) with h | ⟨b, h⟩
        · exact ⟨join (left.map lower) none ++ [':'], by simp [h]⟩
        · exact ⟨join (left.map lower) none ++ [':', ':'] ++ b, by simp [h]⟩
      rw [join_groupsOf, join_quad, if_pos (by simp [point_mem_text]), ← List.append_assoc,
        expandIpv4_append (Or.inr hlead)]
      simp only [List.append_assoc]

theorem percent_notMem (f : Form) : '%' ∉ toLowerCase f.text := by
  have hjoin : ∀ gs, '%' ∉ join gs none := by
    intro gs h
    rcases mem_join h with h | h <;> exact absurd h (by decide)
  have hlead : ∀ gs, '%' ∉ lead gs := by
    intro gs h
    rcases mem_lead h with h | h <;> exact absurd h (by decide)
  have htext : ∀ q : Quad, '%' ∉ q.text := by
    intro q h
    rcases mem_text h with h | h <;> exact absurd h (by decide)
  have hquad : ∀ gs quad, '%' ∉ join gs quad := by
    intro gs quad
    cases quad with
    | none => exact hjoin gs
    | some q => simp [join_quad, hlead, htext]
  cases f with
  | full groups quad complete =>
    rw [Form.text, toLowerCase_join]
    exact hquad _ quad
  | compressed left right quad fewer =>
    have hcolons : ([':', ':'] : List Char).map Char.toLower = [':', ':'] := by decide
    have hleft := toLowerCase_join left none
    have hright := toLowerCase_join right quad
    rw [toLowerCase] at hleft hright
    rw [Form.text, toLowerCase, List.map_append, List.map_append, hleft, hright, hcolons]
    simp [hjoin, hquad]

/-- The zone is cut off. -/
theorem splitOn_percent (x : Spelling) :
    ((toLowerCase x.text).splitOn '%').headD [] = toLowerCase x.form.text := by
  cases hzone : x.zone with
  | none =>
    rw [Spelling.text, hzone, Option.map_none, Option.getD_none, List.append_nil,
      List.splitOn_eq_singleton (percent_notMem x.form), List.headD_cons]
  | some zone =>
    have htext : toLowerCase x.text = toLowerCase x.form.text ++ '%' :: toLowerCase zone := by
      rw [Spelling.text, hzone, Option.map_some, Option.getD_some, toLowerCase, List.map_append,
        List.map_cons]
      rfl
    rw [htext, List.splitOn_append_cons_self_of_not_mem (percent_notMem x.form), List.headD_cons]

/-- Without points, the groups of a form are read one by one. -/
theorem splitGroups_normal (f : Form) : ∃ groups : List (List Char),
    splitGroups (normal f).text = some groups ∧ (∀ g ∈ groups, IsGroup g) ∧
      groups.map hexValue = (normal f).words := by
  have hvalues : ∀ gs : List Group, (gs.map (·.digits)).map hexValue = Ipv6.words gs none := by
    intro gs
    rw [List.map_map, Ipv6.words, Option.map_none, Option.getD_none, List.append_nil]
    rfl
  have hgroups : ∀ gs : List Group, ∀ g ∈ gs.map (·.digits), IsGroup g := fun gs =>
    List.forall_mem_map.mpr fun g _ => isGroup_digits g
  cases f with
  | full groups quad complete => exact ⟨_, splitGroups_full _, hgroups _, hvalues _⟩
  | compressed left right quad fewer =>
    have hle : (left.map lower).length + (right.map lower ++ groupsOf quad).length ≤ 8 := by
      rw [List.length_append, List.length_map, List.length_map, length_groupsOf]
      omega
    refine ⟨_, (congrArg splitGroups (List.append_assoc ..)).trans (splitGroups_compressed hle),
      fun g hg => ?_, ?_⟩
    · rcases List.mem_append.mp hg with hg | hg
      · rcases List.mem_append.mp hg with hg | hg
        · exact hgroups _ g hg
        · exact (List.mem_replicate.mp hg).2 ▸ isGroup_zero
      · exact hgroups _ g hg
    · rw [List.map_append, List.map_append, List.map_replicate, hvalues, hvalues]
      rfl

/-- **A spelling is read as its address.** -/
theorem ipv6ToBigInt_text (x : Spelling) : ipv6ToBigInt x.text = some x.value := by
  obtain ⟨groups, hsplit, hgroups, hwords⟩ := splitGroups_normal x.form
  simp only [ipv6ToBigInt, splitOn_percent, normalize_text, hsplit]
  rw [Option.bind_eq_bind, Option.bind_some, foldlM_groups hgroups, hwords, Spelling.value,
    ← value_normal, Form.value]

end Normal

/-! ## Which addresses are blocked -/

section Blocked

theorem ipv4ToNumber_text (q : Quad) : ipv4ToNumber q.text = q.value := by
  have h₁ : q.first.value < 256 := q.first.small
  have h₂ : q.second.value < 256 := q.second.small
  have h₃ : q.third.value < 256 := q.third.small
  have h₄ : q.fourth.value < 256 := q.fourth.small
  rw [ipv4ToNumber, splitOn_text]
  simp only [Quad.octets, List.foldl_cons, List.foldl_nil, number_octet, Quad.value]
  omega

/-- The ranges of the filter are those networks. -/
theorem map_ranges : ranges.map (fun range => ⟨range.1, range.2⟩) = reservedNetworks := rfl

/-- **An IPv4 address** is blocked if it is not public. -/
theorem isBlockedIpv4_text (q : Quad) : isBlockedIpv4 q.text = true ↔ ReservedIpv4 q.value := by
  have hnetworks : ∀ range ∈ ranges, range.1 < 2 ^ 32 := by decide
  rw [isBlockedIpv4, ipv4ToNumber_text, List.any_eq_true, ReservedIpv4, ← map_ranges]
  simp only [List.mem_map, exists_exists_and_eq_and]
  refine exists_congr fun range => and_congr_right fun hrange => ?_
  rw [decide_eq_true_iff]
  exact Prefix.masked_eq_iff (p := ⟨range.1, range.2⟩) q.value_lt (hnetworks range hrange)

/-- A byte in the digits that are printed. -/
def octetOf (n : ℕ) (h : n < 256) : Octet where
  digits := Nat.toDigits 10 n
  decimal := Decimal.digits_toDigits
  nonempty := Nat.toDigits_ne_nil
  small := Decimal.value_toDigits.symm ▸ h

/-- The mapped address is printed with points. -/
theorem exists_quad (n : ℕ) : ∃ q : Quad, mappedText n = q.text ∧ q.value = n % 2 ^ 32 := by
  have hbyte : ∀ m, m &&& 255 < 256 := fun m => Nat.and_lt_two_pow m (by decide : 255 < 2 ^ 8)
  have hmod : ∀ m, m &&& 255 = m % 256 := fun m => Nat.and_two_pow_sub_one_eq_mod m 8
  refine ⟨⟨octetOf _ (hbyte (n >>> 24)), octetOf _ (hbyte (n >>> 16)), octetOf _ (hbyte (n >>> 8)),
    octetOf _ (hbyte n)⟩, rfl, ?_⟩
  simp only [Quad.value, Octet.value, octetOf, Decimal.value_toDigits, hmod,
    Nat.shiftRight_eq_div_pow]
  omega

/-- What is not public has other first bits than the global addresses, and is mapped only from a
reserved address. -/
theorem NonPublic.bits {n : ℕ} (h : NonPublic n) :
    n / 2 ^ 125 ≠ 1 ∧ (n / 2 ^ 32 = 0xffff → ReservedIpv4 (n % 2 ^ 32)) := by
  have huniqueLocal : uniqueLocal.Contains n ↔ n / 2 ^ 121 = 0x7e := Iff.rfl
  have hsiteLocal : siteLocal.Contains n ↔ n / 2 ^ 118 = 0x3fb := Iff.rfl
  have hlinkLocal : linkLocal.Contains n ↔ n / 2 ^ 118 = 0x3fa := Iff.rfl
  have hmulticast : multicast.Contains n ↔ n / 2 ^ 120 = 0xff := Iff.rfl
  have hmapped : ipv4Mapped.Contains n ↔ n / 2 ^ 32 = 0xffff := Iff.rfl
  rw [NonPublic, huniqueLocal, hsiteLocal, hlinkLocal, hmulticast, hmapped] at h
  rcases h with h | h | h | h | h | h | ⟨h, hreserved⟩
  -- only the mapped addresses have the prefix of the mapped ones
  iterate 6 exact ⟨by omega, fun hm => by omega⟩
  exact ⟨by omega, fun _ => hreserved⟩

/-- **The addresses that are not public** are blocked. -/
theorem isBlockedIpv6_of_nonPublic {n : ℕ} (h : NonPublic n) : isBlockedIpv6 n = true := by
  obtain ⟨hglobal, hreserved⟩ := h.bits
  rw [isBlockedIpv6]
  split
  · next hmapped =>
    rw [Nat.shiftRight_eq_div_pow] at hmapped
    obtain ⟨q, htext, hvalue⟩ := exists_quad n
    rw [htext, isBlockedIpv4_text, hvalue]
    exact hreserved hmapped
  · rw [← Nat.shiftRight_eq_div_pow] at hglobal
    simp [hglobal]

end Blocked

/-! ## Spellings -/

/-- `isIPv4` of the platform: four numbers up to 255 without leading zeros, with points between. -/
def isIPv4 (address : List Char) : Bool :=
  let parts := address.splitOn '.'
  parts.length = 4 && parts.all fun part =>
    part ≠ [] && part.all Char.isDigit && Decimal.value part < 256 &&
      (part.head? ≠ some '0' || part = ['0'])

/-- `isIP` of the platform, given its `isIPv6`. -/
def isIP (isIPv6 : List Char → Bool) (address : List Char) : ℕ :=
  if isIPv4 address then 4 else if isIPv6 address then 6 else 0

theorem mem_of_mem_intercalate {d c : Char} {parts : List (List Char)}
    (h : c ∈ [d].intercalate parts) : c = d ∨ ∃ part ∈ parts, c ∈ part := by
  induction parts with
  | nil => cases h
  | cons part parts ih =>
    cases parts with
    | nil =>
      rw [List.intercalate_singleton] at h
      exact Or.inr ⟨part, List.mem_cons_self, h⟩
    | cons part' parts =>
      rw [List.intercalate_cons_cons, List.append_assoc, List.mem_append, List.mem_append,
        List.mem_singleton] at h
      rcases h with h | rfl | h
      · exact Or.inr ⟨part, List.mem_cons_self, h⟩
      · exact Or.inl rfl
      · exact (ih h).imp_right fun ⟨p, hp, hc⟩ => ⟨p, List.mem_cons_of_mem _ hp, hc⟩

/-- A text with a colon is no IPv4 address. -/
theorem isIPv4_eq_false {address : List Char} (h : ':' ∈ address) : isIPv4 address = false := by
  by_contra hno
  simp only [isIPv4, Bool.not_eq_false, Bool.and_eq_true, List.all_eq_true] at hno
  have hjoin : ['.'].intercalate (address.splitOn '.') = address := List.intercalate_splitOn '.'
  rw [← hjoin] at h
  rcases mem_of_mem_intercalate h with h | ⟨part, hpart, hcolon⟩
  · exact absurd h (by decide)
  · have hdigit := (hno.2 part hpart).1.1.2 ':' hcolon
    exact absurd hdigit (by decide)

/-- A spelling has a colon. -/
theorem colon_mem_text (x : Spelling) : ':' ∈ x.text := by
  refine List.mem_append_left _ ?_
  cases x.form with
  | full groups quad complete =>
    -- there are six groups at least
    have hwidth : width quad ≤ 2 := by cases quad <;> simp [width]
    rcases groups with _ | ⟨g, _ | ⟨g', gs⟩⟩
    · rw [List.length_nil] at complete
      omega
    · rw [List.length_singleton] at complete
      omega
    · simp [Form.text, join, List.intercalate_cons_cons]
  | compressed left right quad fewer => simp [Form.text]

variable {isIPv6 : List Char → Bool}

theorem isBlockedAddress_of_isIPv6 {x : Spelling} (h : isIPv6 x.text = true) :
    isBlockedAddress (isIP isIPv6) x.text = some (isBlockedIpv6 x.value) := by
  simp [isBlockedAddress, isIP, isIPv4_eq_false (colon_mem_text x), h, ipv6ToBigInt_text]

theorem isBlockedAddress_of_not_isIPv6 {x : Spelling} (h : isIPv6 x.text = false) :
    isBlockedAddress (isIP isIPv6) x.text = some true := by
  simp [isBlockedAddress, isIP, isIPv4_eq_false (colon_mem_text x), h]

/-- **The filter depends on the address** only, not on its spelling, of those that the platform
takes for IPv6 addresses, and blocks all others: a spelling is read as its address, two spellings
that are accepted have the same verdict, and every spelling of an address that is not public is
blocked. -/
theorem filter_spellings (isIPv6 : List Char → Bool) (x y : Spelling) :
    (ipv6ToBigInt x.text = some x.value ∧ x.value < 2 ^ 128) ∧
      (x.value = y.value → isIPv6 x.text = true → isIPv6 y.text = true →
        isBlockedAddress (isIP isIPv6) x.text = isBlockedAddress (isIP isIPv6) y.text) ∧
      (isIPv6 x.text = false → isBlockedAddress (isIP isIPv6) x.text = some true) ∧
      (NonPublic x.value → isBlockedAddress (isIP isIPv6) x.text = some true) := by
  refine ⟨⟨ipv6ToBigInt_text x, x.form.value_lt⟩, fun he hx hy => ?_,
    isBlockedAddress_of_not_isIPv6, fun h => ?_⟩
  · rw [isBlockedAddress_of_isIPv6 hx, isBlockedAddress_of_isIPv6 hy, he]
  · cases hx : isIPv6 x.text with
    | true => rw [isBlockedAddress_of_isIPv6 hx, isBlockedIpv6_of_nonPublic h]
    | false => exact isBlockedAddress_of_not_isIPv6 hx

/-! ## A zone -/

/-- What `isIPv6` of the platform says of a spelling: its zone has letters, digits, hyphens, points
and colons only. -/
def zoneAllowed (address : List Char) : Bool :=
  match address.dropWhile (· ≠ '%') with
  | [] => true
  | _ :: zone => zone ≠ [] && zone.all fun c => c.isAlphanum || c ∈ ['-', '.', ':']

def group (digits : List Char) (hex : digits.all (· ∈ hexDigits)) (nonempty : digits ≠ [])
    (short : digits.length ≤ 4) : Group := ⟨digits, all_hex_iff.mp hex, nonempty, short⟩

/-- A public address with a zone: `2606:4700:4700::1111%br_lan`. -/
def bridged (zone : Option (List Char)) : Spelling where
  form := .compressed
    [group ['2', '6', '0', '6'] (by decide) (by decide) (by decide),
      group ['4', '7', '0', '0'] (by decide) (by decide) (by decide),
      group ['4', '7', '0', '0'] (by decide) (by decide) (by decide)]
    [group ['1', '1', '1', '1'] (by decide) (by decide) (by decide)] none (by decide)
  zone := zone

/-- **The verdict is not the same for all spellings**: with an underscore in its zone, an address is
none for the platform. -/
theorem not_filter_bridged : ¬ ∀ x y : Spelling, x.value = y.value →
    isBlockedAddress (isIP zoneAllowed) x.text = isBlockedAddress (isIP zoneAllowed) y.text := by
  intro h
  have hsame := h (bridged none) (bridged (some ['b', 'r', '_', 'l', 'a', 'n'])) rfl
  revert hsame
  decide

end WebhookHttp
