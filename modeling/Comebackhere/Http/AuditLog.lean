import Comebackhere.Library.HashChain
import Comebackhere.Library.Utf8
import Mathlib.Data.List.Basic
import Mathlib.Data.List.Forall2
import Mathlib.Data.List.Perm.Subperm
import Mathlib.Tactic.Linarith

/-!
# The audit log of the Rust backend

Each record of the audit log has a hash of its number, its action and the hash of the record before
it. `verify` computes the hashes again. What it checks is the same for the first records of a log as
for the whole, so that a log cut off at its end is not told from one that has always been shorter.
Any other change shows, as long as the hashes of the changed records are not computed again. The
hash function is a parameter, with a digest of 32 bytes.

## Main definitions

* `AuditLog`, `AuditLog.record`, `verify`: the log
* `Altered log altered`: some records of a log, in any order, without their hashes computed again
* `CollisionFree sha256 messages`: no two of the messages have the same digest

## Main results

* `verify_log`: a log verifies
* `prefix_of_verify`: an altered log that verifies is the beginning of the log
* `tamperEvident_iff`: tampering shows unless records are missing at the end only
-/

namespace Audit

/-! ## Hashes -/

/-- A hash function with a digest of 32 bytes. -/
abbrev Digest := List UInt8 → Vector UInt8 32

/-- `u64::to_le_bytes` -/
def toLeBytes (n : UInt64) : List UInt8 :=
  (List.range 8).map fun i => UInt8.ofNat (n.toNat / 256 ^ i)

def hexByte (b : UInt8) : List Char := [Nat.digitChar (b.toNat / 16), Nat.digitChar (b.toNat % 16)]

/-- The lower-case hexadecimal format of a digest. -/
def hexText (digest : Vector UInt8 32) : String := String.ofList (digest.toList.flatMap hexByte)

/-- The hash before the first record. -/
def genesis : String := String.ofList (List.replicate 64 '0')

@[ext] structure AuditRecord where
  seq : UInt64
  action : String
  prevHash : String
  hash : String
  deriving DecidableEq

/-- What is hashed, one part after the other. -/
def message (seq : UInt64) (action prevHash : String) : List UInt8 :=
  toLeBytes seq ++ Utf8.encode action.toList ++ Utf8.encode prevHash.toList

def AuditRecord.message (record : AuditRecord) : List UInt8 :=
  Audit.message record.seq record.action record.prevHash

def computeHash (sha256 : Digest) (seq : UInt64) (action prevHash : String) : String :=
  hexText (sha256 (message seq action prevHash))

/-! ## The log -/

/-- How many records a vector has room for: they have 80 bytes each, and together no more than the
largest `isize`. -/
def capacity : ℕ := (2 ^ 63 - 1) / 80

structure AuditLog where
  records : List AuditRecord
  fits : records.length ≤ capacity

def AuditLog.new : AuditLog := ⟨[], Nat.zero_le _⟩

/-- The record that an action adds. -/
def nextRecord (sha256 : Digest) (records : List AuditRecord) (action : String) : AuditRecord :=
  let seq := UInt64.ofNat records.length
  let prevHash := (records.getLast?.map (·.hash)).getD genesis
  ⟨seq, action, prevHash, computeHash sha256 seq action prevHash⟩

/-- Append a record. A vector that is full panics. -/
def AuditLog.record (sha256 : Digest) (log : AuditLog) (action : String) :
    Option (AuditRecord × AuditLog) :=
  if h : log.records.length < capacity then
    let record := nextRecord sha256 log.records action
    some (record, ⟨log.records ++ [record], by rw [List.length_append]; exact h⟩)
  else none

/-- The log after a sequence of actions. -/
def AuditLog.recordAll (sha256 : Digest) (log : AuditLog) : List String → Option AuditLog
  | [] => some log
  | action :: actions => (log.record sha256 action).bind fun r => r.2.recordAll sha256 actions

def verifyFrom (sha256 : Digest) : ℕ → String → List AuditRecord → Except String Unit
  | _, _, [] => .ok ()
  | idx, expectedPrev, record :: records =>
    if record.seq ≠ UInt64.ofNat idx then
      .error ("audit record " ++ toString idx ++ " has unexpected sequence " ++ toString record.seq)
    else if record.prevHash ≠ expectedPrev then
      .error ("audit record " ++ toString idx ++ " has broken chain link")
    else if record.hash ≠ computeHash sha256 record.seq record.action record.prevHash then
      .error ("audit record " ++ toString idx ++ " hash mismatch")
    else verifyFrom sha256 (idx + 1) record.hash records

/-- Verify the integrity of the full chain. -/
def verify (sha256 : Digest) (records : List AuditRecord) : Except String Unit :=
  verifyFrom sha256 0 genesis records

/-! ## Alterations -/

/-- A record with the hash it had, or with one that is not the hash of what it says. -/
def Modified (sha256 : Digest) (original altered : AuditRecord) : Prop :=
  altered.hash = original.hash ∨
    altered.hash ≠ computeHash sha256 altered.seq altered.action altered.prevHash

/-- Some records of a log, in any order and modified in any way. -/
def Altered (sha256 : Digest) (log altered : List AuditRecord) : Prop :=
  ∃ kept, kept.Subperm log ∧ List.Forall₂ (Modified sha256) kept altered

/-- No two of the messages have the same digest. No function of this type is free of collisions on
all messages. -/
def CollisionFree (sha256 : Digest) (messages : List (List UInt8)) : Prop :=
  ∀ m ∈ messages, ∀ m' ∈ messages, sha256 m = sha256 m' → m = m'

instance {sha256 : Digest} {messages : List (List UInt8)} :
    Decidable (CollisionFree sha256 messages) :=
  inferInstanceAs (Decidable (∀ m ∈ messages, ∀ m' ∈ messages, sha256 m = sha256 m' → m = m'))

/-! ## What is hashed -/

/-- Numbers with the same bytes. -/
theorem eq_of_bytes_eq {k m n : ℕ} (hm : m < 256 ^ k) (hn : n < 256 ^ k)
    (h : ∀ i < k, m / 256 ^ i % 256 = n / 256 ^ i % 256) : m = n := by
  induction k generalizing m n with
  | zero =>
    rw [pow_zero] at hm hn
    omega
  | succ k ih =>
    have hdiv : m / 256 = n / 256 := by
      refine ih (Nat.div_lt_of_lt_mul (by rwa [← pow_succ']))
        (Nat.div_lt_of_lt_mul (by rwa [← pow_succ'])) fun i hi => ?_
      rw [Nat.div_div_eq_div_mul, Nat.div_div_eq_div_mul, ← pow_succ']
      exact h (i + 1) (Nat.succ_lt_succ hi)
    have hmod := h 0 (Nat.succ_pos k)
    rw [pow_zero, Nat.div_one, Nat.div_one] at hmod
    omega

theorem toLeBytes_inj {n n' : UInt64} (h : toLeBytes n = toLeBytes n') : n = n' := by
  refine UInt64.toNat_inj.mp (eq_of_bytes_eq (k := 8) n.toNat_lt n'.toNat_lt fun i hi => ?_)
  have hbyte := (List.map_inj_left.mp h) i (List.mem_range.mpr hi)
  simpa using congrArg UInt8.toNat hbyte

theorem digitChar_inj : ∀ m < 16, ∀ n < 16, Nat.digitChar m = Nat.digitChar n → m = n := by
  decide

theorem hexByte_inj {b b' : UInt8} (h : hexByte b = hexByte b') : b = b' := by
  have hlt := b.toNat_lt
  have hlt' := b'.toNat_lt
  simp only [hexByte, List.cons.injEq, and_true] at h
  have hhigh := digitChar_inj _ (by omega) _ (by omega) h.1
  have hlow := digitChar_inj _ (by omega) _ (by omega) h.2
  apply UInt8.toNat_inj.mp
  omega

theorem flatMap_hexByte_inj {l l' : List UInt8} (h : l.flatMap hexByte = l'.flatMap hexByte) :
    l = l' := by
  induction l generalizing l' with
  | nil =>
    cases l' with
    | nil => rfl
    | cons b' l' => simp [hexByte] at h
  | cons b l ih =>
    cases l' with
    | nil => simp [hexByte] at h
    | cons b' l' =>
      rw [List.flatMap_cons, List.flatMap_cons] at h
      obtain ⟨hb, hl⟩ := List.append_inj h rfl
      rw [hexByte_inj hb, ih hl]

theorem hexText_inj {d d' : Vector UInt8 32} (h : hexText d = hexText d') : d = d' := by
  have hchars := flatMap_hexByte_inj (String.ofList_injective h)
  exact Vector.toList_inj.mp hchars

/-- A hash, or what stands for the one before the first record: 64 bytes. -/
def IsHash (s : String) : Prop := (Utf8.encode s.toList).length = 64

theorem isHash_ofList {cs : List Char} (hsize : ∀ c ∈ cs, c.utf8Size = 1) (hlen : cs.length = 64) :
    IsHash (String.ofList cs) := by
  rw [IsHash, String.toList_ofList, Utf8.length_encode hsize, hlen]

theorem isHash_genesis : IsHash genesis := by
  refine isHash_ofList (fun c hc => ?_) List.length_replicate
  rw [List.eq_of_mem_replicate hc]
  rfl

theorem utf8Size_digitChar : ∀ n < 16, (Nat.digitChar n).utf8Size = 1 := by
  decide

theorem isHash_hexText (d : Vector UInt8 32) : IsHash (hexText d) := by
  apply isHash_ofList
  · intro c hc
    obtain ⟨b, -, hb⟩ := List.mem_flatMap.mp hc
    have hlt := b.toNat_lt
    simp only [hexByte, List.mem_cons, List.not_mem_nil, or_false] at hb
    rcases hb with rfl | rfl <;> exact utf8Size_digitChar _ (by omega)
  · have htwo : ∀ l : List UInt8, (l.flatMap hexByte).length = 2 * l.length := by
      intro l
      induction l with
      | nil => rfl
      | cons b l ih =>
        rw [List.flatMap_cons, List.length_append, ih, List.length_cons, hexByte]
        simp only [List.length_cons, List.length_nil]
        omega
    rw [htwo, Vector.length_toList]

/-- Messages with a hash at their end have no two readings. -/
theorem message_inj {r r' : AuditRecord} (hr : IsHash r.prevHash) (hr' : IsHash r'.prevHash)
    (h : r.message = r'.message) :
    r.seq = r'.seq ∧ r.action = r'.action ∧ r.prevHash = r'.prevHash := by
  obtain ⟨hfront, hprev⟩ := List.append_inj' h (hr.trans hr'.symm)
  obtain ⟨hseq, haction⟩ := List.append_inj hfront rfl
  exact ⟨toLeBytes_inj hseq, String.toList_inj.mp (Utf8.encode_inj.mp haction),
    String.toList_inj.mp (Utf8.encode_inj.mp hprev)⟩

/-! ## Verification -/

variable {sha256 : Digest} {records rest : List AuditRecord} {idx : ℕ} {prev : String}

/-- The chain of hashes that the records are. -/
def scheme (sha256 : Digest) :
    HashChain.Scheme AuditRecord UInt64 (List UInt8) (Vector UInt8 32) String where
  number := UInt64.ofNat
  seq := AuditRecord.seq
  prev := AuditRecord.prevHash
  hash := AuditRecord.hash
  message := AuditRecord.message
  sum := sha256
  text := hexText
  text_injective _ _ h := hexText_inj h

theorem verifyFrom_eq_ok_iff : verifyFrom sha256 idx prev records = .ok () ↔
    (scheme sha256).Linked idx prev records := by
  have heq : verifyFrom sha256 idx prev records = (scheme sha256).verifyFrom
      (fun i r => "audit record " ++ toString i ++ " has unexpected sequence " ++ toString r.seq)
      (fun i _ => "audit record " ++ toString i ++ " has broken chain link")
      (fun i _ => "audit record " ++ toString i ++ " hash mismatch") idx prev records := by
    induction records generalizing idx prev with
    | nil => rfl
    | cons r records ih =>
      rw [verifyFrom, HashChain.Scheme.verifyFrom, ih]
      rfl
  rw [heq]
  exact HashChain.Scheme.verifyFrom_eq_ok_iff

theorem verifyFrom_cons {r : AuditRecord} : verifyFrom sha256 idx prev (r :: records) = .ok () ↔
    (scheme sha256).Sound idx prev r ∧ verifyFrom sha256 (idx + 1) r.hash records = .ok () := by
  rw [verifyFrom_eq_ok_iff, verifyFrom_eq_ok_iff]
  rfl

/-- The first records are verified as by themselves, and the rest behind them. -/
theorem verifyFrom_append : verifyFrom sha256 idx prev (records ++ rest) = .ok () ↔
    verifyFrom sha256 idx prev records = .ok () ∧
      verifyFrom sha256 (idx + records.length) ((scheme sha256).lastHash prev records) rest =
        .ok () := by
  rw [verifyFrom_eq_ok_iff, verifyFrom_eq_ok_iff, verifyFrom_eq_ok_iff]
  exact HashChain.Scheme.linked_append

/-- Each record of a log that verifies names a hash. -/
theorem isHash_of_verifyFrom (h : verifyFrom sha256 idx prev records = .ok ()) (hprev : IsHash prev)
    {i : ℕ} {r : AuditRecord} (hr : records[i]? = some r) : IsHash r.prevHash := by
  induction records generalizing idx prev i with
  | nil => simp at hr
  | cons r' records ih =>
    obtain ⟨hr', h⟩ := verifyFrom_cons.mp h
    cases i with
    | zero =>
      obtain rfl : r' = r := by simpa using hr
      have hsame : r'.prevHash = prev := hr'.prev
      exact hsame ▸ hprev
    | succ i =>
      have hhash : r'.hash = computeHash sha256 r'.seq r'.action r'.prevHash := hr'.hash
      exact ih h (hhash ▸ isHash_hexText _) (by simpa using hr)

/-! ## Logs -/

/-- A record that is appended verifies. -/
theorem verify_nextRecord (h : verify sha256 records = .ok ()) (action : String) :
    verify sha256 (records ++ [nextRecord sha256 records action]) = .ok () := by
  rw [verify, verifyFrom_append]
  refine ⟨h, verifyFrom_cons.mpr ⟨⟨?_, rfl, rfl⟩, rfl⟩⟩
  rw [Nat.zero_add]
  rfl

theorem verify_recordAll {log log' : AuditLog} (h : verify sha256 log.records = .ok ())
    {actions : List String} (hlog : log.recordAll sha256 actions = some log') :
    verify sha256 log'.records = .ok () := by
  induction actions generalizing log with
  | nil =>
    obtain rfl := Option.some.inj hlog
    exact h
  | cons action actions ih =>
    obtain ⟨⟨record, next⟩, hnext, hrest⟩ := Option.bind_eq_some_iff.mp hlog
    rw [AuditLog.record] at hnext
    split at hnext
    · cases hnext
      exact ih (verify_nextRecord h action) hrest
    · cases hnext

/-- **A log verifies.** -/
theorem verify_log {log : AuditLog} {actions : List String}
    (hlog : AuditLog.new.recordAll sha256 actions = some log) :
    verify sha256 log.records = .ok () :=
  verify_recordAll rfl hlog

/-! ## Tampering -/

variable {log altered : List AuditRecord}

/-- The hashes of an altered log that verifies are hashes of the log. -/
theorem hash_mem_of_altered (h : Altered sha256 log altered)
    (hsound : ∀ r ∈ altered, r.hash = computeHash sha256 r.seq r.action r.prevHash) :
    ∀ r ∈ altered, ∃ original ∈ log, r.hash = original.hash := by
  obtain ⟨kept, hkept, hmodified⟩ := h
  intro r hr
  obtain ⟨i, hi, rfl⟩ := List.mem_iff_get.mp hr
  obtain ⟨hlen, hget⟩ := List.forall₂_iff_get.mp hmodified
  have hi' : i.val < kept.length := i.isLt.trans_eq hlen.symm
  refine ⟨kept.get ⟨i, hi'⟩, hkept.subset (List.get_mem ..), ?_⟩
  exact (hget i hi' i.isLt).resolve_right (not_not.mpr (hsound _ hr))

theorem length_le_of_altered (h : Altered sha256 log altered) : altered.length ≤ log.length := by
  obtain ⟨kept, hkept, hmodified⟩ := h
  exact hmodified.length_eq ▸ hkept.length_le

/-- **An altered log that verifies is the beginning of the log**: the number of a record is hashed,
so that its hash is at its own position only. -/
theorem prefix_of_verify (hlog : verify sha256 log = .ok ()) (hfits : log.length ≤ capacity)
    (haltered : Altered sha256 log altered)
    (hfree : CollisionFree sha256 ((log ++ altered).map (·.message)))
    (h : verify sha256 altered = .ok ()) : altered <+: log := by
  have hlen := length_le_of_altered haltered
  have hcapacity : capacity < 2 ^ 64 := by decide
  have hsound : ∀ {i r}, altered[i]? = some r → (scheme sha256).Sound (0 + i) r.prevHash r :=
    HashChain.Scheme.sound_of_linked (verifyFrom_eq_ok_iff.mp h)
  rw [List.prefix_iff_getElem?]
  intro i hi
  have hri := hsound (List.getElem?_eq_getElem hi)
  have hmem : altered[i] ∈ altered := List.getElem_mem hi
  obtain ⟨original, horiginal, heq⟩ := hash_mem_of_altered haltered (fun r hr => by
    obtain ⟨j, hj⟩ := List.mem_iff_getElem?.mp hr
    exact (hsound hj).hash) _ hmem
  obtain ⟨j, hj⟩ := List.mem_iff_getElem?.mp horiginal
  have hrj : (scheme sha256).Sound (0 + j) original.prevHash original :=
    HashChain.Scheme.sound_of_linked (verifyFrom_eq_ok_iff.mp hlog) hj
  -- the same hash, so the same message, so the same number
  have hdigest : sha256 altered[i].message = sha256 original.message := by
    apply hexText_inj
    calc hexText (sha256 altered[i].message) = altered[i].hash := hri.hash.symm
      _ = original.hash := heq
      _ = hexText (sha256 original.message) := hrj.hash
  have hmessage := hfree _ (List.mem_map_of_mem (List.mem_append_right _ hmem)) _
    (List.mem_map_of_mem (List.mem_append_left _ horiginal)) hdigest
  obtain ⟨hseq, haction, hprev⟩ := message_inj
    (isHash_of_verifyFrom h isHash_genesis (List.getElem?_eq_getElem hi))
    (isHash_of_verifyFrom hlog isHash_genesis hj) hmessage
  have hij : i = j := by
    have hlt : j < log.length := (List.getElem?_eq_some_iff.mp hj).1
    have hnumber : UInt64.ofNat (0 + i) = UInt64.ofNat (0 + j) :=
      hri.seq.symm.trans (hseq.trans hrj.seq)
    have hnat := congrArg UInt64.toNat hnumber
    rw [UInt64.toNat_ofNat', UInt64.toNat_ofNat'] at hnat
    omega
  calc log[i]? = log[j]? := congrArg (log[·]?) hij
    _ = some original := hj
    _ = some altered[i] := congrArg some (AuditRecord.ext hseq haction hprev heq).symm

/-- **Tampering shows, unless records are missing at the end and nothing else has changed.** -/
theorem tamperEvident_iff (sha256 : Digest) {actions : List String} {log : AuditLog}
    (hlog : AuditLog.new.recordAll sha256 actions = some log)
    (haltered : Altered sha256 log.records altered)
    (hfree : CollisionFree sha256 ((log.records ++ altered).map (·.message))) :
    (verify sha256 log.records = .ok () ∧
        (altered ≠ log.records → verify sha256 altered ≠ .ok ())) ↔
      ¬ (altered <+: log.records ∧ altered ≠ log.records) := by
  have hverify := verify_log hlog
  constructor
  · rintro ⟨-, hfails⟩ ⟨⟨rest, hrest⟩, hne⟩
    rw [← hrest, verify, verifyFrom_append] at hverify
    exact hfails hne hverify.1
  · intro hnot
    refine ⟨hverify, fun hne h => hnot ⟨?_, hne⟩⟩
    exact prefix_of_verify hverify log.fits haltered hfree h

/-- The digests of first records with the actions "grant" and "revoke", told apart by a letter. -/
def digests : Digest := fun m =>
  if m[8]? = some 103 then
    #v[138, 101, 59, 32, 119, 26, 213, 114, 105, 253, 28, 171, 55, 49, 81, 108, 17, 141, 193,
      251, 111, 10, 173, 11, 130, 189, 205, 95, 75, 157, 193, 113]
  else
    #v[63, 185, 75, 111, 16, 40, 151, 208, 144, 85, 109, 74, 239, 252, 116, 118, 119, 43, 47,
      181, 118, 82, 203, 26, 243, 194, 139, 167, 98, 79, 159, 42]

def granted : AuditRecord := nextRecord digests [] "grant"

/-- The only record says something else than it did. -/
theorem tamperEvident_iff_modified :
    (verify digests [granted] = .ok () ∧
        ([{ granted with action := "revoke" }] ≠ [granted] →
          verify digests [{ granted with action := "revoke" }] ≠ .ok ())) ↔
      ¬ ([{ granted with action := "revoke" }] <+: [granted] ∧
        [{ granted with action := "revoke" }] ≠ [granted]) := by
  have hlog : AuditLog.new.recordAll digests ["grant"] = some ⟨[granted], by decide⟩ := rfl
  exact tamperEvident_iff digests hlog
    ⟨[granted], List.Subperm.refl _, .cons (Or.inl rfl) .nil⟩ (by decide)

/-- The only record is deleted. -/
theorem not_tamperEvident :
    ¬ ∀ (sha256 : Digest) (actions : List String) (log : AuditLog) (altered : List AuditRecord),
      AuditLog.new.recordAll sha256 actions = some log → Altered sha256 log.records altered →
      CollisionFree sha256 ((log.records ++ altered).map (·.message)) →
      altered ≠ log.records → verify sha256 altered ≠ .ok () := by
  intro h
  exact h digests ["grant"] ⟨[granted], by decide⟩ [] rfl ⟨[], List.nil_subperm, .nil⟩
    (by simp [CollisionFree]) (by simp) rfl

end Audit
